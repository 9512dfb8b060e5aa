import FreeipaProv.Lib.Framing

/-!
# Certificates in PEM form

`ipa_cert_to_pem` frames the base64 text of a certificate, and the task that
dumps a chain of certificates puts such frames one after the other.
-/

namespace FreeipaProv

open Framing

def pemBegin : List Char := "-----BEGIN CERTIFICATE-----".toList

def pemEnd : List Char := "-----END CERTIFICATE-----".toList

/-- The loop of `ipa_cert_to_pem`: `cert` and what is left of `data`. -/
def pemLoop (cert data : List Char) : List Char × List Char :=
  if 64 ≤ data.length then
    pemLoop (cert ++ (data.take 64 ++ ['\n'])) (data.drop 64)
  else
    (cert, data)
termination_by data.length
decreasing_by
  rw [List.length_drop]
  omega

def ipaCertToPem (data : String) : String :=
  let (cert, data) := pemLoop (pemBegin ++ ['\n']) data.toList
  String.ofList
    (cert ++ ((if data ≠ [] then data ++ ['\n'] else []) ++ pemEnd ++ ['\n']))

/-- The loop and the line after it write the data in lines of 64
characters. -/
theorem pemLoop_eq_unlines (cert data : List Char) :
    (pemLoop cert data).1 ++
        (if (pemLoop cert data).2 ≠ [] then (pemLoop cert data).2 ++ ['\n']
        else []) =
      cert ++ unlines '\n' (chunks 64 data) := by
  induction cert, data using pemLoop.induct with
  | case1 cert data hlength ih =>
      have hdata : data ≠ [] := by
        rintro rfl
        simp at hlength
      rw [pemLoop, if_pos hlength, ih, chunks_of_ne_nil hdata, unlines_cons]
      simp
  | case2 cert data hlength =>
      rw [pemLoop, if_neg hlength]
      by_cases hdata : data = []
      · simp [hdata]
      · rw [chunks_of_length_le hdata (by omega)]
        simp [hdata]

/-- The lines of a certificate's frame. -/
def pemLines (data : List Char) : List (List Char) :=
  frame pemBegin pemEnd (chunks 64 data)

theorem toList_ipaCertToPem (data : String) :
    (ipaCertToPem data).toList = unlines '\n' (pemLines data.toList) := by
  have hloop := pemLoop_eq_unlines (pemBegin ++ ['\n']) data.toList
  rw [ipaCertToPem, String.toList_ofList, pemLines, frame, List.append_assoc,
    ← List.append_assoc, hloop]
  simp

/-! ## Reading certificates back -/

/-- The text between the first and the last line of each frame. -/
def readPem (text : String) : List String :=
  (unframe pemBegin pemEnd none (text.toList.splitOn '\n')).map
    fun lines => String.ofList lines.flatten

def IsBase64 (data : String) : Prop :=
  ∀ c ∈ data.toList, c.isAlphanum ∨ c = '+' ∨ c = '/' ∨ c = '='

/-- A line of spaces and tabs, or of nothing. -/
def IsBlank (line : List Char) : Prop :=
  ∀ c ∈ line, c = ' ' ∨ c = '\t'

/-- A file of certificates, with the lines put before each of them and after
the last. -/
def chainFile (entries : List (List (List Char) × String))
    (trailing : List (List Char)) : String :=
  String.ofList
    (entries.flatMap
        (fun entry => unlines '\n' entry.1 ++ (ipaCertToPem entry.2).toList) ++
      unlines '\n' trailing)

section Lines

variable {data : String} {line : List Char}

theorem IsBase64.not_mem (hdata : IsBase64 data) {c : Char}
    (hc : ¬(c.isAlphanum ∨ c = '+' ∨ c = '/' ∨ c = '=')) :
    c ∉ data.toList := by
  intro hmem
  exact hc (hdata c hmem)

theorem mem_data_of_mem_chunk {c : Char} (hline : line ∈ chunks 64 data.toList)
    (hc : c ∈ line) : c ∈ data.toList := by
  rw [← @flatten_chunks Char 64 _ data.toList]
  exact List.mem_flatten_of_mem hline hc

theorem pemEnd_not_mem_chunks (hdata : IsBase64 data) :
    pemEnd ∉ chunks 64 data.toList := by
  intro hline
  have hdash : '-' ∈ data.toList :=
    mem_data_of_mem_chunk hline (by decide)
  exact hdata.not_mem (by decide) hdash

theorem newline_not_mem_pemLines (hdata : IsBase64 data) :
    ∀ line ∈ pemLines data.toList, '\n' ∉ line := by
  intro line hline
  rw [pemLines, frame, List.mem_append, List.mem_cons,
    List.mem_singleton] at hline
  rcases hline with (rfl | hchunk) | rfl
  · decide
  · intro hnewline
    exact hdata.not_mem (by decide) (mem_data_of_mem_chunk hchunk hnewline)
  · decide

theorem IsBlank.ne_pemBegin (hline : IsBlank line) : pemBegin ≠ line := by
  rintro rfl
  have hdash := hline '-' (by decide)
  simp at hdash

theorem IsBlank.newline_not_mem (hline : IsBlank line) : '\n' ∉ line := by
  intro hnewline
  have hchar := hline _ hnewline
  simp at hchar

theorem pemBegin_not_mem_of_blank {lines : List (List Char)}
    (hlines : ∀ line ∈ lines, IsBlank line) : pemBegin ∉ lines := by
  intro hmem
  exact (hlines _ hmem).ne_pemBegin rfl

end Lines

section Chain

variable {entries : List (List (List Char) × String)}
  {trailing : List (List Char)}

/-- The lines of a file of certificates. -/
theorem toList_chainFile (entries : List (List (List Char) × String))
    (trailing : List (List Char)) :
    (chainFile entries trailing).toList =
      unlines '\n' (entries.flatMap
        (fun entry => entry.1 ++ pemLines entry.2.toList) ++ trailing) := by
  rw [chainFile, String.toList_ofList, unlines_append]
  congr 1
  induction entries with
  | nil => rfl
  | cons entry rest ih =>
      rw [List.flatMap_cons, List.flatMap_cons, ih, toList_ipaCertToPem,
        unlines_append, unlines_append]

theorem readPem_chainFile
    (hbodies : ∀ entry ∈ entries, IsBase64 entry.2)
    (hgaps : ∀ entry ∈ entries, ∀ line ∈ entry.1, IsBlank line)
    (htrailing : ∀ line ∈ trailing, IsBlank line) :
    readPem (chainFile entries trailing) = entries.map Prod.snd := by
  have hlines : ∀ line ∈ entries.flatMap
      (fun entry => entry.1 ++ pemLines entry.2.toList) ++ trailing,
      '\n' ∉ line := by
    intro line hline
    rw [List.mem_append, List.mem_flatMap] at hline
    rcases hline with ⟨entry, hentry, hline⟩ | hline
    · rw [List.mem_append] at hline
      cases hline with
      | inl hgap => exact (hgaps entry hentry line hgap).newline_not_mem
      | inr hframe =>
          exact newline_not_mem_pemLines (hbodies entry hentry) line hframe
    · exact (htrailing line hline).newline_not_mem
  have hlast : pemBegin ∉ trailing ++ [[]] := by
    rw [List.mem_append, not_or]
    exact ⟨pemBegin_not_mem_of_blank htrailing, by decide⟩
  have hfirst : ∀ entry ∈ entries.map
      (fun entry => (entry.1, chunks 64 entry.2.toList)),
      pemBegin ∉ entry.1 := by
    rw [List.forall_mem_map]
    intro entry hentry
    exact pemBegin_not_mem_of_blank (hgaps entry hentry)
  have hend : ∀ entry ∈ entries.map
      (fun entry => (entry.1, chunks 64 entry.2.toList)),
      pemEnd ∉ entry.2 := by
    rw [List.forall_mem_map]
    intro entry hentry
    exact pemEnd_not_mem_chunks (hbodies entry hentry)
  have hread := unframe_flatMap hfirst hend hlast
  rw [List.flatMap_map, List.map_map] at hread
  rw [readPem, toList_chainFile, splitOn_unlines hlines, List.append_assoc]
  simp only [pemLines] at hread ⊢
  rw [hread, List.map_map]
  apply List.map_congr_left
  intro entry _
  simp [flatten_chunks]

end Chain

/-- The frame of a certificate is the lines of its text, and the texts are
read back from one certificate and from every chain of them. -/
theorem ipaCertToPem_roundTrip (data : String)
    (entries : List (List (List Char) × String)) (trailing : List (List Char))
    (hdata : IsBase64 data) (hbodies : ∀ entry ∈ entries, IsBase64 entry.2)
    (hgaps : ∀ entry ∈ entries, ∀ line ∈ entry.1, IsBlank line)
    (htrailing : ∀ line ∈ trailing, IsBlank line) :
    (∃ lines, (ipaCertToPem data).toList =
          unlines '\n' (pemBegin :: lines ++ [pemEnd]) ∧
        lines.flatten = data.toList ∧
        (∀ line ∈ lines.dropLast, line.length = 64) ∧
        (∀ line ∈ lines, 1 ≤ line.length ∧ line.length ≤ 64) ∧
        (lines = [] ↔ data = "")) ∧
      readPem (ipaCertToPem data) = [data] ∧
      readPem (chainFile entries trailing) = entries.map Prod.snd := by
  refine ⟨⟨chunks 64 data.toList, toList_ipaCertToPem data,
    flatten_chunks data.toList, ?_, ?_, ?_⟩, ?_, ?_⟩
  · intro line hline
    exact length_of_mem_dropLast_chunks hline
  · intro line hline
    exact length_of_mem_chunks hline
  · rw [chunks_eq_nil_iff, String.toList_eq_nil_iff]
  · have hfile : chainFile [([], data)] [] = ipaCertToPem data := by
      rw [← String.toList_inj, toList_chainFile, toList_ipaCertToPem]
      simp
    rw [← hfile]
    apply readPem_chainFile
    · simpa using hdata
    · simp
    · simp
  · exact readPem_chainFile hbodies hgaps htrailing

/-- The chain of a sub-CA: two certificates, a blank line between them and one
at the end. -/
theorem ipaCertToPem_roundTrip_chain :
    IsBase64 "MIIDjjCC" ∧
      readPem (chainFile [([], "MIIDjjCC"), ([[]], "MIIEoDCC")] [[]]) =
        ["MIIDjjCC", "MIIEoDCC"] := by
  have hsub : IsBase64 "MIIDjjCC" := by
    simp [IsBase64]
  have hbodies : ∀ entry ∈
      [(([] : List (List Char)), "MIIDjjCC"), ([[]], "MIIEoDCC")],
      IsBase64 entry.2 := by
    simp [IsBase64]
  have hgaps : ∀ entry ∈
      [(([] : List (List Char)), "MIIDjjCC"), ([[]], "MIIEoDCC")],
      ∀ line ∈ entry.1, IsBlank line := by
    simp [IsBlank]
  have htrailing : ∀ line ∈ [([] : List Char)], IsBlank line := by
    simp [IsBlank]
  exact ⟨hsub, (ipaCertToPem_roundTrip _ _ _ hsub hbodies hgaps
    htrailing).2.2⟩

end FreeipaProv
