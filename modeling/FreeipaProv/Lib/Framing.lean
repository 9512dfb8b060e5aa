import Mathlib.Tactic

/-!
# Framed lines

A text of lines, each ended by a newline; a body cut into lines of one width;
and frames, a body of lines between a first and a last line, which a reader
finds again among other lines.
-/

namespace Framing

variable {α : Type}

/-! ## Lines -/

section Lines

variable {newline : α} {lines : List (List α)}

def unlines (newline : α) (lines : List (List α)) : List α :=
  lines.flatMap fun line => line ++ [newline]

@[simp] theorem unlines_nil : unlines newline [] = [] := rfl

@[simp] theorem unlines_cons (line : List α) (lines : List (List α)) :
    unlines newline (line :: lines) =
      line ++ newline :: unlines newline lines := by
  simp [unlines]

@[simp] theorem unlines_append (before after : List (List α)) :
    unlines newline (before ++ after) =
      unlines newline before ++ unlines newline after := by
  simp [unlines]

theorem splitOn_unlines [DecidableEq α]
    (hlines : ∀ line ∈ lines, newline ∉ line) :
    (unlines newline lines).splitOn newline = lines ++ [[]] := by
  induction lines with
  | nil => rfl
  | cons line rest ih =>
      rw [List.forall_mem_cons] at hlines
      rw [unlines_cons, List.splitOn_append_cons_self_of_not_mem hlines.1,
        ih hlines.2, List.cons_append]

end Lines

/-! ## Lines of one width -/

section Chunks

variable {width : ℕ} [NeZero width]

/-- The body cut into lines of one width; the last may be shorter. -/
def chunks (width : ℕ) [NeZero width] (body : List α) : List (List α) :=
  if body = [] then []
  else body.take width :: chunks width (body.drop width)
termination_by body.length
decreasing_by
  rename_i hbody
  have hwidth : 0 < width := Nat.pos_of_neZero width
  have hlength : 0 < body.length := List.length_pos_of_ne_nil hbody
  rw [List.length_drop]
  omega

@[simp] theorem chunks_nil : chunks width ([] : List α) = [] := by
  rw [chunks, if_pos rfl]

theorem chunks_of_ne_nil {body : List α} (hbody : body ≠ []) :
    chunks width body = body.take width :: chunks width (body.drop width) := by
  rw [chunks, if_neg hbody]

theorem chunks_of_length_le {body : List α} (hbody : body ≠ [])
    (hlength : body.length ≤ width) : chunks width body = [body] := by
  rw [chunks_of_ne_nil hbody, List.take_of_length_le hlength,
    List.drop_of_length_le hlength, chunks_nil]

theorem chunks_eq_nil_iff {body : List α} :
    chunks width body = [] ↔ body = [] := by
  constructor
  · intro hnil
    by_contra hbody
    rw [chunks_of_ne_nil hbody] at hnil
    cases hnil
  · rintro rfl
    exact chunks_nil

theorem flatten_chunks (body : List α) : (chunks width body).flatten = body := by
  induction body using chunks.induct width with
  | case1 => simp
  | case2 body hbody ih =>
      rw [chunks_of_ne_nil hbody, List.flatten_cons, ih,
        List.take_append_drop]

theorem length_of_mem_chunks {body line : List α}
    (hline : line ∈ chunks width body) :
    0 < line.length ∧ line.length ≤ width := by
  have hwidth : 0 < width := Nat.pos_of_neZero width
  induction body using chunks.induct width with
  | case1 => simp at hline
  | case2 body hbody ih =>
      rw [chunks_of_ne_nil hbody, List.mem_cons] at hline
      cases hline with
      | inl hfirst =>
          have hlength : 0 < body.length := List.length_pos_of_ne_nil hbody
          rw [hfirst, List.length_take]
          omega
      | inr hrest => exact ih hrest

/-- Only the last line is shorter than the width. -/
theorem length_of_mem_dropLast_chunks {body line : List α}
    (hline : line ∈ (chunks width body).dropLast) : line.length = width := by
  induction body using chunks.induct width with
  | case1 => simp at hline
  | case2 body hbody ih =>
      by_cases hlength : body.length ≤ width
      · simp [chunks_of_length_le hbody hlength] at hline
      · have hrest : chunks width (body.drop width) ≠ [] := by
          rw [Ne, chunks_eq_nil_iff, List.drop_eq_nil_iff]
          exact hlength
        rw [chunks_of_ne_nil hbody, List.dropLast_cons_of_ne_nil hrest,
          List.mem_cons] at hline
        cases hline with
        | inl hfirst =>
            rw [hfirst, List.length_take]
            omega
        | inr hmem => exact ih hmem

end Chunks

/-! ## Frames -/

section Frames

variable {first last : α}

def frame (first last : α) (body : List α) : List α :=
  first :: body ++ [last]

/-- Collect the bodies of the frames, dropping the lines outside them.  The
option has the lines of the frame being read. -/
def unframe [DecidableEq α] (first last : α) :
    Option (List α) → List α → List (List α)
  | _, [] => []
  | none, line :: rest =>
      if line = first then unframe first last (some []) rest
      else unframe first last none rest
  | some body, line :: rest =>
      if line = last then body :: unframe first last none rest
      else unframe first last (some (body ++ [line])) rest

variable [DecidableEq α]

theorem unframe_gap {gap : List α} (hgap : first ∉ gap) (rest : List α) :
    unframe first last none (gap ++ rest) = unframe first last none rest := by
  induction gap with
  | nil => rfl
  | cons line others ih =>
      rw [List.mem_cons, not_or] at hgap
      rw [List.cons_append, unframe, if_neg (Ne.symm hgap.1), ih hgap.2]

theorem unframe_body {body : List α} (hbody : last ∉ body)
    (before rest : List α) :
    unframe first last (some before) (body ++ last :: rest) =
      (before ++ body) :: unframe first last none rest := by
  induction body generalizing before with
  | nil => simp [unframe]
  | cons line others ih =>
      rw [List.mem_cons, not_or] at hbody
      rw [List.cons_append, unframe, if_neg (Ne.symm hbody.1), ih hbody.2]
      simp

theorem unframe_frame {body : List α} (hbody : last ∉ body) (rest : List α) :
    unframe first last none (frame first last body ++ rest) =
      body :: unframe first last none rest := by
  have hopen : frame first last body ++ rest =
      first :: (body ++ last :: rest) := by simp [frame]
  rw [hopen, unframe, if_pos rfl, unframe_body hbody, List.nil_append]

/-- The bodies of any number of frames are found again, with any lines but
the first one of a frame before, between and after them. -/
theorem unframe_flatMap {entries : List (List α × List α)} {trailing : List α}
    (hgaps : ∀ entry ∈ entries, first ∉ entry.1)
    (hbodies : ∀ entry ∈ entries, last ∉ entry.2)
    (htrailing : first ∉ trailing) :
    unframe first last none
        (entries.flatMap (fun entry => entry.1 ++ frame first last entry.2) ++
          trailing) =
      entries.map Prod.snd := by
  induction entries with
  | nil =>
      have hnone := @unframe_gap _ first last _ _ htrailing []
      simpa [unframe] using hnone
  | cons entry rest ih =>
      rw [List.forall_mem_cons] at hgaps hbodies
      rw [List.flatMap_cons, List.append_assoc, List.append_assoc,
        unframe_gap hgaps.1, unframe_frame hbodies.1, ih hgaps.2 hbodies.2,
        List.map_cons]

end Frames

end Framing
