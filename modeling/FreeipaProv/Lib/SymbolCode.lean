import Mathlib.Tactic

/-!
# Codes of symbols

A text is written symbol by symbol, each as a word over another alphabet.
The library says when such a writing can be read back and when two writings
of one text agree.  A separator keeps the words around it apart; the library
counts the separators of a text split into pieces.
-/

namespace SymbolCode

variable {α β : Type}

/-! ## Reading back -/

/-- A reader that takes one word off the front reads back what was written
symbol by symbol. -/
theorem decode_flatMap {code : α → List β} {decode : List β → List α}
    {text : List α} (hnil : decode [] = [])
    (hcons : ∀ a ∈ text, ∀ rest, decode (code a ++ rest) = a :: decode rest) :
    decode (text.flatMap code) = text := by
  induction text with
  | nil => exact hnil
  | cons a rest ih =>
      have htail : decode (rest.flatMap code) = rest := by
        apply ih
        intro b hb
        exact hcons b (List.mem_cons_of_mem a hb)
      rw [List.flatMap_cons, hcons a List.mem_cons_self, htail]

/-! ## Two writings of one text -/

section Clash

variable [DecidableEq β]

/-- The words differ before either of them ends. -/
def clash : List β → List β → Bool
  | a :: w, b :: w' => a ≠ b || clash w w'
  | _, _ => false

theorem append_ne_of_clash {w w' : List β} (hclash : clash w w' = true)
    (r r' : List β) : w ++ r ≠ w' ++ r' := by
  induction w generalizing w' with
  | nil => simp [clash] at hclash
  | cons a w ih =>
      cases w' with
      | nil => simp [clash] at hclash
      | cons b w' =>
          intro heq
          have hhead : a = b := by
            simpa using congrArg List.head? heq
          have htail : w ++ r = w' ++ r' := by
            simpa using congrArg List.tail heq
          have hrest : clash w w' = true := by
            simpa [clash, hhead] using hclash
          exact ih hrest htail

theorem append_eq_iff {w w' : List β} (h : w = w' ∨ clash w w' = true)
    (r r' : List β) : w ++ r = w' ++ r' ↔ w = w' ∧ r = r' := by
  cases h with
  | inl heq => simp [heq]
  | inr hclash =>
      have hne : w ≠ w' := by
        intro heq
        exact append_ne_of_clash hclash [] [] (by rw [heq])
      simp [append_ne_of_clash hclash r r', hne]

/-- Two writings of one text agree where they agree on every symbol of it. -/
theorem flatMap_eq_iff {code code' : α → List β} {text : List α}
    (h : ∀ a ∈ text, code a = code' a ∨ clash (code a) (code' a) = true) :
    text.flatMap code = text.flatMap code' ↔
      ∀ a ∈ text, code a = code' a := by
  induction text with
  | nil => simp
  | cons a rest ih =>
      have htail := ih fun b hb => h b (List.mem_cons_of_mem a hb)
      rw [List.flatMap_cons, List.flatMap_cons,
        append_eq_iff (h a List.mem_cons_self), htail, List.forall_mem_cons]

end Clash

/-! ## Separators -/

theorem eq_nil_of_prefix_cons {sep : α} {word text : List α}
    (hword : sep ∉ word) (hpart : word <+: sep :: text) : word = [] := by
  cases word with
  | nil => rfl
  | cons a rest =>
      rw [List.cons_prefix_cons] at hpart
      rw [hpart.1] at hword
      exact absurd List.mem_cons_self hword

/-- A word without the separator stands on one side of it. -/
theorem isInfix_append_cons {sep : α} {word before after : List α}
    (hword : sep ∉ word) (hpart : word <:+: before ++ sep :: after) :
    word <:+: before ∨ word <:+: after := by
  rcases List.infix_append_iff.mp hpart with hbefore | hafter | hboth
  · exact Or.inl hbefore
  · rcases List.infix_cons_iff.mp hafter with hstart | hrest
    · rw [eq_nil_of_prefix_cons hword hstart]
      exact Or.inl List.nil_infix
    · exact Or.inr hrest
  · obtain ⟨left, right, rfl, hleft, hright⟩ := hboth
    have hnil : right = [] := by
      apply eq_nil_of_prefix_cons _ hright
      intro hmem
      exact hword (List.mem_append_right left hmem)
    rw [hnil, List.append_nil]
    exact Or.inl hleft.isInfix

theorem sublist_intercalate_cons (glue piece : List α)
    (pieces : List (List α)) :
    (glue.intercalate pieces).Sublist
      (glue.intercalate (piece :: pieces)) := by
  cases pieces with
  | nil => exact List.nil_sublist _
  | cons next others =>
      rw [List.intercalate_cons_cons]
      exact List.sublist_append_right _ _

theorem intercalate_sublist {glue : List α} {kept pieces : List (List α)}
    (hkept : kept.Sublist pieces) :
    (glue.intercalate kept).Sublist (glue.intercalate pieces) := by
  induction hkept with
  | slnil => exact List.Sublist.refl _
  | cons piece hsub ih => exact ih.trans (sublist_intercalate_cons _ _ _)
  | @cons_cons kept pieces piece hsub ih =>
      cases kept with
      | nil =>
          cases pieces with
          | nil => exact List.Sublist.refl _
          | cons next others =>
              rw [List.intercalate_cons_cons, List.intercalate_singleton,
                List.append_assoc]
              exact List.sublist_append_left _ _
      | cons first rest =>
          have hne : pieces ≠ [] := by
            rintro rfl
            cases hsub
          rw [List.intercalate_cons_cons, List.intercalate_cons_of_ne_nil hne]
          exact ih.append_left _

section Separators

variable [DecidableEq α] {sep : α}

/-- A mark that only the separator's word has, once, counts the
separators. -/
theorem count_flatMap [DecidableEq β] {mark : β} {code : α → List β}
    {text : List α}
    (h : ∀ a ∈ text, (code a).count mark = if a = sep then 1 else 0) :
    (text.flatMap code).count mark = text.count sep := by
  induction text with
  | nil => rfl
  | cons a rest ih =>
      have htail := ih fun b hb => h b (List.mem_cons_of_mem a hb)
      rw [List.flatMap_cons, List.count_append, htail,
        h a List.mem_cons_self, List.count_cons]
      simp [add_comm]

theorem length_splitOn (sep : α) (text : List α) :
    (text.splitOn sep).length = text.count sep + 1 := by
  induction text with
  | nil => rfl
  | cons a rest ih =>
      rw [List.splitOn_cons_eq_if_modifyHead, List.count_cons]
      by_cases ha : a = sep
      · simp [ha, ih]
      · simp [ha, ih]

theorem not_mem_of_mem_splitOn {text piece : List α}
    (hpiece : piece ∈ text.splitOn sep) : sep ∉ piece := by
  induction text generalizing piece with
  | nil =>
      rw [List.splitOn_nil, List.mem_singleton] at hpiece
      simp [hpiece]
  | cons a rest ih =>
      rw [List.splitOn_cons_eq_if_modifyHead] at hpiece
      by_cases ha : a = sep
      · rw [if_pos (by simp [ha]), List.mem_cons] at hpiece
        cases hpiece with
        | inl hnil => simp [hnil]
        | inr hmem => exact ih hmem
      · rw [if_neg (by simp [ha])] at hpiece
        cases hsplit : rest.splitOn sep with
        | nil => exact absurd hsplit (List.splitOn_ne_nil sep rest)
        | cons first others =>
            rw [hsplit, List.modifyHead_cons, List.mem_cons] at hpiece
            cases hpiece with
            | inl hfirst =>
                have hnot : sep ∉ first := ih (by simp [hsplit])
                simp [hfirst, hnot, Ne.symm ha]
            | inr hmem => exact ih (by simp [hsplit, hmem])

/-- The pieces of a text that have something in them, with one separator
between two of them. -/
def squeeze (sep : α) (text : List α) : List α :=
  [sep].intercalate ((text.splitOn sep).filter (· ≠ []))

/-- No piece of a text has something in it exactly where the text is all
separators. -/
theorem filter_splitOn_eq_nil_iff {text : List α} :
    (text.splitOn sep).filter (· ≠ []) = [] ↔ ∀ a ∈ text, a = sep := by
  induction text with
  | nil => simp
  | cons a rest ih =>
      rw [List.splitOn_cons_eq_if_modifyHead, List.forall_mem_cons, ← ih]
      by_cases ha : a = sep
      · simp [ha]
      · cases hsplit : rest.splitOn sep with
        | nil => exact absurd hsplit (List.splitOn_ne_nil sep rest)
        | cons first others => simp [ha]

theorem squeeze_cons_self (text : List α) :
    squeeze sep (sep :: text) = squeeze sep text := by
  have hsplit : (sep :: text).splitOn sep = [] :: text.splitOn sep := by
    simp [List.splitOn_cons_eq_if_modifyHead]
  rw [squeeze, hsplit]
  simp [squeeze]

theorem squeeze_subset (sep : α) (text : List α) :
    squeeze sep text ⊆ text := by
  have hsub : (squeeze sep text).Sublist
      ([sep].intercalate (text.splitOn sep)) :=
    intercalate_sublist List.filter_sublist
  rw [List.intercalate_splitOn] at hsub
  exact hsub.subset

theorem splitOn_squeeze {text : List α}
    (hsome : (text.splitOn sep).filter (· ≠ []) ≠ []) :
    (squeeze sep text).splitOn sep = (text.splitOn sep).filter (· ≠ []) := by
  apply List.splitOn_intercalate
  · intro piece hpiece
    exact not_mem_of_mem_splitOn (List.mem_of_mem_filter hpiece)
  · exact hsome

/-- A squeezed text is empty exactly where the text is all separators. -/
theorem squeeze_eq_nil_iff {text : List α} :
    squeeze sep text = [] ↔ ∀ a ∈ text, a = sep := by
  rw [← filter_splitOn_eq_nil_iff]
  constructor
  · intro hnil
    by_contra hsome
    have hpieces := splitOn_squeeze hsome
    rw [hnil, List.splitOn_nil] at hpieces
    have hmem : [] ∈ (text.splitOn sep).filter (· ≠ []) := by
      rw [← hpieces]
      exact List.mem_singleton_self []
    simp at hmem
  · intro hnone
    rw [squeeze, hnone]
    rfl

theorem squeeze_of_not_mem {text : List α} (h : [] ∉ text.splitOn sep) :
    squeeze sep text = text := by
  have hall : (text.splitOn sep).filter (· ≠ []) = text.splitOn sep := by
    rw [List.filter_eq_self]
    intro piece hpiece
    simpa using ne_of_mem_of_not_mem hpiece h
  rw [squeeze, hall, List.intercalate_splitOn]

/-- Squeezing a text that is not all separators keeps their number exactly
where no piece is empty. -/
theorem count_squeeze_eq_iff {text : List α} (hsome : squeeze sep text ≠ []) :
    (squeeze sep text).count sep = text.count sep ↔
      [] ∉ text.splitOn sep := by
  have hpieces : (text.splitOn sep).filter (· ≠ []) ≠ [] := by
    rwa [Ne, filter_splitOn_eq_nil_iff, ← squeeze_eq_nil_iff]
  have hsqueezed := length_splitOn sep (squeeze sep text)
  have htext := length_splitOn sep text
  rw [splitOn_squeeze hpieces] at hsqueezed
  constructor
  · intro hcount hmem
    have hlength : ((text.splitOn sep).filter (· ≠ [])).length =
        (text.splitOn sep).length := by omega
    have hkept := List.length_filter_eq_length_iff.mp hlength [] hmem
    simp at hkept
  · intro hnot
    rw [squeeze_of_not_mem hnot]

end Separators

end SymbolCode
