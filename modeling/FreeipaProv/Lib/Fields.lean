import Mathlib.Data.List.DropRight
import Mathlib.Tactic

/-!
# Lines of fields

A line of fields with a separator between them and a stop at its end; items
with two symbols between them; and numbers in decimal digits.  Each is read
back from what was written.  A reader that searches for its text from the end
takes the shortest suffix it can read.
-/

namespace Fields

variable {α : Type} [DecidableEq α]

/-! ## Separated fields -/

section Lines

variable {sep stop : α} {fields : List (List α)}

def fieldLine (sep stop : α) (fields : List (List α)) : List α :=
  [sep].intercalate fields ++ [stop]

omit [DecidableEq α] in
theorem mem_fieldLine {symbol : α} (hmem : symbol ∈ fieldLine sep stop fields) :
    symbol = sep ∨ symbol = stop ∨ ∃ field ∈ fields, symbol ∈ field := by
  unfold fieldLine at hmem
  rw [List.mem_append, List.mem_singleton] at hmem
  rcases hmem with hmem | rfl
  · induction fields with
    | nil => simp at hmem
    | cons field rest ih =>
        by_cases hrest : rest = []
        · subst hrest
          rw [List.intercalate_singleton] at hmem
          exact Or.inr (Or.inr ⟨field, List.mem_cons_self, hmem⟩)
        · rw [List.intercalate_cons_of_ne_nil hrest, List.mem_append,
            List.mem_append, List.mem_singleton] at hmem
          rcases hmem with (hmem | rfl) | hmem
          · exact Or.inr (Or.inr ⟨field, List.mem_cons_self, hmem⟩)
          · exact Or.inl rfl
          · rcases ih hmem with hsep | hstop | ⟨found, hfound, hmem⟩
            · exact Or.inl hsep
            · exact Or.inr (Or.inl hstop)
            · exact Or.inr (Or.inr
                ⟨found, List.mem_cons_of_mem field hfound, hmem⟩)
  · exact Or.inr (Or.inl rfl)

/-- Take the stops off the end, and split what is left. -/
def readFields (sep stop : α) (line : List α) : List (List α) :=
  (line.rdropWhile (· = stop)).splitOn sep

omit [DecidableEq α] in
theorem getLast?_intercalate_ne {last : List α} (hne : sep ≠ stop)
    (hlast : last.getLast? ≠ some stop) (fields : List (List α)) :
    ([sep].intercalate (fields ++ [last])).getLast? ≠ some stop := by
  induction fields with
  | nil => simpa [List.intercalate] using hlast
  | cons field rest ih =>
      have hcons : [sep].intercalate (field :: rest ++ [last]) =
          field ++ [sep] ++ [sep].intercalate (rest ++ [last]) := by
        cases rest <;> simp [List.intercalate]
      rw [hcons, List.getLast?_append]
      cases hend : ([sep].intercalate (rest ++ [last])).getLast? with
      | none => simpa using hne
      | some symbol =>
          rw [hend] at ih
          exact ih

theorem rdropWhile_append_stop {line : List α}
    (hline : line.getLast? ≠ some stop) :
    (line ++ [stop]).rdropWhile (· = stop) = line := by
  rw [List.rdropWhile_concat_pos _ _ _ (by simp),
    List.rdropWhile_eq_self_iff]
  intro hne hlast
  apply hline
  rw [List.getLast?_eq_some_getLast hne]
  simpa using hlast

theorem splitOn_intercalate_eq_flatMap (hfields : fields ≠ []) :
    ([sep].intercalate fields).splitOn sep =
      fields.flatMap fun field => field.splitOn sep := by
  induction fields with
  | nil => contradiction
  | cons field rest ih =>
      cases rest with
      | nil => simp
      | cons field' rest' =>
          have hrest : field' :: rest' ≠ [] := List.cons_ne_nil field' rest'
          rw [List.intercalate_cons_of_ne_nil hrest, List.append_assoc,
            List.singleton_append, List.splitOn_append_cons_self, ih hrest]
          rfl

/-- A field that holds separators is read as several. -/
theorem readFields_fieldLine_eq_flatMap {last : List α} (hne : sep ≠ stop)
    (hlast : fields.getLast? = some last) (hend : last.getLast? ≠ some stop) :
    readFields sep stop (fieldLine sep stop fields) =
      fields.flatMap fun field => field.splitOn sep := by
  obtain ⟨before, rfl⟩ := List.getLast?_eq_some_iff.mp hlast
  unfold readFields fieldLine
  rw [rdropWhile_append_stop (getLast?_intercalate_ne hne hend before)]
  exact splitOn_intercalate_eq_flatMap (by simp)

theorem flatMap_splitOn_of_not_mem (hsep : ∀ field ∈ fields, sep ∉ field) :
    (fields.flatMap fun field => field.splitOn sep) = fields := by
  induction fields with
  | nil => rfl
  | cons field rest ih =>
      rw [List.forall_mem_cons] at hsep
      rw [List.flatMap_cons, List.splitOn_eq_singleton hsep.1, ih hsep.2,
        List.singleton_append]

end Lines

/-! ## Items with a pair between them -/

section Pairs

variable {a b : α}

/-- Split at the first symbol where the second follows it. -/
def splitPair (a b : α) : List α → List (List α)
  | [] => [[]]
  | [x] => [[x]]
  | x :: y :: rest =>
      if x = a ∧ y = b then [] :: splitPair a b rest
      else (splitPair a b (y :: rest)).modifyHead (x :: ·)

theorem splitPair_of_not_mem {item : List α} (hitem : a ∉ item) :
    splitPair a b item = [item] := by
  induction item with
  | nil => rfl
  | cons x rest ih =>
      rw [List.mem_cons, not_or] at hitem
      cases rest with
      | nil => rfl
      | cons y rest' =>
          rw [splitPair, if_neg fun h => hitem.1 h.1.symm, ih hitem.2]
          rfl

theorem splitPair_append {item : List α} (hitem : a ∉ item) (rest : List α) :
    splitPair a b (item ++ a :: b :: rest) = item :: splitPair a b rest := by
  induction item with
  | nil => rw [List.nil_append, splitPair, if_pos ⟨rfl, rfl⟩]
  | cons x item' ih =>
      rw [List.mem_cons, not_or] at hitem
      cases item' with
      | nil =>
          have hhead := ih hitem.2
          rw [List.nil_append] at hhead
          rw [List.singleton_append, splitPair,
            if_neg fun h => hitem.1 h.1.symm, hhead]
          rfl
      | cons y rest' =>
          have hhead := ih hitem.2
          rw [List.cons_append] at hhead
          rw [List.cons_append, List.cons_append, splitPair,
            if_neg fun h => hitem.1 h.1.symm, hhead]
          rfl

theorem splitPair_intercalate {items : List (List α)} (hne : items ≠ [])
    (hitems : ∀ item ∈ items, a ∉ item) :
    splitPair a b ([a, b].intercalate items) = items := by
  induction items with
  | nil => contradiction
  | cons item rest ih =>
      rw [List.forall_mem_cons] at hitems
      cases rest with
      | nil =>
          have hone : [a, b].intercalate [item] = item := by
            simp [List.intercalate]
          rw [hone, splitPair_of_not_mem hitems.1]
      | cons item' rest' =>
          have hcons : [a, b].intercalate (item :: item' :: rest') =
              item ++ a :: b :: [a, b].intercalate (item' :: rest') := by
            simp [List.intercalate]
          rw [hcons, splitPair_append hitems.1,
            ih (List.cons_ne_nil item' rest') hitems.2]

end Pairs

/-! ## The shortest suffix that can be read -/

section Shortest

omit [DecidableEq α]

variable {β : Type} (read : List α → Option β)

theorem findSome?_tails_cons (a : α) (text : List α) :
    (a :: text).tails.reverse.findSome? read =
      (text.tails.reverse.findSome? read).or (read (a :: text)) := by
  rw [List.tails_cons, List.reverse_cons, List.findSome?_append,
    List.findSome?_singleton]

/-- What a suffix is read as, the whole text is. -/
theorem findSome?_tails_append {text : List α} {value : β}
    (htext : text.tails.reverse.findSome? read = some value)
    (before : List α) :
    (before ++ text).tails.reverse.findSome? read = some value := by
  induction before with
  | nil => exact htext
  | cons a before ih =>
      rw [List.cons_append, findSome?_tails_cons, ih]
      rfl

theorem read_of_findSome?_tails {text suffix : List α}
    (hnone : text.tails.reverse.findSome? read = none)
    (hsuffix : suffix <:+ text) : read suffix = none := by
  rw [List.findSome?_eq_none_iff] at hnone
  apply hnone
  rw [List.mem_reverse, List.mem_tails]
  exact hsuffix

end Shortest

/-! ## Decimal numbers -/

section Decimal

/-- The number these digits write. -/
def digitsValue (digits : List Char) : ℕ :=
  Nat.ofDigitChars 10 digits 0

theorem digitsValue_toDigits (n : ℕ) :
    digitsValue (Nat.toDigits 10 n) = n :=
  Nat.ofDigitChars_ten_toDigits

theorem isDigit_of_mem_digits {n : ℕ} {c : Char}
    (hc : c ∈ Nat.toDigits 10 n) : c.isDigit = true :=
  Nat.isDigit_of_mem_toDigits (by decide) (by decide) hc

/-- A number of digits with at most one point. -/
def decimalValue (point : Char) (text : List Char) : ℚ :=
  let fraction := (text.dropWhile (· ≠ point)).drop 1
  digitsValue (text.takeWhile (· ≠ point)) +
    digitsValue fraction / 10 ^ fraction.length

theorem decimalValue_of_not_mem {point : Char} {text : List Char}
    (hpoint : point ∉ text) : decimalValue point text = digitsValue text := by
  have hall : ∀ c ∈ text, decide (c ≠ point) = true := by
    intro c hc
    rw [decide_eq_true_eq]
    rintro rfl
    exact hpoint hc
  unfold decimalValue
  rw [List.takeWhile_eq_self_iff.mpr hall,
    List.dropWhile_eq_nil_iff.mpr hall]
  simp [digitsValue]

theorem decimalValue_append {point : Char} {whole : List Char}
    (hpoint : point ∉ whole) (fraction : List Char) :
    decimalValue point (whole ++ point :: fraction) =
      digitsValue whole + digitsValue fraction / 10 ^ fraction.length := by
  have hall : ∀ c ∈ whole, decide (c ≠ point) = true := by
    intro c hc
    rw [decide_eq_true_eq]
    rintro rfl
    exact hpoint hc
  unfold decimalValue
  rw [List.takeWhile_append_of_pos hall, List.dropWhile_append_of_pos hall]
  simp

end Decimal

end Fields
