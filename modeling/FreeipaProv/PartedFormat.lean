import FreeipaProv.Lib.Framing
import FreeipaProv.PartedOutput

/-!
# The machine-parseable output

The format the module reads, written by a function of its own: it is the one
of the module's docstring, but for the sizes of partitions, which CYL has as
BYT does.  What is written is read back, in the formats BYT, CYL and CHS
alike, as long as no partition name holds a colon.
-/

namespace FreeipaProv.Parted

open Fallible Fields Framing

/-! ## Disks as `parted` describes them -/

/-- A decimal number with a unit. -/
structure Quantity where
  whole : ℕ
  fraction : List Char := []
  unit : List Char
  fraction_digits : fraction.all Char.isDigit = true := by decide
  unit_chars : unit.all isUnitChar = true := by decide
  unit_start : ∃ c rest, unit = c :: rest ∧ c.isDigit = false

inductive Amount where
  | decimal (quantity : Quantity)
  | chs (cylinder head sector : ℕ)

/-- The text of a field. -/
structure Field where
  chars : List Char
  no_colon : ':' ∉ chars := by decide
  no_newline : '\n' ∉ chars := by decide

def isFlagChar (c : Char) : Bool :=
  !c.isWhitespace && c ≠ ',' && c ≠ ':' && c ≠ ';'

structure Flag where
  chars : List Char
  ne_nil : chars ≠ [] := by decide
  plain : chars.all isFlagChar = true := by decide

structure PartEntry where
  num : ℕ
  partBegin : Amount
  partEnd : Amount
  size : Amount
  fstype : Field
  name : List Char
  flags : List Flag
  name_no_newline : '\n' ∉ name := by decide

structure Geometry where
  cylinders : ℕ
  heads : ℕ
  sectors : ℕ
  cylSize : Amount

def Amount.unit : Amount → String
  | .decimal quantity => String.ofList quantity.unit
  | .chs _ _ _ => "chs"

/-- A disk in the unit of its size. -/
structure Disk where
  header : Field
  path : Field
  size : Amount
  transport : Field
  logicalBlock : ℕ
  physicalBlock : ℕ
  table : Field
  model : Field
  geometry : Option Geometry := none
  parts : List PartEntry
  model_end : model.chars.getLast? ≠ some ';' := by decide
  geometry_iff : geometry.isSome = true ↔
    size.unit = "cyl" ∨ size.unit = "chs" := by decide

/-! ## Writing -/

def digits (n : ℕ) : List Char :=
  Nat.toDigits 10 n

def Quantity.numberText (quantity : Quantity) : List Char :=
  digits quantity.whole ++
    if quantity.fraction = [] then [] else '.' :: quantity.fraction

def Amount.text : Amount → List Char
  | .decimal quantity => quantity.numberText ++ quantity.unit
  | .chs cylinder head sector =>
      [','].intercalate [digits cylinder, digits head, digits sector]

def flagsText (flags : List Flag) : List Char :=
  [',', ' '].intercalate (flags.map Flag.chars)

/-- The fields of a partition; in CHS there is no size. -/
def PartEntry.fields (unit : String) (part : PartEntry) : List (List Char) :=
  [digits part.num, part.partBegin.text, part.partEnd.text] ++
    (if unit ≠ "chs" then [part.size.text] else []) ++
    [part.fstype.chars, part.name, flagsText part.flags]

def Geometry.fields (geometry : Geometry) : List (List Char) :=
  [digits geometry.cylinders, digits geometry.heads, digits geometry.sectors,
    geometry.cylSize.text]

namespace Disk

variable (disk : Disk)

def unit : String :=
  disk.size.unit

def fields : List (List Char) :=
  [disk.path.chars, disk.size.text, disk.transport.chars,
    digits disk.logicalBlock, digits disk.physicalBlock, disk.table.chars,
    disk.model.chars]

def lines : List (List Char) :=
  ([[disk.header.chars], disk.fields] ++
    (disk.geometry.map Geometry.fields).toList ++
    disk.parts.map (PartEntry.fields disk.unit)).map (fieldLine ':' ';')

/-- What `parted -m` prints. -/
def output : String :=
  String.ofList (unlines '\n' disk.lines)

end Disk

/-! ## What is to be read -/

section Dict

variable {F : Type} (float : ℚ → F)

def Quantity.value (quantity : Quantity) : ℚ :=
  quantity.whole +
    digitsValue quantity.fraction / 10 ^ quantity.fraction.length

def Amount.toSize : Amount → Size F
  | .decimal quantity => .number (float quantity.value)
  | .chs cylinder head sector => .chs cylinder head sector

def PartEntry.toDict (unit : String) (part : PartEntry) : Part F where
  num := part.num
  partBegin := part.partBegin.toSize float
  partEnd := part.partEnd.toSize float
  size := if unit ≠ "chs" then some (part.size.toSize float) else none
  fstype := String.ofList part.fstype.chars
  flags := part.flags.map fun flag => String.ofList flag.chars
  unit := pyLower unit

def Geometry.toDict (geometry : Geometry) : ChsInfo F where
  cylinders := geometry.cylinders
  heads := geometry.heads
  sectors := geometry.sectors
  cylSize := geometry.cylSize.toSize float
  cylSizeUnit := pyLower geometry.cylSize.unit

def Disk.toDict (disk : Disk) : DiskInfo F where
  generic := {
    dev := String.ofList disk.path.chars
    size := disk.size.toSize float
    unit := pyLower disk.unit
    table := String.ofList disk.table.chars
    model := String.ofList disk.model.chars
    logicalBlock := disk.logicalBlock
    physicalBlock := disk.physicalBlock
    chsInfo := disk.geometry.map (Geometry.toDict float) }
  partitions := disk.parts.map (PartEntry.toDict float disk.unit)

end Dict

/-! ## Reading numbers and sizes -/

section Numbers

theorem isWhitespace_of_isDigit {c : Char} (hc : c.isDigit = true) :
    c.isWhitespace = false := by
  rw [Bool.eq_false_iff]
  intro hspace
  simp only [Char.isWhitespace, Bool.or_eq_true, decide_eq_true_eq] at hspace
  rcases hspace with ((rfl | rfl) | rfl) | rfl <;> contradiction

theorem mem_digits {n : ℕ} {c : Char} (hc : c ∈ digits n) :
    c.isDigit = true :=
  isDigit_of_mem_digits hc

theorem digits_ne_nil (n : ℕ) : digits n ≠ [] :=
  Nat.toDigits_ne_nil

theorem strip_ofList {text : List Char}
    (htext : ∀ c ∈ text, c.isWhitespace = false) :
    strip (String.ofList text) = String.ofList text := by
  have hkeep : ∀ text : List Char, (∀ c ∈ text, c.isWhitespace = false) →
      text.dropWhile Char.isWhitespace = text := by
    intro text htext
    cases text with
    | nil => rfl
    | cons c rest =>
        rw [List.dropWhile_cons_of_neg]
        rw [htext c List.mem_cons_self]
        exact Bool.false_ne_true
  unfold strip
  rw [String.toList_ofList, hkeep text htext, hkeep text.reverse
    fun c hc => htext c (List.mem_reverse.mp hc), List.reverse_reverse]

theorem pyInt_digits (n : ℕ) : pyInt (String.ofList (digits n)) = .ok n := by
  have hall : (digits n).all Char.isDigit = true :=
    List.all_eq_true.mpr fun c hc => mem_digits hc
  obtain ⟨c, rest, hdigits⟩ := List.exists_cons_of_ne_nil (digits_ne_nil n)
  have hc : c.isDigit = true := mem_digits (n := n) (by simp [hdigits])
  unfold pyInt
  rw [strip_ofList fun c hc => isWhitespace_of_isDigit (mem_digits hc),
    String.toList_ofList]
  split
  · next hminus =>
      obtain ⟨rfl, -⟩ := List.cons.inj (hdigits.symm.trans hminus)
      contradiction
  · next hplus =>
      obtain ⟨rfl, -⟩ := List.cons.inj (hdigits.symm.trans hplus)
      contradiction
  · rw [if_pos ⟨digits_ne_nil n, hall⟩]
    exact congrArg Except.ok (congrArg Nat.cast (digitsValue_toDigits n))

end Numbers

section Sizes

theorem isUnitChar_of_isDigit {c : Char} (hc : c.isDigit = true) :
    isUnitChar c = true := by
  unfold isUnitChar Char.isAlphanum
  rw [hc]
  simp

theorem mem_numberText {quantity : Quantity} {c : Char}
    (hc : c ∈ quantity.numberText) : c.isDigit = true ∨ c = '.' := by
  unfold Quantity.numberText at hc
  rw [List.mem_append] at hc
  split_ifs at hc
  · simp only [List.not_mem_nil, or_false] at hc
    exact Or.inl (mem_digits hc)
  · rcases hc with hc | hc
    · exact Or.inl (mem_digits hc)
    · rcases List.mem_cons.mp hc with rfl | hc
      · exact Or.inr rfl
      · exact Or.inl (List.all_eq_true.mp quantity.fraction_digits c hc)

/-- Sizes are written with letters, digits and these. -/
theorem mem_amountText {amount : Amount} {c : Char}
    (hc : c ∈ amount.text) : isUnitChar c = true ∨ c = '.' ∨ c = ',' := by
  cases amount with
  | decimal quantity =>
      rcases List.mem_append.mp hc with hc | hc
      · rcases mem_numberText hc with hc | rfl
        · exact Or.inl (isUnitChar_of_isDigit hc)
        · exact Or.inr (Or.inl rfl)
      · exact Or.inl (List.all_eq_true.mp quantity.unit_chars c hc)
  | chs cylinder head sector =>
      have hparts : c ∈ digits cylinder ∨ c = ',' ∨ c ∈ digits head ∨
          c = ',' ∨ c ∈ digits sector := by
        simpa [Amount.text, List.intercalate] using hc
      rcases hparts with hc | rfl | hc | rfl | hc
      · exact Or.inl (isUnitChar_of_isDigit (mem_digits hc))
      · exact Or.inr (Or.inr rfl)
      · exact Or.inl (isUnitChar_of_isDigit (mem_digits hc))
      · exact Or.inr (Or.inr rfl)
      · exact Or.inl (isUnitChar_of_isDigit (mem_digits hc))

theorem not_mem_amountText {amount : Amount} {c : Char}
    (hunit : isUnitChar c = false) (hpoint : c ≠ '.') (hcomma : c ≠ ',') :
    c ∉ amount.text := by
  intro hc
  rcases mem_amountText hc with hc | rfl | rfl
  · rw [hunit] at hc
    contradiction
  · contradiction
  · contradiction

end Sizes

section ParseSize

variable {F : Type} (float : ℚ → F) (unit : String)

theorem isFloat_numberText (quantity : Quantity) :
    isFloat quantity.numberText = true := by
  have hany : quantity.numberText.any Char.isDigit = true := by
    obtain ⟨c, hc⟩ := List.exists_mem_of_ne_nil _ (digits_ne_nil quantity.whole)
    apply List.any_eq_true.mpr
    exact ⟨c, List.mem_append_left _ hc, mem_digits hc⟩
  have hnone : ∀ {text : List Char}, (∀ c ∈ text, c.isDigit = true) →
      text.count '.' = 0 := by
    intro text htext
    apply List.count_eq_zero_of_not_mem
    intro hpoint
    exact absurd (htext '.' hpoint) (by decide)
  have hcount : quantity.numberText.count '.' ≤ 1 := by
    unfold Quantity.numberText
    rw [List.count_append, hnone fun c hc => mem_digits hc]
    split_ifs
    · simp
    · rw [List.count_cons_self,
        hnone (List.all_eq_true.mp quantity.fraction_digits)]
  unfold isFloat
  rw [hany]
  simpa using hcount

theorem decimalValue_numberText (quantity : Quantity) :
    decimalValue '.' quantity.numberText = quantity.value := by
  have hpoint : '.' ∉ digits quantity.whole := by
    intro hc
    exact absurd (mem_digits hc) (by decide)
  unfold Quantity.numberText Quantity.value
  split_ifs with hfraction
  · rw [List.append_nil, decimalValue_of_not_mem hpoint, hfraction]
    simp [digits, digitsValue]
  · rw [decimalValue_append hpoint]
    simp [digits, digitsValue_toDigits]

theorem parseSize_decimal (quantity : Quantity) :
    parseSize float (String.ofList (Amount.decimal quantity).text) unit =
      .ok (.number (float quantity.value), String.ofList quantity.unit) := by
  obtain ⟨c, rest, hunit, hc⟩ := quantity.unit_start
  have hchars := quantity.unit_chars
  have hpoint : c ≠ '.' := by
    rintro rfl
    rw [hunit, List.all_cons] at hchars
    exact absurd (Bool.and_elim_left hchars) (by decide)
  have hnumber : ∀ x ∈ quantity.numberText,
      (x.isDigit || decide (x = '.')) = true := by
    intro x hx
    simpa using mem_numberText hx
  have hstop : (c.isDigit || decide (c = '.')) = false := by
    simp [hc, hpoint]
  have hend : (quantity.numberText ++ quantity.unit).getLast? ≠
      some '\n' := by
    rw [List.getLast?_append_of_ne_nil _ (by simp [hunit])]
    intro hlast
    have hmem := List.mem_of_getLast? hlast
    exact absurd (List.all_eq_true.mp hchars _ hmem) (by decide)
  have hne : quantity.numberText ≠ [] := by
    unfold Quantity.numberText
    simp [digits_ne_nil]
  unfold parseSize Amount.text
  dsimp only
  rw [String.toList_ofList, if_neg hend,
    List.takeWhile_append_of_pos hnumber, List.dropWhile_append_of_pos hnumber]
  have htake : quantity.unit.takeWhile
      (fun c => c.isDigit || decide (c = '.')) = [] := by
    rw [hunit, List.takeWhile_cons_of_neg (by simp [hstop])]
  have hdrop : quantity.unit.dropWhile
      (fun c => c.isDigit || decide (c = '.')) = quantity.unit := by
    rw [hunit, List.dropWhile_cons_of_neg (by simp [hstop])]
  rw [htake, hdrop, List.append_nil, hchars, if_pos (by simp [hne]),
    if_pos (isFloat_numberText quantity), decimalValue_numberText,
    if_neg (by simp [hunit])]

theorem chsNumbers_text (cylinder head sector : ℕ) :
    chsNumbers (Amount.chs cylinder head sector).text =
      some (cylinder, head, sector) := by
  have hcomma : ∀ n, ',' ∉ digits n := by
    intro n hc
    exact absurd (mem_digits hc) (by decide)
  have hall : ∀ n, (digits n).all Char.isDigit = true :=
    fun n => List.all_eq_true.mpr fun c hc => mem_digits hc
  unfold chsNumbers Amount.text
  rw [List.splitOn_intercalate ',' (by simp [hcomma]) (List.cons_ne_nil _ _)]
  dsimp only
  rw [if_pos (by simp [hall, digits_ne_nil])]
  simp [digits, digitsValue_toDigits]

theorem parseSize_chs (cylinder head sector : ℕ) :
    parseSize float
        (String.ofList (Amount.chs cylinder head sector).text) unit =
      .ok (.chs cylinder head sector, "chs") := by
  have hend : (Amount.chs cylinder head sector).text.getLast? ≠
      some '\n' := by
    intro hlast
    exact not_mem_amountText (by decide) (by decide) (by decide)
      (List.mem_of_getLast? hlast)
  have hgiven : ((Amount.chs cylinder head sector).text.dropWhile
      fun c => c.isDigit || decide (c = '.')).all isUnitChar = false := by
    have hnumber : ∀ x ∈ digits cylinder,
        (x.isDigit || decide (x = '.')) = true := by
      intro x hx
      simp [mem_digits hx]
    have htext : (Amount.chs cylinder head sector).text =
        digits cylinder ++ ',' :: (digits head ++ ',' :: digits sector) := by
      simp [Amount.text, List.intercalate]
    rw [htext, List.dropWhile_append_of_pos hnumber,
      List.dropWhile_cons_of_neg (by decide), List.all_cons]
    rfl
  unfold parseSize
  dsimp only
  rw [String.toList_ofList, if_neg hend, hgiven, Bool.and_false,
    if_neg Bool.false_ne_true, chsNumbers_text]

theorem parseSize_text (amount : Amount) :
    parseSize float (String.ofList amount.text) unit =
      .ok (amount.toSize float, amount.unit) := by
  cases amount with
  | decimal quantity => exact parseSize_decimal float unit quantity
  | chs cylinder head sector =>
      exact parseSize_chs float unit cylinder head sector

end ParseSize

/-! ## Reading lines -/

section Lines

theorem digits_plain {n : ℕ} {c : Char} (hc : c.isDigit = false) :
    c ∉ digits n := by
  intro hmem
  rw [mem_digits hmem] at hc
  contradiction

theorem Flag.isFlagChar_of_mem (flag : Flag) {c : Char}
    (hc : c ∈ flag.chars) : isFlagChar c = true :=
  List.all_eq_true.mp flag.plain c hc

theorem mem_flagsText {flags : List Flag} {c : Char}
    (hc : c ∈ flagsText flags) (hcomma : c ≠ ',') (hspace : c ≠ ' ') :
    ∃ flag ∈ flags, c ∈ flag.chars := by
  induction flags with
  | nil => simp [flagsText, List.intercalate] at hc
  | cons flag rest ih =>
      cases rest with
      | nil =>
          have hone : flagsText [flag] = flag.chars := by
            simp [flagsText, List.intercalate]
          rw [hone] at hc
          exact ⟨flag, List.mem_cons_self, hc⟩
      | cons flag' rest' =>
          have hcons : flagsText (flag :: flag' :: rest') =
              flag.chars ++ ',' :: ' ' :: flagsText (flag' :: rest') := by
            simp [flagsText, List.intercalate]
          rw [hcons, List.mem_append, List.mem_cons, List.mem_cons] at hc
          rcases hc with hc | hc | hc | hc
          · exact ⟨flag, List.mem_cons_self, hc⟩
          · contradiction
          · contradiction
          · obtain ⟨found, hfound, hmem⟩ := ih hc
            exact ⟨found, List.mem_cons_of_mem flag hfound, hmem⟩

theorem flagsText_plain {flags : List Flag} {c : Char}
    (hc : c = ':' ∨ c = ';' ∨ c = '\n') : c ∉ flagsText flags := by
  intro hmem
  have hcomma : c ≠ ',' := by
    rcases hc with rfl | rfl | rfl <;> decide
  have hspace : c ≠ ' ' := by
    rcases hc with rfl | rfl | rfl <;> decide
  obtain ⟨flag, -, hflag⟩ := mem_flagsText hmem hcomma hspace
  have hplain := flag.isFlagChar_of_mem hflag
  rcases hc with rfl | rfl | rfl
  · exact absurd hplain (by decide)
  · exact absurd hplain (by decide)
  · exact absurd hplain (by decide)

theorem getLast?_flagsText (flags : List Flag) :
    (flagsText flags).getLast? ≠ some ';' := by
  intro hlast
  exact flagsText_plain (Or.inr (Or.inl rfl)) (List.mem_of_getLast? hlast)

theorem parseFlags_flagsText (flags : List Flag) :
    parseFlags (String.ofList (flagsText flags)) =
      flags.map fun flag => String.ofList flag.chars := by
  unfold parseFlags
  rw [String.toList_ofList]
  cases flags with
  | nil => rfl
  | cons flag rest =>
      have hcomma : ∀ item ∈ (flag :: rest).map Flag.chars, ',' ∉ item := by
        intro item hitem hmem
        obtain ⟨flag, -, rfl⟩ := List.mem_map.mp hitem
        exact absurd (flag.isFlagChar_of_mem hmem) (by decide)
      have hne : ∀ item ∈ (flag :: rest).map Flag.chars,
          decide (item ≠ []) = true := by
        intro item hitem
        obtain ⟨flag, -, rfl⟩ := List.mem_map.mp hitem
        exact decide_eq_true flag.ne_nil
      unfold flagsText
      rw [splitPair_intercalate (by simp) hcomma,
        List.filter_eq_self.mpr hne, List.map_map]
      apply List.map_congr_left
      intro flag _
      apply strip_ofList
      intro c hc
      have hplain := flag.isFlagChar_of_mem hc
      unfold isFlagChar at hplain
      simp only [Bool.and_eq_true, Bool.not_eq_true'] at hplain
      exact hplain.1.1.1

theorem lineParams_fieldLine {fields : List (List Char)} {last : List Char}
    (hcolon : ∀ field ∈ fields, ':' ∉ field) (hlast : fields.getLast? = some last)
    (hend : last.getLast? ≠ some ';') :
    lineParams (fieldLine ':' ';' fields) = fields.map String.ofList := by
  unfold lineParams
  rw [readFields_fieldLine_eq_flatMap (by decide) hlast hend,
    flatMap_splitOn_of_not_mem hcolon]

theorem amountText_colon (amount : Amount) : ':' ∉ amount.text :=
  not_mem_amountText (by decide) (by decide) (by decide)

theorem amountText_newline (amount : Amount) : '\n' ∉ amount.text :=
  not_mem_amountText (by decide) (by decide) (by decide)

end Lines

section Parts

variable {F : Type} (float : ℚ → F)

theorem lineParams_generic (disk : Disk) :
    lineParams (fieldLine ':' ';' disk.fields) =
      disk.fields.map String.ofList := by
  have hcolon : ∀ field ∈ disk.fields, ':' ∉ field := by
    simp only [Disk.fields, List.forall_mem_cons, List.not_mem_nil,
      false_implies, implies_true, and_true]
    exact ⟨disk.path.no_colon, amountText_colon _, disk.transport.no_colon,
      digits_plain rfl, digits_plain rfl, disk.table.no_colon,
      disk.model.no_colon⟩
  exact lineParams_fieldLine hcolon rfl disk.model_end

theorem parseGeneric_fieldLine (disk : Disk) (unit : String) :
    parseGeneric float unit (fieldLine ':' ';' disk.fields) =
      .ok ({ (disk.toDict float).generic with chsInfo := none },
        disk.unit) := by
  unfold parseGeneric
  rw [lineParams_generic]
  simp only [Disk.fields, item, List.map_cons, List.map_nil,
    List.getElem?_cons_zero, List.getElem?_cons_succ, ok_bind,
    parseSize_text, pyInt_digits, Disk.toDict, Disk.unit]

theorem parseChsInfo_fieldLine (geometry : Geometry) :
    parseChsInfo float (fieldLine ':' ';' geometry.fields) =
      .ok (geometry.toDict float) := by
  have hcolon : ∀ field ∈ geometry.fields, ':' ∉ field := by
    simp only [Geometry.fields, List.forall_mem_cons, List.not_mem_nil,
      false_implies, implies_true, and_true]
    exact ⟨digits_plain rfl, digits_plain rfl, digits_plain rfl,
      amountText_colon _⟩
  have hend : geometry.cylSize.text.getLast? ≠ some ';' := by
    intro hlast
    exact not_mem_amountText (by decide) (by decide) (by decide)
      (List.mem_of_getLast? hlast)
  have hparams : lineParams (fieldLine ':' ';' geometry.fields) =
      geometry.fields.map String.ofList :=
    lineParams_fieldLine hcolon rfl hend
  unfold parseChsInfo
  rw [hparams]
  simp only [Geometry.fields, item, List.map_cons, List.map_nil,
    List.getElem?_cons_zero, List.getElem?_cons_succ, ok_bind,
    parseSize_text, pyInt_digits, Geometry.toDict]

/-- The fields of a partition as they are read: a name that holds colons is
read as several. -/
theorem lineParams_part (part : PartEntry) (unit : String) :
    lineParams (fieldLine ':' ';' (part.fields unit)) =
      ([digits part.num, part.partBegin.text, part.partEnd.text] ++
        (if unit ≠ "chs" then [part.size.text] else []) ++
        [part.fstype.chars] ++ part.name.splitOn ':' ++
          [flagsText part.flags]).map String.ofList := by
  have hlast : (part.fields unit).getLast? = some (flagsText part.flags) := by
    unfold PartEntry.fields
    rw [List.getLast?_append_of_ne_nil _ (by simp)]
    rfl
  have hnum : (digits part.num).splitOn ':' = [digits part.num] :=
    List.splitOn_eq_singleton (digits_plain rfl)
  have hamount : ∀ amount : Amount,
      amount.text.splitOn ':' = [amount.text] :=
    fun amount => List.splitOn_eq_singleton (amountText_colon amount)
  have hfstype : part.fstype.chars.splitOn ':' = [part.fstype.chars] :=
    List.splitOn_eq_singleton part.fstype.no_colon
  have hflags : (flagsText part.flags).splitOn ':' = [flagsText part.flags] :=
    List.splitOn_eq_singleton (flagsText_plain (Or.inl rfl))
  unfold lineParams
  rw [readFields_fieldLine_eq_flatMap (by decide) hlast
    (getLast?_flagsText part.flags)]
  unfold PartEntry.fields
  split_ifs
  · simp [hnum, hamount, hfstype, hflags]
  · simp [hnum, hamount, hfstype, hflags]

/-- Where the module looks for the flags of a partition. -/
def PartEntry.flagsField (part : PartEntry) : List Char :=
  match part.name.splitOn ':' with
  | _ :: piece :: _ => piece
  | _ => flagsText part.flags

theorem parsePart_fieldLine (part : PartEntry) (unit : String) :
    parsePart float unit (fieldLine ':' ';' (part.fields unit)) =
      .ok { part.toDict float unit with
        flags := parseFlags (String.ofList part.flagsField) } := by
  obtain ⟨first, pieces, hname⟩ :=
    List.exists_cons_of_ne_nil (List.splitOn_ne_nil ':' part.name)
  have hflags : (pieces.map String.ofList ++
      [String.ofList (flagsText part.flags)])[0]? =
        some (String.ofList part.flagsField) := by
    unfold PartEntry.flagsField
    rw [hname]
    cases pieces <;> rfl
  unfold parsePart parseFormat
  rw [lineParams_part, hname]
  by_cases hunit : unit = "chs"
  · simp only [hunit, item, ne_eq, not_true_eq_false, if_false, List.map_append,
      List.map_cons, List.map_nil, List.append_nil, List.cons_append,
      List.nil_append, List.getElem?_cons_zero, List.getElem?_cons_succ,
      ok_bind, parseSize_text, pyInt_digits, PartEntry.toDict, hflags]
  · simp only [hunit, item, ne_eq, not_false_eq_true, if_true, List.map_append,
      List.map_cons, List.map_nil, List.cons_append, List.nil_append,
      List.getElem?_cons_zero, List.getElem?_cons_succ,
      ok_bind, parseSize_text, pyInt_digits, PartEntry.toDict, hflags]

end Parts

/-! ## Reading the output -/

section Output

variable (disk : Disk)

/-- No line is empty or holds a newline. -/
theorem fieldLine_lines {fields : List (List Char)}
    (hnewline : ∀ field ∈ fields, '\n' ∉ field) :
    '\n' ∉ fieldLine ':' ';' fields ∧
      (fieldLine ':' ';' fields).all Char.isWhitespace = false := by
  constructor
  · intro hmem
    rcases mem_fieldLine hmem with hsep | hstop | ⟨field, hfield, hmem⟩
    · exact absurd hsep (by decide)
    · exact absurd hstop (by decide)
    · exact hnewline field hfield hmem
  · rw [fieldLine, List.all_append]
    simp [Char.isWhitespace]

theorem fields_newline : ∀ field ∈ disk.fields, '\n' ∉ field := by
  simp only [Disk.fields, List.forall_mem_cons, List.not_mem_nil,
    false_implies, implies_true, and_true]
  exact ⟨disk.path.no_newline, amountText_newline _,
    disk.transport.no_newline, digits_plain rfl, digits_plain rfl,
    disk.table.no_newline, disk.model.no_newline⟩

theorem geometry_newline (geometry : Geometry) :
    ∀ field ∈ geometry.fields, '\n' ∉ field := by
  simp only [Geometry.fields, List.forall_mem_cons, List.not_mem_nil,
    false_implies, implies_true, and_true]
  exact ⟨digits_plain rfl, digits_plain rfl, digits_plain rfl,
    amountText_newline _⟩

theorem part_newline (part : PartEntry) (unit : String) :
    ∀ field ∈ part.fields unit, '\n' ∉ field := by
  have hsize : ∀ field ∈ if unit ≠ "chs" then [part.size.text] else [],
      '\n' ∉ field := by
    split_ifs
    · simpa using amountText_newline part.size
    · simp
  have hflags : '\n' ∉ flagsText part.flags :=
    flagsText_plain (Or.inr (Or.inr rfl))
  unfold PartEntry.fields
  intro field hfield
  simp only [List.mem_append, List.mem_cons, List.not_mem_nil,
    or_false] at hfield
  rcases hfield with ((rfl | rfl | rfl) | hfield) | rfl | rfl | rfl
  · exact digits_plain rfl
  · exact amountText_newline part.partBegin
  · exact amountText_newline part.partEnd
  · exact hsize field hfield
  · exact part.fstype.no_newline
  · exact part.name_no_newline
  · exact hflags

theorem lines_plain : ∀ line ∈ disk.lines,
    '\n' ∉ line ∧ line.all Char.isWhitespace = false := by
  intro line hline
  obtain ⟨fields, hfields, rfl⟩ := List.mem_map.mp hline
  apply fieldLine_lines
  simp only [List.mem_append, List.mem_cons, List.not_mem_nil, or_false,
    Option.mem_toList, List.mem_map] at hfields
  rcases hfields with ((rfl | rfl) | hgeometry) | ⟨part, -, rfl⟩
  · simpa using disk.header.no_newline
  · exact fields_newline disk
  · obtain ⟨geometry, -, rfl⟩ := Option.map_eq_some_iff.mp hgeometry
    exact geometry_newline geometry
  · exact part_newline part disk.unit

theorem outputLines_output : outputLines disk.output = disk.lines := by
  have hkeep : ∀ line ∈ disk.lines,
      (!line.all Char.isWhitespace) = true := by
    intro line hline
    rw [(lines_plain disk line hline).2]
    rfl
  unfold outputLines Disk.output
  rw [String.toList_ofList,
    splitOn_unlines fun line hline => (lines_plain disk line hline).1,
    List.filter_append, List.filter_eq_self.mpr hkeep]
  simp

variable {F : Type} (float : ℚ → F)

theorem parseChsLine_lines :
    parseChsLine float disk.unit disk.lines =
      .ok (disk.geometry.map (Geometry.toDict float),
        (disk.parts.map (PartEntry.fields disk.unit)).map
          (fieldLine ':' ';')) := by
  unfold parseChsLine
  cases hgeometry : disk.geometry with
  | none =>
      have hunit : ¬(disk.unit = "cyl" ∨ disk.unit = "chs") := by
        rw [Disk.unit, ← disk.geometry_iff, hgeometry]
        exact Bool.false_ne_true
      rw [if_neg hunit]
      unfold Disk.lines
      rw [hgeometry]
      rfl
  | some geometry =>
      have hunit : disk.unit = "cyl" ∨ disk.unit = "chs" := by
        rw [Disk.unit, ← disk.geometry_iff, hgeometry]
        rfl
      have hline : item disk.lines 2 =
          .ok (fieldLine ':' ';' geometry.fields) := by
        unfold Disk.lines item
        rw [hgeometry]
        rfl
      have hrest : disk.lines.drop 3 =
          (disk.parts.map (PartEntry.fields disk.unit)).map
            (fieldLine ':' ';') := by
        unfold Disk.lines
        rw [hgeometry]
        rfl
      rw [if_pos hunit, hline, ok_bind, parseChsInfo_fieldLine, ok_bind, hrest]
      rfl

/-- A partition as it is read, flags included. -/
def PartEntry.readDict (unit : String) (part : PartEntry) : Part F :=
  { part.toDict float unit with
    flags := parseFlags (String.ofList part.flagsField) }

theorem parse_output_eq (unit : String) :
    parsePartitionInfo float disk.output unit =
      .ok { disk.toDict float with
        partitions := disk.parts.map (PartEntry.readDict float disk.unit) } := by
  have hline : item disk.lines 1 = .ok (fieldLine ':' ';' disk.fields) := rfl
  have hparts : (disk.parts.map (fieldLine ':' ';' ∘
      PartEntry.fields disk.unit)).mapM (parsePart float disk.unit) =
        .ok (disk.parts.map (PartEntry.readDict float disk.unit)) :=
    mapM_map_eq_ok fun part _ => parsePart_fieldLine float part disk.unit
  unfold parsePartitionInfo
  dsimp only
  rw [outputLines_output, hline, ok_bind, parseGeneric_fieldLine, ok_bind]
  dsimp only
  rw [parseChsLine_lines, ok_bind]
  dsimp only
  rw [List.map_map, hparts, ok_bind]
  rfl

theorem flagsField_of_no_colon {part : PartEntry} (hname : ':' ∉ part.name) :
    part.flagsField = flagsText part.flags := by
  unfold PartEntry.flagsField
  rw [List.splitOn_eq_singleton hname]

theorem readDict_of_no_colon {part : PartEntry} (hname : ':' ∉ part.name)
    (unit : String) : part.readDict float unit = part.toDict float unit := by
  unfold PartEntry.readDict
  rw [flagsField_of_no_colon hname, parseFlags_flagsText]
  rfl

/-- What `parted` prints of a disk is read back, in each of its formats, as
long as no partition name holds a colon. -/
theorem parse_output (unit : String)
    (hnames : ∀ part ∈ disk.parts, ':' ∉ part.name) :
    parsePartitionInfo float disk.output unit = .ok (disk.toDict float) := by
  have hparts : disk.parts.map (PartEntry.readDict float disk.unit) =
      disk.parts.map (PartEntry.toDict float disk.unit) := by
    apply List.map_congr_left
    intro part hpart
    exact readDict_of_no_colon float (hnames part hpart) disk.unit
  rw [parse_output_eq, hparts]
  rfl

/-- A disk in CHS, with the size of its cylinders in kB. -/
def chsDisk : Disk where
  header := { chars := "CHS".toList }
  path := { chars := "/dev/sda".toList }
  size := .chs 1044 85 0
  transport := { chars := "scsi".toList }
  logicalBlock := 512
  physicalBlock := 512
  table := { chars := "msdos".toList }
  model := { chars := "VBOX".toList }
  geometry := some {
    cylinders := 1044
    heads := 255
    sectors := 63
    cylSize := .decimal {
      whole := 8225
      unit := "kB".toList
      unit_start := ⟨'k', ['B'], rfl, rfl⟩ } }
  parts := [{
    num := 1
    partBegin := .chs 0 32 32
    partEnd := .chs 1044 84 58
    size := .chs 1044 52 26
    fstype := { chars := "ext4".toList }
    name := []
    flags := [{ chars := "boot".toList }, { chars := "lba".toList }] }]

theorem parse_chsDisk : parsePartitionInfo id chsDisk.output "KiB" =
    .ok (chsDisk.toDict id) :=
  parse_output chsDisk id "KiB" (by decide)

/-- What a text has between its first colon and the next one, or its end. -/
def betweenColons (text : List Char) : List Char :=
  ((text.dropWhile (· ≠ ':')).drop 1).takeWhile (· ≠ ':')

theorem ne_colon_of_not_mem {text : List Char} (hplain : ':' ∉ text) :
    ∀ c ∈ text, decide (c ≠ ':') = true := by
  intro c hc
  rw [decide_eq_true_eq]
  rintro rfl
  exact hplain hc

theorem betweenColons_append {given rest : List Char} (hgiven : ':' ∉ given) :
    betweenColons (given ++ ':' :: rest) = rest.takeWhile (· ≠ ':') := by
  unfold betweenColons
  rw [List.dropWhile_append_of_pos (ne_colon_of_not_mem hgiven),
    List.dropWhile_cons_of_neg (by simp)]
  rfl

theorem splitOn_eq_takeWhile_cons (text : List Char) :
    ∃ pieces, text.splitOn ':' = text.takeWhile (· ≠ ':') :: pieces := by
  by_cases hcolon : ':' ∈ text
  · obtain ⟨first, rest, rfl, hfirst⟩ := List.eq_append_cons_of_mem hcolon
    refine ⟨rest.splitOn ':', ?_⟩
    rw [List.splitOn_append_cons_self_of_not_mem hfirst,
      List.takeWhile_append_of_pos (ne_colon_of_not_mem hfirst),
      List.takeWhile_cons_of_neg (by simp), List.append_nil]
  · refine ⟨[], ?_⟩
    rw [List.splitOn_eq_singleton hcolon,
      List.takeWhile_eq_self_iff.mpr (ne_colon_of_not_mem hcolon)]

theorem flagsField_of_colon {part : PartEntry} (hcolon : ':' ∈ part.name) :
    part.flagsField = betweenColons part.name := by
  obtain ⟨given, rest, hname, hgiven⟩ := List.eq_append_cons_of_mem hcolon
  obtain ⟨pieces, hpieces⟩ := splitOn_eq_takeWhile_cons rest
  unfold PartEntry.flagsField
  rw [hname, betweenColons_append hgiven,
    List.splitOn_append_cons_self_of_not_mem hgiven, hpieces]

/-- Where the name of a partition holds a colon, the flags are read from what
the name has between this colon and the next, whatever flags are set. -/
theorem parse_output_colon (unit : String) (part : PartEntry)
    (hpart : part ∈ disk.parts) (hcolon : ':' ∈ part.name) :
    (∃ info, parsePartitionInfo float disk.output unit = .ok info ∧
      { part.toDict float disk.unit with
        flags := parseFlags (String.ofList (betweenColons part.name)) } ∈
          info.partitions) ∧
    ∀ flags, betweenColons part.name = flagsText flags →
      parseFlags (String.ofList (betweenColons part.name)) =
        flags.map fun flag => String.ofList flag.chars := by
  constructor
  · refine ⟨_, parse_output_eq disk float unit, ?_⟩
    apply List.mem_map.mpr
    refine ⟨part, hpart, ?_⟩
    unfold PartEntry.readDict
    rw [flagsField_of_colon hcolon]
  · intro flags hflags
    rw [hflags, parseFlags_flagsText]

/-- A partition `backup:boot, lvm:old` with no flag set. -/
def colonDisk : Disk :=
  { chsDisk with
    parts := [{
      num := 1
      partBegin := .chs 0 32 32
      partEnd := .chs 1044 84 58
      size := .chs 1044 52 26
      fstype := { chars := "ext4".toList }
      name := "backup:boot, lvm:old".toList
      flags := [] }] }

theorem parse_colonDisk : ∃ info,
    parsePartitionInfo id colonDisk.output "KiB" = .ok info ∧
      ∃ part ∈ info.partitions, part.flags = ["boot", "lvm"] := by
  obtain ⟨⟨info, hinfo, hpart⟩, hflags⟩ := parse_output_colon colonDisk id
    "KiB" _ List.mem_cons_self (by decide)
  exact ⟨info, hinfo, _, hpart,
    hflags [{ chars := "boot".toList }, { chars := "lvm".toList }] rfl⟩

end Output

end FreeipaProv.Parted
