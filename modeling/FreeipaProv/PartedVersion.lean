import FreeipaProv.PartedFormat

/-!
# The version of `parted`

The expression that reads the version takes as much as it can before the
numbers, so it takes the first numbers of the version too.
-/

namespace FreeipaProv.Parted

open Fallible Fields Framing

/-! ## Reading a version -/

theorem versionHere_of_not_mem {text : List Char} (hpoint : '.' ∉ text) :
    versionHere text = none := by
  unfold versionHere
  rw [List.splitOn_eq_singleton hpoint]

theorem versionHere_point {text : List Char} (hpoint : '.' ∉ text) :
    versionHere ('.' :: text) = none := by
  have hsplit : ('.' :: text).splitOn '.' = [[], text] := by
    have happend : ([] ++ '.' :: text).splitOn '.' = [] :: text.splitOn '.' :=
      List.splitOn_append_cons_self_of_not_mem List.not_mem_nil text
    rw [List.splitOn_eq_singleton hpoint] at happend
    exact happend
  unfold versionHere
  rw [hsplit]
  dsimp only
  rw [if_neg (by simp)]

/-- The digits of a number. -/
def IsNumber (part : List Char) : Prop :=
  part ≠ [] ∧ part.all Char.isDigit = true

theorem isNumber_digits (n : ℕ) : IsNumber (digits n) :=
  ⟨digits_ne_nil n, List.all_eq_true.mpr fun _ hc => mem_digits hc⟩

theorem IsNumber.no_point {part : List Char} (hpart : IsNumber part) :
    '.' ∉ part := by
  intro hmem
  exact absurd (List.all_eq_true.mp hpart.2 '.' hmem) (by decide)

theorem versionHere_two {major minor : List Char} (hmajor : IsNumber major)
    (hminor : IsNumber minor) :
    versionHere (major ++ '.' :: minor) =
      some (digitsValue major, digitsValue minor, 0) := by
  unfold versionHere
  rw [List.splitOn_append_cons_self_of_not_mem hmajor.no_point,
    List.splitOn_eq_singleton hminor.no_point]
  dsimp only
  rw [if_pos (by simp [hmajor.1, hmajor.2, hminor.1, hminor.2])]

theorem versionHere_three {major minor rev : List Char}
    (hmajor : IsNumber major) (hminor : IsNumber minor)
    (hrev : IsNumber rev) :
    versionHere (major ++ '.' :: (minor ++ '.' :: rev)) =
      some (digitsValue major, digitsValue minor, digitsValue rev) := by
  unfold versionHere
  rw [List.splitOn_append_cons_self_of_not_mem hmajor.no_point,
    List.splitOn_append_cons_self_of_not_mem hminor.no_point,
    List.splitOn_eq_singleton hrev.no_point]
  dsimp only
  rw [if_pos (by simp [hmajor.1, hmajor.2, hminor.1, hminor.2, hrev.1, hrev.2])]

/-- A number, and what is left of it before its last digit. -/
theorem digits_eq_append (n : ℕ) :
    ∃ before, digits n = before ++ [Nat.digitChar (n % 10)] := by
  by_cases hn : n < 10
  · refine ⟨[], ?_⟩
    rw [digits, Nat.toDigits_of_lt_base hn, Nat.mod_eq_of_lt hn]
    rfl
  · exact ⟨Nat.toDigits 10 (n / 10),
      Nat.toDigits_of_base_le (by decide) (Nat.le_of_not_lt hn)⟩

theorem digitsValue_digitChar {d : ℕ} (hd : d < 10) :
    digitsValue [Nat.digitChar d] = d := by
  have hdigits := digitsValue_toDigits d
  rw [Nat.toDigits_of_lt_base hd] at hdigits
  exact hdigits

/-- Of `major.minor` at the end, the last digit of the first number is
read. -/
theorem findSome?_versionHere (before : List Char) (major minor : ℕ) :
    (before ++ digits major ++ '.' :: digits minor).tails.reverse.findSome?
        versionHere = some (major % 10, minor, 0) := by
  have hpoint : '.' ∉ digits minor := digits_plain rfl
  have hminor : (digits minor).tails.reverse.findSome? versionHere =
      none := by
    rw [List.findSome?_eq_none_iff]
    intro suffix hsuffix
    rw [List.mem_reverse, List.mem_tails] at hsuffix
    apply versionHere_of_not_mem
    intro hmem
    exact hpoint (hsuffix.subset hmem)
  have hdigit : (Nat.digitChar (major % 10)).isDigit = true := by
    obtain ⟨front, hfront⟩ := digits_eq_append major
    apply mem_digits (n := major)
    rw [hfront]
    simp
  have hlast : ([Nat.digitChar (major % 10)] ++
      '.' :: digits minor).tails.reverse.findSome? versionHere =
        some (major % 10, minor, 0) := by
    rw [List.singleton_append, findSome?_tails_cons, findSome?_tails_cons,
      hminor, versionHere_point hpoint]
    have hread : versionHere
        ([Nat.digitChar (major % 10)] ++ '.' :: digits minor) = _ :=
      versionHere_two ⟨List.cons_ne_nil _ _, by simp [hdigit]⟩
        (isNumber_digits minor)
    rw [List.singleton_append, digitsValue_digitChar (Nat.mod_lt _ (by decide)),
      digits, digitsValue_toDigits] at hread
    exact hread
  obtain ⟨front, hfront⟩ := digits_eq_append major
  have hsplit : before ++ digits major ++ '.' :: digits minor =
      (before ++ front) ++
        ([Nat.digitChar (major % 10)] ++ '.' :: digits minor) := by
    rw [hfront]
    simp
  rw [hsplit]
  exact findSome?_tails_append versionHere hlast (before ++ front)

theorem digitsValue_lt_ten {c : Char} (hc : c.isDigit = true) :
    digitsValue [c] < 10 := by
  have hbound : c.toNat ≤ 57 := by
    rw [Char.isDigit, Bool.and_eq_true, decide_eq_true_eq,
      decide_eq_true_eq] at hc
    exact hc.2
  unfold digitsValue
  rw [Nat.ofDigitChars_cons, Nat.ofDigitChars_nil]
  have hzero : '0'.toNat = 48 := rfl
  omega

/-- A version that is read starts with a number, in whose place any other
number could stand. -/
theorem versionHere_eq_some {text : List Char} {major minor rev : ℕ}
    (hversion : versionHere text = some (major, minor, rev)) :
    ∃ first rest, text = first ++ '.' :: rest ∧ IsNumber first ∧
      major = digitsValue first ∧
      (∀ other, IsNumber other → versionHere (other ++ '.' :: rest) ≠ none) ∧
      (rev ≠ 0 → versionHere rest ≠ none) := by
  have htext : ['.'].intercalate (text.splitOn '.') = text :=
    List.intercalate_splitOn '.'
  unfold versionHere at hversion
  split at hversion
  · next first minor' hsplit =>
      rw [hsplit, List.intercalate_cons_cons, List.intercalate_singleton]
        at htext
      split_ifs at hversion with hall
      simp only [List.all_cons, List.all_nil, Bool.and_true, Bool.and_eq_true,
        decide_eq_true_eq] at hall
      simp only [Option.some.injEq, Prod.mk.injEq] at hversion
      refine ⟨first, minor', by simpa using htext.symm, hall.1,
        hversion.1.symm, ?_, ?_⟩
      · intro other hother
        rw [versionHere_two hother hall.2]
        exact Option.some_ne_none _
      · intro hrev
        exact absurd hversion.2.2.symm hrev
  · next first minor' rev' hsplit =>
      rw [hsplit, List.intercalate_cons_cons, List.intercalate_cons_cons,
        List.intercalate_singleton] at htext
      split_ifs at hversion with hall
      simp only [List.all_cons, List.all_nil, Bool.and_true, Bool.and_eq_true,
        decide_eq_true_eq] at hall
      simp only [Option.some.injEq, Prod.mk.injEq] at hversion
      refine ⟨first, minor' ++ '.' :: rev', by simpa using htext.symm, hall.1,
        hversion.1.symm, ?_, ?_⟩
      · intro other hother
        rw [versionHere_three hother hall.2.1 hall.2.2]
        exact Option.some_ne_none _
      · intro _
        rw [versionHere_two hall.2.1 hall.2.2]
        exact Option.some_ne_none _
  · contradiction

theorem findSome?_versionHere_bound {text : List Char} {major minor rev : ℕ}
    (hversion : text.tails.reverse.findSome? versionHere =
      some (major, minor, rev)) : major < 10 ∧ rev = 0 := by
  induction text with
  | nil =>
      have hnone : versionHere [] = none :=
        versionHere_of_not_mem List.not_mem_nil
      simp [hnone] at hversion
  | cons c cs ih =>
      rw [findSome?_tails_cons] at hversion
      cases hrest : cs.tails.reverse.findSome? versionHere with
      | some version =>
          rw [hrest, Option.some_or] at hversion
          exact ih (hrest.trans hversion)
      | none =>
          -- no shorter suffix is a version, so nothing can be left out here
          rw [hrest, Option.none_or] at hversion
          have hnone : ∀ suffix, suffix <:+ cs → versionHere suffix = none :=
            fun suffix => read_of_findSome?_tails versionHere hrest
          obtain ⟨first, rest, htext, hfirst, rfl, hother, hrev⟩ :=
            versionHere_eq_some hversion
          obtain ⟨d, first', rfl⟩ := List.exists_cons_of_ne_nil hfirst.1
          obtain ⟨rfl, rfl⟩ := List.cons.inj htext
          have hdigits : c.isDigit = true ∧ first'.all Char.isDigit = true := by
            simpa using hfirst.2
          constructor
          · have hempty : first' = [] := by
              by_contra hne
              exact hother first' ⟨hne, hdigits.2⟩
                (hnone _ (List.suffix_refl _))
            rw [hempty]
            exact digitsValue_lt_ten hdigits.1
          · by_contra hne
            apply hrev hne
            apply hnone
            exact ⟨first' ++ ['.'], by simp⟩

/-- The first number that is read has one digit, and a revision never is
read. -/
theorem versionOf_bound {line : List Char} {major minor rev : ℕ}
    (hversion : versionOf line = some (major, minor, rev)) :
    major < 10 ∧ rev = 0 := by
  unfold versionOf at hversion
  split_ifs at hversion
  exact findSome?_versionHere_bound hversion

/-! ## Releases -/

/-- A release of `parted`. -/
structure Release where
  major : ℕ
  minor : ℕ
  rev : Option ℕ := none

namespace Release

variable (release : Release)

def text : List Char :=
  digits release.major ++ '.' :: digits release.minor ++
    match release.rev with
    | none => []
    | some rev => '.' :: digits rev

/-- What `parted --version` prints first. -/
def banner : List Char :=
  "parted (GNU parted) ".toList ++ release.text

/-- What the module takes for the major and the minor number. -/
def readAs : ℕ × ℕ :=
  match release.rev with
  | none => (release.major % 10, release.minor)
  | some rev => (release.minor % 10, rev)

theorem versionOf_banner : versionOf release.banner =
    some (release.readAs.1, release.readAs.2, 0) := by
  have hlength : "parted".length = 6 := by decide +kernel
  have hstart : "parted".toList <+: release.banner := by
    unfold banner
    simp
  have hdrop : release.banner.drop ("parted".length + 1) =
      "(GNU parted) ".toList ++ release.text := by
    unfold banner
    simp [hlength]
  unfold versionOf
  rw [if_pos hstart, hdrop]
  unfold text readAs
  cases release.rev with
  | none =>
      rw [List.append_nil, ← List.append_assoc]
      exact findSome?_versionHere _ release.major release.minor
  | some rev =>
      have hread := findSome?_versionHere ("(GNU parted) ".toList ++
        digits release.major ++ ['.']) release.minor rev
      simpa using hread

/-- Nothing in a banner ends its line. -/
theorem banner_plain : '\n' ∉ release.banner ∧
    release.banner.all Char.isWhitespace = false := by
  have htext : '\n' ∉ release.text := by
    unfold text
    cases release.rev with
    | none => simp [digits_plain (c := '\n') rfl]
    | some rev => simp [digits_plain (c := '\n') rfl]
  constructor
  · intro hmem
    rcases List.mem_append.mp hmem with hmem | hmem
    · exact absurd hmem (by decide +kernel)
    · exact htext hmem
  · unfold banner
    simp

end Release

section Shell

variable {σ : Type} (shell : Shell σ) (d : σ)

theorem versionOf_of_partedVersion {version : ℕ × ℕ × ℕ}
    (hversion : shell.partedVersion d = .ok version) :
    ∃ line, versionOf line = some version := by
  unfold Shell.partedVersion at hversion
  dsimp only at hversion
  split_ifs at hversion
  split at hversion
  · contradiction
  · next line rest hlines =>
      split at hversion
      · next version' hline =>
          obtain rfl := Except.ok.inj hversion
          exact ⟨line, hline⟩
      · contradiction

theorem partedVersion_of_banner {release : Release} {rest : List Char}
    (hrc : (shell.query d .version).rc = 0)
    (hout : (shell.query d .version).out =
      String.ofList (release.banner ++ '\n' :: rest)) :
    shell.partedVersion d = .ok (release.readAs.1, release.readAs.2, 0) := by
  obtain ⟨hnewline, hblank⟩ := release.banner_plain
  have hlines : ∃ others, outputLines (shell.query d .version).out =
      release.banner :: others := by
    unfold outputLines
    rw [hout, String.toList_ofList,
      List.splitOn_append_cons_self_of_not_mem hnewline,
      List.filter_cons_of_pos (by rw [hblank]; rfl)]
    exact ⟨_, rfl⟩
  obtain ⟨others, hlines⟩ := hlines
  unfold Shell.partedVersion
  dsimp only
  rw [if_neg (by simp [hrc]), hlines]
  dsimp only
  rw [release.versionOf_banner]

/-- Whatever `parted` prints, the module takes a single digit for the major
number and never sees a revision: of a release it reads the last digit of the
last number but one, and the last number.  By these it decides whether it asks
for a missing label. -/
theorem partedVersion_reads :
    (∀ major minor rev, shell.partedVersion d = .ok (major, minor, rev) →
        major < 10 ∧ rev = 0) ∧
      ∀ (release : Release) (rest : List Char) (device : String),
        (shell.query d .version).rc = 0 →
        (shell.query d .version).out =
          String.ofList (release.banner ++ '\n' :: rest) →
        shell.partedVersion d = .ok (release.readAs.1, release.readAs.2, 0) ∧
          shell.checkPartedLabel d device =
            .ok (¬(release.readAs.1 = 3 ∧ 1 ≤ release.readAs.2 ∨
                3 < release.readAs.1) &&
              ((shell.query d (.label device)).rc ≠ 0 &&
                containsText (pyLower (shell.query d (.label device)).out)
                  "unrecognised disk label")) := by
  constructor
  · intro major minor rev hversion
    obtain ⟨line, hline⟩ := versionOf_of_partedVersion shell d hversion
    exact versionOf_bound hline
  · intro release rest device hrc hout
    have hversion := partedVersion_of_banner shell d hrc hout
    constructor
    · exact hversion
    · unfold Shell.checkPartedLabel
      rw [hversion, ok_bind]
      dsimp only
      split_ifs with hmodern
      · simp [hmodern]
      · simp [hmodern]

/-- Release 1.8.3 and a device without a label. -/
def oldShell : Shell Unit where
  partedExec := "/sbin/parted"
  query _ query :=
    match query with
    | .version => {
        rc := 0
        out := String.ofList
          (({ major := 1, minor := 8, rev := some 3 } : Release).banner ++
            ['\n']) }
    | _ => { rc := 1, out := "Error: Unrecognised disk label" }
  execute _ _ _ _ := ({ rc := 1, out := "" }, ())
  readRecord _ _ := none

theorem oldShell_version :
    oldShell.partedVersion () = .ok (8, 3, 0) ∧
      oldShell.checkPartedLabel () "/dev/sda" = .ok false :=
  (partedVersion_reads oldShell ()).2
    { major := 1, minor := 8, rev := some 3 } [] "/dev/sda" rfl rfl

end Shell

end FreeipaProv.Parted
