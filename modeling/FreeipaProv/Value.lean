import Mathlib.Data.List.Sort
import Mathlib.Tactic

/-!
# Python values of the IPA modules

Module parameters and JSON replies reach the IPA clients as plain Python
values.  `Atom` has the hashable ones, which are also the only ones a Python
set can hold; `Val` adds lists and dictionaries.  The operations below are the
built-ins the clients apply to them, with Python 2's meaning.
-/

namespace FreeipaProv

/-- A Python exception that aborts the module, or a call of `fail_json` with
its message. -/
inductive Failure where
  | keyError (key : String)
  | indexError
  | valueError
  | typeError
  | attributeError
  | osError
  | failJson (msg : String)
  deriving DecidableEq, Repr

inductive Atom where
  | none
  | bool (b : Bool)
  | int (i : Int)
  | str (s : String)
  deriving DecidableEq, Repr

inductive Val where
  | atom (a : Atom)
  | list (vs : List Val)
  | dict (es : List (String × Val))

instance : Inhabited Val := ⟨.atom .none⟩

@[match_pattern] abbrev Val.none : Val := .atom .none
@[match_pattern] abbrev Val.bool (b : Bool) : Val := .atom (.bool b)
@[match_pattern] abbrev Val.int (i : Int) : Val := .atom (.int i)
@[match_pattern] abbrev Val.str (s : String) : Val := .atom (.str s)

/-! ## Equality -/

/-- Python compares booleans as the integers 0 and 1. -/
def Atom.norm : Atom → Atom
  | .bool b => .int (if b then 1 else 0)
  | a => a

def Atom.pyEq (a b : Atom) : Bool :=
  a.norm = b.norm

@[simp] theorem Atom.pyEq_refl (a : Atom) : a.pyEq a = true := by
  simp [Atom.pyEq]

theorem Atom.pyEq_comm (a b : Atom) : a.pyEq b = b.pyEq a := by
  simp only [Atom.pyEq, eq_comm]

theorem Atom.pyEq_trans {a b c : Atom}
    (hab : a.pyEq b = true) (hbc : b.pyEq c = true) : a.pyEq c = true := by
  simp only [Atom.pyEq, decide_eq_true_eq] at *
  exact hab.trans hbc

@[simp] theorem Atom.pyEq_str (s : String) (a : Atom) :
    (Atom.str s).pyEq a = decide (a = .str s) := by
  cases a <;> simp [Atom.pyEq, Atom.norm, eq_comm]

@[simp] theorem Atom.str_pyEq (s : String) (a : Atom) :
    a.pyEq (.str s) = decide (a = .str s) := by
  rw [Atom.pyEq_comm, Atom.pyEq_str]

mutual

/-- Python's `==`.  Dictionaries are equal when they have the same keys with
equal values, in any order. -/
def Val.pyEq : Val → Val → Bool
  | .atom a, .atom b => a.pyEq b
  | .list vs, .list ws => Val.pyEqList vs ws
  | .dict es, .dict fs => es.length == fs.length && Val.pyEqDict es fs
  | _, _ => false

def Val.pyEqList : List Val → List Val → Bool
  | [], [] => true
  | v :: vs, w :: ws => v.pyEq w && Val.pyEqList vs ws
  | _, _ => false

def Val.pyEqDict : List (String × Val) → List (String × Val) → Bool
  | [], _ => true
  | (key, v) :: es, fs =>
      (match fs.lookup key with
        | some w => v.pyEq w
        | Option.none => false) && Val.pyEqDict es fs

end

@[simp] theorem Val.pyEq_atom (a b : Atom) :
    (Val.atom a).pyEq (.atom b) = a.pyEq b := by
  simp [Val.pyEq]

theorem Val.pyEq_none {val : Val} (heq : val.pyEq .none = true) :
    val = .none := by
  cases val with
  | atom a => cases a <;> simp_all [Val.pyEq, Atom.pyEq, Atom.norm]
  | list vs => simp [Val.pyEq] at heq
  | dict es => simp [Val.pyEq] at heq

/-- `bool(val)`. -/
def Val.truthy : Val → Bool
  | .none => false
  | .bool b => b
  | .int i => i ≠ 0
  | .str s => s ≠ ""
  | .list vs => !vs.isEmpty
  | .dict es => !es.isEmpty

/-! ## Iteration and sets -/

/-- `list(val)`: strings are iterated by character, dictionaries by key. -/
def Val.iter : Val → Except Failure (List Val)
  | .list vs => .ok vs
  | .dict es => .ok (es.map fun entry => .str entry.1)
  | .str s => .ok (s.toList.map fun c => .str (String.ofList [c]))
  | _ => .error .typeError

/-- The members of a set are hashable; lists and dictionaries are not. -/
def hashAll : List Val → Option (List Atom)
  | [] => some []
  | .atom a :: vs => (hashAll vs).map (a :: ·)
  | _ :: _ => Option.none

/-- A list without the later of two equal members. -/
def pyDedup : List Atom → List Atom
  | [] => []
  | a :: as => a :: (pyDedup as).filter fun b => !a.pyEq b

/-- `set(val)`, as the list of its members. -/
def pySet (val : Val) : Except Failure (List Atom) := do
  let vs ← val.iter
  match hashAll vs with
  | some atoms => .ok (pyDedup atoms)
  | Option.none => .error .typeError

/-- `a in xs` for a member `a` and a list or set `xs`. -/
def Atom.pyMem (a : Atom) (xs : List Atom) : Bool :=
  xs.any fun b => a.pyEq b

/-- `xs.difference(ys)`. -/
def pyDifference (xs ys : List Atom) : List Atom :=
  xs.filter fun a => !a.pyMem ys

/-- `xs.intersection(ys)`. -/
def pyIntersection (xs ys : List Atom) : List Atom :=
  xs.filter fun a => a.pyMem ys

/-! ## Strings -/

/-- `"%s" % val`. -/
def Atom.pyStr : Atom → String
  | .none => "None"
  | .bool true => "True"
  | .bool false => "False"
  | .int i => toString i
  | .str s => s

/-- White space that `int()` ignores around a number. -/
def isBlankChar (c : Char) : Bool :=
  c = ' ' || c = '\t' || c = '\n' || c = '\r' || c = '\x0b' || c = '\x0c'

/-- The value of a nonempty list of decimal digits. -/
def pyDigits : List Char → Option Nat
  | [] => Option.none
  | cs =>
      if cs.all Char.isDigit then
        some (cs.foldl (fun n c => 10 * n + (c.toNat - '0'.toNat)) 0)
      else Option.none

/-- `int(s)`. -/
def pyInt (s : String) : Except Failure Int :=
  let stripped :=
    ((s.toList.dropWhile isBlankChar).reverse.dropWhile isBlankChar).reverse
  let parsed := match stripped with
    | '-' :: cs => (pyDigits cs).map fun n => -(n : Int)
    | '+' :: cs => (pyDigits cs).map fun n => (n : Int)
    | cs => (pyDigits cs).map fun n => (n : Int)
  match parsed with
  | some i => .ok i
  | Option.none => .error .valueError

/-- `s.lower()`, on the letters the clients compare with. -/
def pyLower (s : String) : String :=
  String.ofList (s.toList.map Char.toLower)

/-! ## Sorting -/

/-- The order `sort()` gives: none, then numbers, then strings. -/
def Atom.rank : Atom → Nat
  | .none => 0
  | .bool _ => 1
  | .int _ => 1
  | .str _ => 2

def Atom.number : Atom → Int
  | .bool b => if b then 1 else 0
  | .int i => i
  | _ => 0

def Atom.text : Atom → String
  | .str s => s
  | _ => ""

def Atom.pyLe (a b : Atom) : Prop :=
  a.rank < b.rank ∨ (a.rank = b.rank ∧
    (a.number < b.number ∨ (a.number = b.number ∧ a.text ≤ b.text)))

instance : DecidableRel Atom.pyLe := fun _ _ =>
  inferInstanceAs (Decidable (_ ∨ _))

/-- `sorted(xs)`. -/
def pySorted (xs : List Atom) : List Atom :=
  xs.insertionSort Atom.pyLe

/-- `sorted(xs)` on strings. -/
def pySortedStr (xs : List String) : List String :=
  xs.insertionSort (· ≤ ·)

theorem pySorted_perm (xs : List Atom) : (pySorted xs).Perm xs :=
  List.perm_insertionSort _ xs

theorem pySortedStr_perm (xs : List String) : (pySortedStr xs).Perm xs :=
  List.perm_insertionSort _ xs

/-! ## Members of sets -/

theorem hashAll_eq_some_iff {vs : List Val} {atoms : List Atom} :
    hashAll vs = some atoms ↔ vs = atoms.map .atom := by
  induction vs generalizing atoms with
  | nil => cases atoms <;> simp [hashAll]
  | cons v vs ih =>
      cases v with
      | atom a =>
          rw [hashAll, Option.map_eq_some_iff]
          cases atoms with
          | nil => simp
          | cons b bs => simp [ih, eq_comm, and_comm]
      | list ws => cases atoms <;> simp [hashAll]
      | dict es => cases atoms <;> simp [hashAll]

theorem pySet_list_eq_ok_iff {vs : List Val} {vals : List Atom} :
    pySet (.list vs) = .ok vals ↔
      ∃ atoms : List Atom, vs = atoms.map .atom ∧ pyDedup atoms = vals := by
  change (match hashAll vs with
    | some atoms => Except.ok (pyDedup atoms)
    | Option.none => Except.error Failure.typeError) = .ok vals ↔ _
  simp only [← hashAll_eq_some_iff]
  cases hashAll vs <;> simp

theorem mem_of_mem_pyDedup {a : Atom} {xs : List Atom}
    (hmem : a ∈ pyDedup xs) : a ∈ xs := by
  induction xs with
  | nil => simp [pyDedup] at hmem
  | cons x xs ih =>
      rcases List.mem_cons.mp hmem with rfl | htail
      · exact List.mem_cons_self
      · exact List.mem_cons_of_mem x (ih (List.mem_filter.mp htail).1)

@[simp] theorem pyMem_pyDedup (a : Atom) (xs : List Atom) :
    a.pyMem (pyDedup xs) = a.pyMem xs := by
  induction xs with
  | nil => rfl
  | cons x xs ih =>
      rw [Bool.eq_iff_iff]
      simp only [Atom.pyMem, pyDedup, List.any_cons, Bool.or_eq_true,
        List.any_eq_true, List.mem_filter, Bool.not_eq_true',
        Bool.eq_false_iff] at ih ⊢
      have hdedup : (∃ b ∈ pyDedup xs, a.pyEq b = true) ↔
          ∃ b ∈ xs, a.pyEq b = true := by
        rw [← List.any_eq_true, ← List.any_eq_true, ← Bool.eq_iff_iff]
        exact ih
      constructor
      · rintro (hx | ⟨b, ⟨hb, -⟩, hab⟩)
        · exact Or.inl hx
        · exact Or.inr (hdedup.mp ⟨b, hb, hab⟩)
      · rintro (hx | hxs)
        · exact Or.inl hx
        · obtain ⟨b, hb, hab⟩ := hdedup.mpr hxs
          by_cases hxb : x.pyEq b = true
          · left
            rw [Atom.pyEq_comm] at hxb
            exact Atom.pyEq_trans hab hxb
          · exact Or.inr ⟨b, ⟨hb, hxb⟩, hab⟩

theorem pyMem_of_mem {a : Atom} {xs : List Atom} (hmem : a ∈ xs) :
    a.pyMem xs = true :=
  List.any_eq_true.mpr ⟨a, hmem, Atom.pyEq_refl a⟩

@[simp] theorem pyMem_str (s : String) (xs : List Atom) :
    (Atom.str s).pyMem xs = decide (Atom.str s ∈ xs) := by
  rw [Bool.eq_iff_iff]
  simp [Atom.pyMem]

theorem pyMem_congr {a b : Atom} (heq : a.pyEq b = true) (xs : List Atom) :
    a.pyMem xs = b.pyMem xs := by
  have hnorm : a.norm = b.norm := by simpa [Atom.pyEq] using heq
  simp only [Atom.pyMem, Atom.pyEq, hnorm]

theorem pyMem_append (a : Atom) (xs ys : List Atom) :
    a.pyMem (xs ++ ys) = (a.pyMem xs || a.pyMem ys) := by
  simp [Atom.pyMem]

/-- Membership in the part of a set that a test on its members keeps. -/
theorem pyMem_filter {p : Atom → Bool}
    (hp : ∀ a b : Atom, a.pyEq b = true → p a = p b) (a : Atom)
    (xs : List Atom) : a.pyMem (xs.filter p) = (a.pyMem xs && p a) := by
  rw [Bool.eq_iff_iff]
  simp only [Atom.pyMem, List.any_eq_true, List.mem_filter,
    Bool.and_eq_true]
  constructor
  · rintro ⟨b, ⟨hb, hkeep⟩, heq⟩
    exact ⟨⟨b, hb, heq⟩, (hp a b heq).trans hkeep⟩
  · rintro ⟨⟨b, hb, heq⟩, hkeep⟩
    exact ⟨b, ⟨hb, (hp a b heq).symm.trans hkeep⟩, heq⟩

@[simp] theorem pyMem_pyDifference (a : Atom) (xs ys : List Atom) :
    a.pyMem (pyDifference xs ys) = (a.pyMem xs && !a.pyMem ys) := by
  apply pyMem_filter
  intro b c heq
  rw [pyMem_congr heq]

@[simp] theorem pyMem_pyIntersection (a : Atom) (xs ys : List Atom) :
    a.pyMem (pyIntersection xs ys) = (a.pyMem xs && a.pyMem ys) := by
  apply pyMem_filter
  intro b c heq
  rw [pyMem_congr heq]

theorem str_mem_pyDedup (s : String) (xs : List Atom) :
    Atom.str s ∈ pyDedup xs ↔ Atom.str s ∈ xs := by
  have hmem := pyMem_pyDedup (.str s) xs
  rwa [pyMem_str, pyMem_str, decide_eq_decide] at hmem

end FreeipaProv
