import FreeipaProv.Lib.Fallible
import FreeipaProv.Schema

/-!
# The diff between a task and an object

`compute_changes` compares the canonical module parameters with the canonical
find reply: list attributes as sets, scalar attributes by equality.  The
lemmas give the outcome attribute by attribute.
-/

namespace FreeipaProv

open Fallible

/-- `self.diffs`. -/
structure Changes where
  scalars : Dict String Val
  listAdd : Dict String (List Atom)
  listDel : Dict String (List Atom)

namespace ClientClass

variable (cls : ClientClass)

/-- `get_slice(params)['list']`. -/
def listSlice (params : Dict String Val) : Dict String Val :=
  params.filterMap fun key val =>
    if cls.paramType key = some .list then some val else none

/-- `get_slice(params)['scalar']`. -/
def scalarSlice (params : Dict String Val) : Dict String Val :=
  params.filterMap fun key val =>
    if cls.paramType key = some .list then none else some val

end ClientClass

/-- `op`: one set operation under every key of `a` or `b`, without the keys
where nothing is left. -/
def op (setOp : List Atom → List Atom → List Atom) (a b : Dict String Val) :
    Except Failure (Dict String (List Atom)) :=
  Dict.traverseKeys (a.keys ++ b.keys) fun key => do
    let aVals ← pySet ((a.lookup key).getD (.list []))
    let bVals ← pySet ((b.lookup key).getD (.list []))
    let resVal := setOp aVals bVals
    .ok (if resVal.isEmpty then none else some resVal)

namespace ClientClass

variable (cls : ClientClass)

/-- `change_params.get(k, self.argument_spec[k].get('default', None))`. -/
def newScalar (change : Dict String Val) (key : String) :
    Except Failure (Option Val) :=
  match cls.argumentSpec.lookup key with
  | none => .error (.keyError key)
  | some spec =>
      .ok (some ((change.lookup key).getD (spec.default.getD .none)))

/-- The scalar keys that differ, in the states other than `absent`. -/
def scalarKeys (state : State) (change curr : Dict String Val) :
    List String :=
  let changeScalar := cls.scalarSlice change
  let currScalar := cls.scalarSlice curr
  -- New scalar keys
  (changeScalar.keys.filter fun key => key ∉ currScalar.keys) ++
  -- Changed scalar keys
  (changeScalar.keys.filter fun key =>
    match currScalar.lookup key, changeScalar.lookup key with
    | some old, some new => !new.pyEq old
    | _, _ => false) ++
  -- Deleted scalar keys
  (if state = .exact then
    currScalar.keys.filter fun key =>
      key ∉ changeScalar.keys ∧
        ((cls.argumentSpec.lookup key).bind ArgSpec.default).isNone
  else [])

/-- `changes['list_add']`: desired state minus current state. -/
def listAddChanges (state : State) (change curr : Dict String Val) :
    Except Failure (Dict String (List Atom)) :=
  if state ≠ .absent then
    op pyDifference (cls.listSlice change) (cls.listSlice curr)
  else .ok ∅

/-- `changes['list_del']`: current state minus desired state, or for `absent`
the desired state within the current state. -/
def listDelChanges (state : State) (change curr : Dict String Val) :
    Except Failure (Dict String (List Atom)) :=
  match state with
  | .exact => op pyDifference (cls.listSlice curr) (cls.listSlice change)
  | .absent => op pyIntersection (cls.listSlice change) (cls.listSlice curr)
  | _ => .ok ∅

/-- `changes['scalars']`. -/
def scalarChanges (state : State) (change curr : Dict String Val) :
    Except Failure (Dict String Val) :=
  if state ≠ .absent then
    Dict.traverseKeys (cls.scalarKeys state change curr) (cls.newScalar change)
  else
    Dict.traverseKeys (cls.scalarSlice change).keys fun key =>
      match (cls.scalarSlice change).lookup key with
      | some val =>
          if val.pyEq (((cls.scalarSlice curr).lookup key).getD .none) then
            cls.newScalar ∅ key
          else .ok none
      | none => .ok none

/-- `IPAClient.compute_changes`. -/
def computeChanges (state : State) (change curr : Dict String Val) :
    Except Failure Changes := do
  let listAdd ← cls.listAddChanges state change curr
  let listDel ← cls.listDelChanges state change curr
  let scalars ← cls.scalarChanges state change curr
  .ok { scalars, listAdd, listDel }

/-! ## The diff attribute by attribute -/

/-- The members of a list attribute, when its value can be put in a set. -/
def members (params : Dict String Val) (key : String) : List Atom :=
  match pySet (((cls.listSlice params).lookup key).getD (.list [])) with
  | .ok vals => vals
  | .error _ => []

/-- The value of a scalar attribute. -/
def scalar (params : Dict String Val) (key : String) : Option Val :=
  (cls.scalarSlice params).lookup key

theorem scalar_eq (params : Dict String Val) (key : String) :
    cls.scalar params key =
      if cls.paramType key = some .list then none else params.lookup key := by
  rw [scalar, scalarSlice, Dict.lookup_filterMap]
  split <;> cases params.lookup key <;> simp_all

theorem lookup_listSlice (params : Dict String Val) (key : String) :
    (cls.listSlice params).lookup key =
      if cls.paramType key = some .list then params.lookup key else none := by
  rw [listSlice, Dict.lookup_filterMap]
  split <;> cases params.lookup key <;> simp_all

end ClientClass

/-- A result list as `op` stores it. -/
def nonempty (vals : List Atom) : Option (List Atom) :=
  if vals.isEmpty then none else some vals

theorem nonempty_eq_some_iff {vals vals' : List Atom} :
    nonempty vals = some vals' ↔ vals = vals' ∧ vals ≠ [] := by
  unfold nonempty
  split <;> simp_all

theorem nonempty_eq_none_iff {vals : List Atom} :
    nonempty vals = none ↔ vals = [] := by
  unfold nonempty
  split <;> simp_all

/-- The list `op` reads under a key, as a set. -/
private def setAt (params : Dict String Val) (key : String) : List Atom :=
  match pySet ((params.lookup key).getD (.list [])) with
  | .ok vals => vals
  | .error _ => []

private theorem pySet_nil : pySet (.list []) = .ok [] := rfl

theorem lookup_op {setOp : List Atom → List Atom → List Atom}
    (hnil : setOp [] [] = []) {a b : Dict String Val}
    {result : Dict String (List Atom)} (hok : op setOp a b = .ok result)
    (key : String) :
    result.lookup key = nonempty (setOp (setAt a key) (setAt b key)) := by
  have hsteps := (Dict.traverseKeys_eq_ok_iff.mp hok).1
  rw [Dict.lookup_of_traverseKeys_eq_ok hok]
  by_cases hkey : key ∈ a.keys ++ b.keys
  · obtain ⟨step, hstep⟩ := hsteps key hkey
    obtain ⟨aVals, ha, hstep⟩ := bind_eq_ok_iff.mp hstep
    obtain ⟨bVals, hb, hstep⟩ := bind_eq_ok_iff.mp hstep
    simp [hkey, setAt, ha, hb, Dict.stepValue, nonempty]
  · have ha : a.lookup key = none :=
      AList.lookup_eq_none.mpr fun h =>
        hkey (List.mem_append_left _ (AList.mem_keys.mp h))
    have hb : b.lookup key = none :=
      AList.lookup_eq_none.mpr fun h =>
        hkey (List.mem_append_right _ (AList.mem_keys.mp h))
    simp [hkey, setAt, ha, hb, pySet_nil, hnil, nonempty]

theorem op_isOk {setOp : List Atom → List Atom → List Atom}
    {a b : Dict String Val}
    (ha : ∀ key val, a.lookup key = some val → ∃ vals, pySet val = .ok vals)
    (hb : ∀ key val, b.lookup key = some val → ∃ vals, pySet val = .ok vals) :
    ∃ result, op setOp a b = .ok result := by
  have hset : ∀ {params : Dict String Val},
      (∀ key val, params.lookup key = some val → ∃ vals, pySet val = .ok vals) →
      ∀ key, ∃ vals, pySet ((params.lookup key).getD (.list [])) = .ok vals := by
    intro params hparams key
    cases hval : params.lookup key with
    | none => exact ⟨[], pySet_nil⟩
    | some val => simpa using hparams key val hval
  have hsteps : ∀ key ∈ a.keys ++ b.keys, ∃ step, (do
      let aVals ← pySet ((a.lookup key).getD (.list []))
      let bVals ← pySet ((b.lookup key).getD (.list []))
      let resVal := setOp aVals bVals
      Except.ok (ε := Failure)
        (if resVal.isEmpty then none else some resVal)) = .ok step := by
    intro key _
    obtain ⟨aVals, haVals⟩ := hset ha key
    obtain ⟨bVals, hbVals⟩ := hset hb key
    simp [haVals, hbVals]
  exact ⟨_, Dict.traverseKeys_eq_ok_iff.mpr ⟨hsteps, rfl⟩⟩

/-- `op` reads every list of both sides. -/
theorem pySet_isOk_of_op {setOp : List Atom → List Atom → List Atom}
    {a b : Dict String Val} {result : Dict String (List Atom)}
    (hok : op setOp a b = .ok result) {key : String} {val : Val} :
    (a.lookup key = some val → ∃ vals, pySet val = .ok vals) ∧
      (b.lookup key = some val → ∃ vals, pySet val = .ok vals) := by
  have hsteps := (Dict.traverseKeys_eq_ok_iff.mp hok).1
  refine ⟨fun hval => ?_, fun hval => ?_⟩
  · have hkey : key ∈ a.keys ++ b.keys :=
      List.mem_append_left _ (Dict.fst_mem_keys.mpr ⟨val, hval⟩)
    obtain ⟨step, hstep⟩ := hsteps key hkey
    obtain ⟨aVals, ha, -⟩ := bind_eq_ok_iff.mp hstep
    exact ⟨aVals, by simpa [hval] using ha⟩
  · have hkey : key ∈ a.keys ++ b.keys :=
      List.mem_append_right _ (Dict.fst_mem_keys.mpr ⟨val, hval⟩)
    obtain ⟨step, hstep⟩ := hsteps key hkey
    obtain ⟨aVals, -, hstep⟩ := bind_eq_ok_iff.mp hstep
    obtain ⟨bVals, hb, -⟩ := bind_eq_ok_iff.mp hstep
    exact ⟨bVals, by simpa [hval] using hb⟩

@[simp] theorem pyDifference_nil (ys : List Atom) : pyDifference [] ys = [] :=
  rfl

@[simp] theorem pyIntersection_nil (ys : List Atom) :
    pyIntersection [] ys = [] := rfl

namespace ClientClass

variable {cls : ClientClass} {state : State} {change curr : Dict String Val}
  {changes : Changes}

theorem computeChanges_parts
    (hok : cls.computeChanges state change curr = .ok changes) :
    cls.listAddChanges state change curr = .ok changes.listAdd ∧
      cls.listDelChanges state change curr = .ok changes.listDel ∧
      cls.scalarChanges state change curr = .ok changes.scalars := by
  obtain ⟨listAdd, hadd, hok⟩ := bind_eq_ok_iff.mp hok
  obtain ⟨listDel, hdel, hok⟩ := bind_eq_ok_iff.mp hok
  obtain ⟨scalars, hscalars, hok⟩ := bind_eq_ok_iff.mp hok
  obtain rfl : Changes.mk scalars listAdd listDel = changes := by
    simpa using hok
  exact ⟨hadd, hdel, hscalars⟩

end ClientClass

/-- Values to add to a list attribute: desired minus current. -/
def listAddValues (state : State) (desired current : List Atom) : List Atom :=
  if state = .absent then [] else pyDifference desired current

/-- Values to remove from a list attribute: in state `exact` current minus
desired, in state `absent` desired and current. -/
def listDelValues (state : State) (desired current : List Atom) : List Atom :=
  match state with
  | .exact => pyDifference current desired
  | .absent => pyIntersection desired current
  | _ => []

namespace ClientClass

variable {cls : ClientClass} {state : State} {change curr : Dict String Val}
  {changes : Changes}

theorem lookup_listAdd
    (hok : cls.computeChanges state change curr = .ok changes) (key : String) :
    changes.listAdd.lookup key = nonempty (listAddValues state
      (cls.members change key) (cls.members curr key)) := by
  have hadd := (computeChanges_parts hok).1
  unfold listAddChanges at hadd
  by_cases hstate : state = .absent
  · rw [if_neg (not_not_intro hstate), Except.ok.injEq] at hadd
    simp [← hadd, hstate, listAddValues, nonempty]
  · rw [if_pos hstate] at hadd
    rw [listAddValues, if_neg hstate]
    exact lookup_op rfl hadd key

theorem lookup_listDel
    (hok : cls.computeChanges state change curr = .ok changes) (key : String) :
    changes.listDel.lookup key = nonempty (listDelValues state
      (cls.members change key) (cls.members curr key)) := by
  have hdel := (computeChanges_parts hok).2.1
  cases state with
  | exact => exact lookup_op rfl hdel key
  | absent => exact lookup_op rfl hdel key
  | present | enabled | disabled =>
      simp only [listDelChanges, Except.ok.injEq] at hdel
      simp [← hdel, listDelValues, nonempty]

theorem mem_keys_scalarSlice {params : Dict String Val} {key : String} :
    key ∈ (cls.scalarSlice params).keys ↔
      ∃ val, cls.scalar params key = some val :=
  Dict.fst_mem_keys

theorem mem_scalarKeys {key : String} :
    key ∈ cls.scalarKeys state change curr ↔
      (∃ new, cls.scalar change key = some new ∧
        ∀ old, cls.scalar curr key = some old → new.pyEq old = false) ∨
      (state = .exact ∧ cls.scalar change key = none ∧
        (∃ old, cls.scalar curr key = some old) ∧
        (cls.argumentSpec.lookup key).bind ArgSpec.default = none) := by
  unfold scalarKeys
  simp only [List.mem_append, List.mem_filter, decide_eq_true_eq,
    mem_keys_scalarSlice]
  change ((_ ∨ _ ∧ (match cls.scalar curr key, cls.scalar change key with
    | some old, some new => !new.pyEq old
    | _, _ => false) = true) ∨ _) ↔ _
  have hmem : ∀ (p : Prop) [Decidable p] (keys : List String),
      key ∈ (if p then keys else []) ↔ p ∧ key ∈ keys := by
    intro p _ keys
    split <;> simp_all
  rw [hmem, List.mem_filter, decide_eq_true_eq, mem_keys_scalarSlice,
    mem_keys_scalarSlice]
  cases cls.scalar change key <;> cases cls.scalar curr key <;>
    simp [Option.isNone_iff_eq_none]

/-- Outside state `absent`, a scalar of the task enters the diff unless the
object has an equal value; one the task lacks enters it, cleared, only in
state `exact` and only without a default. -/
theorem lookup_scalars (hstate : state ≠ .absent)
    (hok : cls.computeChanges state change curr = .ok changes) (key : String) :
    changes.scalars.lookup key =
      match cls.scalar change key, cls.scalar curr key with
      | some new, some old => if new.pyEq old then none else some new
      | some new, none => some new
      | none, some _ =>
          if state = .exact ∧
              (cls.argumentSpec.lookup key).bind ArgSpec.default = none then
            some ((change.lookup key).getD .none)
          else none
      | none, none => none := by
  have hscalars := (computeChanges_parts hok).2.2
  rw [scalarChanges, if_pos hstate] at hscalars
  have hsteps := (Dict.traverseKeys_eq_ok_iff.mp hscalars).1
  rw [Dict.lookup_of_traverseKeys_eq_ok hscalars]
  -- a key of the diff takes the task's value, else its default
  have hvalue : key ∈ cls.scalarKeys state change curr →
      Dict.stepValue (cls.newScalar change key) =
        some ((change.lookup key).getD
          (((cls.argumentSpec.lookup key).bind ArgSpec.default).getD .none)) := by
    intro hkey
    obtain ⟨step, hstep⟩ := hsteps key hkey
    unfold newScalar at hstep ⊢
    cases hspec : cls.argumentSpec.lookup key with
    | none => simp [hspec] at hstep
    | some spec => simp [Dict.stepValue]
  cases hnew : cls.scalar change key with
  | some new =>
      have hlookup : change.lookup key = some new := by
        rw [scalar_eq] at hnew
        split at hnew
        · contradiction
        · exact hnew
      cases hold : cls.scalar curr key with
      | some old =>
          by_cases heq : new.pyEq old = true
          · have hnot : key ∉ cls.scalarKeys state change curr := by
              rw [mem_scalarKeys]
              simp [hnew, hold, heq]
            simp [hnot, heq]
          · have hmem : key ∈ cls.scalarKeys state change curr := by
              rw [mem_scalarKeys]
              exact Or.inl ⟨new, hnew, by simpa [hold] using heq⟩
            simp [hmem, hvalue hmem, heq, hlookup]
      | none =>
          have hmem : key ∈ cls.scalarKeys state change curr := by
            rw [mem_scalarKeys]
            exact Or.inl ⟨new, hnew, by simp [hold]⟩
          simp [hmem, hvalue hmem, hlookup]
  | none =>
      cases hold : cls.scalar curr key with
      | some old =>
          by_cases hdel : state = .exact ∧
              (cls.argumentSpec.lookup key).bind ArgSpec.default = none
          · have hmem : key ∈ cls.scalarKeys state change curr := by
              rw [mem_scalarKeys]
              exact Or.inr ⟨hdel.1, hnew, ⟨old, hold⟩, hdel.2⟩
            rw [if_pos hmem, hvalue hmem, hdel.2]
            simp [hdel.1]
          · have hnot : key ∉ cls.scalarKeys state change curr := by
              rw [mem_scalarKeys]
              rintro (⟨new, hnew', -⟩ | ⟨hexact, -, -, hdefault⟩)
              · simp [hnew] at hnew'
              · exact hdel ⟨hexact, hdefault⟩
            simp only [if_neg hnot, if_neg hdel]
      | none =>
          have hnot : key ∉ cls.scalarKeys state change curr := by
            rw [mem_scalarKeys]
            simp [hnew, hold]
          simp [hnot]

/-- In state `absent`, a scalar of the task that the object has is reset to
its default. -/
theorem lookup_scalars_absent
    (hok : cls.computeChanges .absent change curr = .ok changes)
    (key : String) :
    changes.scalars.lookup key =
      (cls.scalar change key).bind fun val =>
        if val.pyEq ((cls.scalar curr key).getD .none) then
          some (((cls.argumentSpec.lookup key).bind ArgSpec.default).getD .none)
        else none := by
  have hscalars := (computeChanges_parts hok).2.2
  rw [scalarChanges, if_neg (by simp)] at hscalars
  have hsteps := (Dict.traverseKeys_eq_ok_iff.mp hscalars).1
  rw [Dict.lookup_of_traverseKeys_eq_ok hscalars]
  cases hval : cls.scalar change key with
  | none =>
      have hnot : key ∉ (cls.scalarSlice change).keys := by
        rw [mem_keys_scalarSlice]
        simp [hval]
      simp [hnot]
  | some val =>
      have hmem : key ∈ (cls.scalarSlice change).keys :=
        mem_keys_scalarSlice.mpr ⟨val, hval⟩
      obtain ⟨step, hstep⟩ := hsteps key hmem
      change (cls.scalarSlice change).lookup key = some val at hval
      simp only [hval] at hstep
      simp only [hmem, if_true, hval, Option.bind_some]
      change Dict.stepValue (if val.pyEq ((cls.scalar curr key).getD .none) then
        cls.newScalar ∅ key else .ok none) = _
      change (if val.pyEq ((cls.scalar curr key).getD .none) then
        cls.newScalar ∅ key else .ok none) = _ at hstep
      split
      · rename_i heq
        rw [if_pos heq] at hstep
        unfold newScalar at hstep ⊢
        cases hspec : cls.argumentSpec.lookup key with
        | none => simp [hspec] at hstep
        | some spec => simp [Dict.stepValue]
      · rfl

end ClientClass

end FreeipaProv
