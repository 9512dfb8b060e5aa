import FreeipaProv.Canonical

/-!
# The algebra of diffs

A diff can be applied to the item it was computed for.  In the states
`present` and `exact` this gives the item the task asks for, by the fewest
changes, and a second diff has nothing left to do.  In state `absent` the same
holds unless a scalar is to be reset that already has its default.
-/

namespace FreeipaProv

open Fallible

/-! ## The parameters a diff looks up -/

namespace ClientClass

variable (cls : ClientClass)

/-- The keys `compute_changes` reads `self.argument_spec` at. -/
def indexedKeys (state : State) (change curr : Dict String Val) :
    List String :=
  if state ≠ .absent then cls.scalarKeys state change curr
  else (cls.scalarSlice change).keys.filter fun key =>
    match cls.scalar change key with
    | some val => val.pyEq ((cls.scalar curr key).getD .none)
    | none => false

variable {cls} {state : State} {change curr : Dict String Val}

theorem newScalar_isOk_iff {key : String} :
    (∃ step, cls.newScalar change key = .ok step) ↔
      key ∈ cls.argumentSpec.keys := by
  rw [Dict.fst_mem_keys, newScalar]
  cases cls.argumentSpec.lookup key <;> simp

/-- The scalar part of a diff is computed exactly when every key it reads is
a parameter. -/
theorem scalarChanges_isOk_iff :
    (∃ scalars, cls.scalarChanges state change curr = .ok scalars) ↔
      ∀ key ∈ cls.indexedKeys state change curr,
        key ∈ cls.argumentSpec.keys := by
  have htraverse : ∀ (keys : List String)
      (f : String → Except Failure (Option Val)),
      (∃ scalars, Dict.traverseKeys keys f = .ok scalars) ↔
        ∀ key ∈ keys, ∃ step, f key = .ok step := by
    intro keys f
    simp only [Dict.traverseKeys_eq_ok_iff]
    constructor
    · rintro ⟨scalars, hsteps, -⟩
      exact hsteps
    · intro hsteps
      exact ⟨_, hsteps, rfl⟩
  by_cases hstate : state = .absent
  · rw [scalarChanges, if_neg (not_not_intro hstate), htraverse, indexedKeys,
      if_neg (not_not_intro hstate)]
    simp only [List.mem_filter]
    refine forall_congr' fun key => ?_
    constructor
    · rintro hsteps ⟨hkey, hequal⟩
      obtain ⟨step, hstep⟩ := hsteps hkey
      change (match cls.scalar change key with
        | some val => if val.pyEq ((cls.scalar curr key).getD .none) then
            cls.newScalar ∅ key else .ok none
        | none => .ok none) = _ at hstep
      cases hval : cls.scalar change key with
      | none => simp [hval] at hequal
      | some val =>
          simp only [hval] at hequal hstep
          rw [if_pos hequal] at hstep
          exact newScalar_isOk_iff.mp ⟨step, hstep⟩
    · intro hkeys hkey
      change ∃ step, (match cls.scalar change key with
        | some val => if val.pyEq ((cls.scalar curr key).getD .none) then
            cls.newScalar ∅ key else .ok none
        | none => .ok none) = .ok step
      cases hval : cls.scalar change key with
      | none => exact ⟨_, rfl⟩
      | some val =>
          simp only
          split
          · rename_i hequal
            apply newScalar_isOk_iff.mpr
            apply hkeys
            exact ⟨hkey, by rw [hval]; exact hequal⟩
          · exact ⟨_, rfl⟩
  · rw [scalarChanges, if_pos hstate, htraverse, indexedKeys, if_pos hstate]
    simp only [newScalar_isOk_iff]

/-- The lists of an item can be put in sets. -/
def HashableLists (cls : ClientClass) (item : Dict String Val) : Prop :=
  ∀ key val, (cls.listSlice item).lookup key = some val →
    ∃ vals, pySet val = .ok vals

theorem listChanges_isOk (state : State) (hchange : cls.HashableLists change)
    (hcurr : cls.HashableLists curr) :
    (∃ listAdd, cls.listAddChanges state change curr = .ok listAdd) ∧
      ∃ listDel, cls.listDelChanges state change curr = .ok listDel := by
  constructor
  · unfold listAddChanges
    split
    · exact op_isOk hchange hcurr
    · exact ⟨∅, rfl⟩
  · cases state with
    | exact => exact op_isOk hcurr hchange
    | absent => exact op_isOk hchange hcurr
    | present | enabled | disabled => exact ⟨∅, rfl⟩

/-- Between items with hashable lists, a diff is computed exactly when every
key it reads is a parameter. -/
theorem computeChanges_isOk_iff (hchange : cls.HashableLists change)
    (hcurr : cls.HashableLists curr) :
    (∃ changes, cls.computeChanges state change curr = .ok changes) ↔
      ∀ key ∈ cls.indexedKeys state change curr,
        key ∈ cls.argumentSpec.keys := by
  obtain ⟨⟨listAdd, hadd⟩, listDel, hdel⟩ :=
    listChanges_isOk state hchange hcurr
  rw [← scalarChanges_isOk_iff]
  constructor
  · rintro ⟨changes, hok⟩
    exact ⟨changes.scalars, (computeChanges_parts hok).2.2⟩
  · rintro ⟨scalars, hscalars⟩
    exact ⟨⟨scalars, listAdd, listDel⟩, by
      simp [computeChanges, hadd, hdel, hscalars]⟩

theorem indexedKeys_subset {key : String}
    (hkey : key ∈ cls.indexedKeys state change curr) :
    change.lookup key ≠ none ∨ curr.lookup key ≠ none := by
  have hlookup : ∀ {item : Dict String Val},
      (∃ val, cls.scalar item key = some val) → item.lookup key ≠ none := by
    rintro item ⟨val, hval⟩ hnone
    rw [scalar_eq_none hnone] at hval
    contradiction
  unfold indexedKeys at hkey
  split at hkey
  · rcases mem_scalarKeys.mp hkey with ⟨new, hnew, -⟩ | ⟨-, -, hold, -⟩
    · exact Or.inl (hlookup ⟨new, hnew⟩)
    · exact Or.inr (hlookup hold)
  · exact Or.inl (hlookup (mem_keys_scalarSlice.mp (List.mem_filter.mp hkey).1))

/-! ## Applying a diff -/

variable (cls)

/-- The item after the changes of a diff, `None` clearing a scalar. -/
def applyChanges (changes : Changes) (item : Dict String Val) :
    Dict String Val :=
  Dict.ofKeys cls.kwArgs.keys fun key =>
    if cls.paramType key = some .list then
      let vals := pyDifference (cls.members item key)
        ((changes.listDel.lookup key).getD []) ++
          (changes.listAdd.lookup key).getD []
      if vals.isEmpty then none else some (.list (vals.map .atom))
    else match changes.scalars.lookup key with
      | some .none => none
      | some val => some val
      | none => item.lookup key

variable {cls} {changes : Changes} {key : String}

theorem members_of_lookup {item : Dict String Val} {vals : List Atom}
    (htype : cls.paramType key = some .list)
    (hvals : item.lookup key = some (.list (vals.map .atom))) :
    cls.members item key = pyDedup vals := by
  have hset : pySet (.list (vals.map .atom)) = .ok (pyDedup vals) :=
    pySet_list_eq_ok_iff.mpr ⟨vals, rfl, rfl⟩
  rw [members, lookup_listSlice, if_pos htype, hvals, Option.getD_some, hset]

/-- The members of a list attribute after the changes. -/
theorem pyMem_members_applyChanges {item : Dict String Val}
    (htype : cls.paramType key = some .list) (a : Atom) :
    a.pyMem (cls.members (cls.applyChanges changes item) key) =
      ((a.pyMem (cls.members item key) &&
        !a.pyMem ((changes.listDel.lookup key).getD [])) ||
          a.pyMem ((changes.listAdd.lookup key).getD [])) := by
  rw [← pyMem_pyDifference, ← pyMem_append]
  have hlookup : (cls.applyChanges changes item).lookup key =
      if (pyDifference (cls.members item key)
        ((changes.listDel.lookup key).getD []) ++
          (changes.listAdd.lookup key).getD []).isEmpty then none
      else some (.list ((pyDifference (cls.members item key)
        ((changes.listDel.lookup key).getD []) ++
          (changes.listAdd.lookup key).getD []).map .atom)) := by
    rw [applyChanges, Dict.lookup_ofKeys, if_pos (mem_kwArgs_of_type htype),
      if_pos htype]
  generalize pyDifference (cls.members item key)
    ((changes.listDel.lookup key).getD []) ++
      (changes.listAdd.lookup key).getD [] = vals at hlookup ⊢
  cases vals with
  | nil => rw [members_eq_nil hlookup]
  | cons b bs => rw [members_of_lookup htype hlookup, pyMem_pyDedup]

theorem scalar_applyChanges {item : Dict String Val}
    (hkey : key ∈ cls.kwArgs.keys) (htype : cls.paramType key ≠ some .list) :
    cls.scalar (cls.applyChanges changes item) key =
      match changes.scalars.lookup key with
      | some .none => none
      | some val => some val
      | none => cls.scalar item key := by
  rw [scalar_eq, scalar_eq, if_neg htype, if_neg htype, applyChanges,
    Dict.lookup_ofKeys, if_pos hkey, if_neg htype]

theorem mem_kwArgs_of_applyChanges {item : Dict String Val}
    (hkey : key ∈ (cls.applyChanges changes item).keys) :
    key ∈ cls.kwArgs.keys := by
  obtain ⟨val, hval⟩ := Dict.fst_mem_keys.mp hkey
  rw [applyChanges, Dict.lookup_ofKeys] at hval
  by_contra hdeclared
  rw [if_neg hdeclared] at hval
  contradiction

theorem hashableLists_applyChanges (changes : Changes)
    (item : Dict String Val) :
    cls.HashableLists (cls.applyChanges changes item) := by
  intro key val hval
  rw [lookup_listSlice] at hval
  split_ifs at hval with htype
  rw [applyChanges, Dict.lookup_ofKeys, if_pos (mem_kwArgs_of_type htype),
    if_pos htype] at hval
  dsimp only at hval
  split_ifs at hval
  obtain rfl := Option.some.inj hval
  exact ⟨_, pySet_list_eq_ok_iff.mpr ⟨_, rfl, rfl⟩⟩

end ClientClass

/-- Python's equality of two results of `item.get(key)`. -/
def Val.pyEqOption : Option Val → Option Val → Bool
  | some a, some b => a.pyEq b
  | Option.none, Option.none => true
  | _, _ => false

/-- The diff has nothing under the key. -/
def Changes.Leaves (changes : Changes) (key : String) : Prop :=
  changes.listAdd.lookup key = none ∧ changes.listDel.lookup key = none ∧
    changes.scalars.lookup key = none

theorem nonempty_getD (vals : List Atom) : (nonempty vals).getD [] = vals := by
  cases vals <;> rfl

theorem pyDifference_eq_nil_iff {xs ys : List Atom} :
    pyDifference xs ys = [] ↔ ∀ a : Atom, a.pyMem xs = true →
      a.pyMem ys = true := by
  constructor
  · intro hnil a ha
    have hmem := pyMem_pyDifference a xs ys
    rw [hnil, ha, Bool.true_and] at hmem
    simpa [Atom.pyMem] using hmem
  · intro hsubset
    rw [pyDifference, List.filter_eq_nil_iff]
    intro a ha
    simpa using hsubset a (pyMem_of_mem ha)

theorem Atom.pyEq_none {a : Atom} (ha : a ≠ .none) :
    a.pyEq .none = false ∧ Atom.none.pyEq a = false := by
  cases a with
  | none => contradiction
  | bool | int | str => exact ⟨rfl, rfl⟩

namespace ClientClass

variable {cls : ClientClass} {state : State} {change curr : Dict String Val}
  {changes : Changes} {key : String}

/-- The members of a list attribute after the diff. -/
theorem pyMem_members_result
    (hok : cls.computeChanges state change curr = .ok changes) (a : Atom) :
    a.pyMem (cls.members (cls.applyChanges changes curr) key) =
      match state with
      | .exact => a.pyMem (cls.members change key)
      | .absent =>
          a.pyMem (cls.members curr key) && !a.pyMem (cls.members change key)
      | _ => a.pyMem (cls.members curr key) || a.pyMem (cls.members change key)
      := by
  by_cases htype : cls.paramType key = some .list
  · rw [pyMem_members_applyChanges htype, lookup_listAdd hok,
      lookup_listDel hok, nonempty_getD, nonempty_getD, listAddValues]
    cases state with
    | exact =>
        simp only [listDelValues, reduceCtorEq, if_false, pyMem_pyDifference]
        cases a.pyMem (cls.members curr key) <;> simp
    | absent =>
        simp only [listDelValues, if_true, pyMem_pyIntersection]
        cases a.pyMem (cls.members curr key) <;> simp [Atom.pyMem]
    | present | enabled | disabled =>
        simp only [listDelValues, reduceCtorEq, if_false, pyMem_pyDifference]
        cases a.pyMem (cls.members curr key) <;> simp [Atom.pyMem]
  · simp only [members_eq_nil_of_scalar htype]
    cases state <;> simp [Atom.pyMem]

/-- The lists of the item are hashable, and its scalars are values other than
`None`. -/
structure Canonical (cls : ClientClass) (item : Dict String Val) : Prop where
  lists : cls.HashableLists item
  scalars : ∀ key val, cls.IsAttr key → cls.scalar item key = some val →
    ∃ a : Atom, val = .atom a ∧ a ≠ .none

/-- An item is canonical if each of its entries is. -/
theorem canonical_of_items {item : Dict String Val}
    (hitems : ∀ entry ∈ item.items,
      (cls.paramType entry.1 = some .list ∧
        ∃ atoms : List Atom, entry.2 = .list (atoms.map .atom)) ∨
      (cls.paramType entry.1 ≠ some .list ∧
        ∃ a : Atom, entry.2 = .atom a ∧ a ≠ .none)) : cls.Canonical item where
  lists := by
    intro key val hval
    rw [lookup_listSlice] at hval
    split_ifs at hval with htype
    rcases hitems _ (Dict.mem_items_iff.mpr hval) with
      ⟨-, atoms, rfl⟩ | ⟨hscalar, -⟩
    · exact ⟨_, pySet_list_eq_ok_iff.mpr ⟨atoms, rfl, rfl⟩⟩
    · exact absurd htype hscalar
  scalars := by
    intro key val _ hval
    rw [scalar_eq] at hval
    split_ifs at hval with htype
    rcases hitems _ (Dict.mem_items_iff.mpr hval) with ⟨hlist, -⟩ | ⟨-, hatom⟩
    · exact absurd hlist htype
    · exact hatom

theorem Canonical.pyEq_self {item : Dict String Val} {val : Val}
    (hitem : cls.Canonical item) (hkey : cls.IsAttr key)
    (hval : cls.scalar item key = some val) : val.pyEq val = true := by
  obtain ⟨a, rfl, -⟩ := hitem.scalars key val hkey hval
  rw [Val.pyEq_atom, Atom.pyEq_refl]

theorem Canonical.ne_none {item : Dict String Val} {val : Val}
    (hitem : cls.Canonical item) (hkey : cls.IsAttr key)
    (hval : cls.scalar item key = some val) : val ≠ .none := by
  obtain ⟨a, rfl, ha⟩ := hitem.scalars key val hkey hval
  simpa using ha

/-- State `exact` has put every default into the desired item. -/
def HasDefaults (cls : ClientClass) (item : Dict String Val) : Prop :=
  ∀ key, (cls.argumentSpec.lookup key).bind ArgSpec.default ≠ none →
    item.lookup key ≠ none

theorem hasDefaults_of_mungeModuleParams {m : AnsibleModule}
    (hok : cls.mungeModuleParams m = .ok change) (hstate : m.state = .exact) :
    cls.HasDefaults change := by
  intro key hdefault
  rw [lookup_mungeModuleParams hok, if_pos hstate]
  simp [Option.or_eq_none_iff, hdefault]

theorem scalar_of_lookup (htype : cls.paramType key ≠ some .list)
    (item : Dict String Val) : cls.scalar item key = item.lookup key := by
  rw [scalar_eq, if_neg htype]

/-- A scalar attribute after the diff. -/
theorem scalar_result (hstate : state ≠ .absent)
    (hchange : cls.Canonical change) (hcurr : cls.Canonical curr)
    (hdefaults : state = .exact → cls.HasDefaults change)
    (hok : cls.computeChanges state change curr = .ok changes)
    (hkey : cls.IsAttr key) :
    Val.pyEqOption (cls.scalar (cls.applyChanges changes curr) key)
      (if state = .exact then cls.scalar change key
        else (cls.scalar change key).or (cls.scalar curr key)) = true := by
  obtain ⟨type, htype⟩ := Option.ne_none_iff_exists'.mp hkey.1
  by_cases hlist : cls.paramType key = some .list
  · have hnone : ∀ item : Dict String Val, cls.scalar item key = none := by
      intro item
      rw [scalar_eq, if_pos hlist]
    rw [hnone, hnone, hnone]
    simp [Val.pyEqOption]
  · rw [scalar_applyChanges (mem_kwArgs_of_type htype) hlist,
      lookup_scalars hstate hok]
    cases hnew : cls.scalar change key with
    | some new =>
        have hset := hchange.ne_none hkey hnew
        have hself := hchange.pyEq_self hkey hnew
        cases hold : cls.scalar curr key with
        | some old =>
            by_cases heq : new.pyEq old = true
            · obtain ⟨a, rfl, -⟩ := hchange.scalars key new hkey hnew
              obtain ⟨b, rfl, -⟩ := hcurr.scalars key old hkey hold
              have hsymm : b.pyEq a = true := by
                rw [Atom.pyEq_comm]
                simpa using heq
              simp [heq, Val.pyEqOption, hsymm]
            · simp [heq, Val.pyEqOption, hself]
        | none => simp [Val.pyEqOption, hself]
    | none =>
        cases hold : cls.scalar curr key with
        | some old =>
            have hself := hcurr.pyEq_self hkey hold
            by_cases hexact : state = .exact
            · have hmissing : change.lookup key = none := by
                rw [← scalar_of_lookup hlist]
                exact hnew
              have hdefault :
                  (cls.argumentSpec.lookup key).bind ArgSpec.default = none := by
                by_contra hdefault
                exact hdefaults hexact key hdefault hmissing
              simp [hexact, hdefault, hmissing, Val.pyEqOption]
            · simp [hexact, Val.pyEqOption, hself]
        | none => simp [Val.pyEqOption]

/-- Where the current item already has what is desired, a diff has nothing. -/
theorem leaves_of_settled (hstate : state ≠ .absent)
    (hok : cls.computeChanges state change curr = .ok changes)
    (hadd : ∀ a : Atom, a.pyMem (cls.members change key) = true →
      a.pyMem (cls.members curr key) = true)
    (hdel : state = .exact → ∀ a : Atom,
      a.pyMem (cls.members curr key) = true →
        a.pyMem (cls.members change key) = true)
    (hset : ∀ new, cls.scalar change key = some new →
      Val.pyEqOption (some new) (cls.scalar curr key) = true)
    (hclear : state = .exact → cls.scalar change key = none →
      cls.scalar curr key = none) : changes.Leaves key := by
  refine ⟨?_, ?_, ?_⟩
  · rw [lookup_listAdd hok, nonempty_eq_none_iff, listAddValues,
      if_neg hstate]
    exact pyDifference_eq_nil_iff.mpr hadd
  · rw [lookup_listDel hok, nonempty_eq_none_iff]
    cases state with
    | exact => exact pyDifference_eq_nil_iff.mpr (hdel rfl)
    | absent => contradiction
    | present | enabled | disabled => rfl
  · rw [lookup_scalars hstate hok]
    cases hnew : cls.scalar change key with
    | some new =>
        have hsame := hset new hnew
        cases hold : cls.scalar curr key with
        | some old =>
            have heq : new.pyEq old = true := by
              simpa [hold, Val.pyEqOption] using hsame
            simp [heq]
        | none => simp [hold, Val.pyEqOption] at hsame
    | none =>
        cases hold : cls.scalar curr key with
        | some old =>
            have hexact : ¬state = .exact := by
              intro hexact
              rw [hclear hexact hnew] at hold
              contradiction
            simp [hexact]
        | none => rfl

/-- The diff has nothing superfluous under the key. -/
structure MinimalAt (cls : ClientClass) (change curr : Dict String Val)
    (changes : Changes) (key : String) : Prop where
  add : ∀ vals, changes.listAdd.lookup key = some vals → ∀ a ∈ vals,
    a ∈ cls.members change key ∧ a.pyMem (cls.members curr key) = false
  del : ∀ vals, changes.listDel.lookup key = some vals → ∀ a ∈ vals,
    a ∈ cls.members curr key ∧ a.pyMem (cls.members change key) = false
  disjoint : ∀ added removed, changes.listAdd.lookup key = some added →
    changes.listDel.lookup key = some removed → ∀ a ∈ added,
      a.pyMem removed = false
  scalars : ∀ val, changes.scalars.lookup key = some val →
    val.pyEq ((cls.scalar curr key).getD .none) = false

theorem minimalAt (hstate : state ≠ .absent) (hchange : cls.Canonical change)
    (hcurr : cls.Canonical curr)
    (hok : cls.computeChanges state change curr = .ok changes)
    (hkey : cls.IsAttr key) : cls.MinimalAt change curr changes key := by
  have hadd : ∀ vals, changes.listAdd.lookup key = some vals →
      pyDifference (cls.members change key) (cls.members curr key) = vals := by
    intro vals hvals
    rw [lookup_listAdd hok, nonempty_eq_some_iff, listAddValues,
      if_neg hstate] at hvals
    exact hvals.1
  have hdel : ∀ vals, changes.listDel.lookup key = some vals →
      pyDifference (cls.members curr key) (cls.members change key) = vals := by
    intro vals hvals
    rw [lookup_listDel hok, nonempty_eq_some_iff] at hvals
    cases state with
    | exact => exact hvals.1
    | absent => contradiction
    | present | enabled | disabled =>
        exact absurd rfl hvals.2
  constructor
  · rintro vals hvals a ha
    rw [← hadd vals hvals, pyDifference, List.mem_filter] at ha
    simpa using ha
  · rintro vals hvals a ha
    rw [← hdel vals hvals, pyDifference, List.mem_filter] at ha
    simpa using ha
  · rintro added removed hadded hremoved a ha
    rw [← hadd added hadded, pyDifference, List.mem_filter] at ha
    rw [← hdel removed hremoved, pyMem_pyDifference]
    simp [pyMem_of_mem ha.1]
  · intro val hval
    have hnone : ∀ {item : Dict String Val} {val' : Val},
        cls.Canonical item → cls.scalar item key = some val' →
        val'.pyEq .none = false ∧ Val.pyEq .none val' = false := by
      intro item val' hitem hval'
      obtain ⟨a, rfl, ha⟩ := hitem.scalars key val' hkey hval'
      exact ⟨(Val.pyEq_atom ..).trans (Atom.pyEq_none ha).1,
        (Val.pyEq_atom ..).trans (Atom.pyEq_none ha).2⟩
    rw [lookup_scalars hstate hok] at hval
    cases hnew : cls.scalar change key with
    | some new =>
        cases hold : cls.scalar curr key with
        | some old =>
            simp only [hnew, hold, Option.ite_none_left_eq_some] at hval
            obtain ⟨hne, hval⟩ := hval
            obtain rfl := Option.some.inj hval
            simpa using hne
        | none =>
            simp only [hnew, hold] at hval
            obtain rfl := Option.some.inj hval
            exact (hnone hchange hnew).1
    | none =>
        cases hold : cls.scalar curr key with
        | some old =>
            simp only [hnew, hold, Option.ite_none_right_eq_some] at hval
            have hlist : cls.paramType key ≠ some .list := by
              intro hlist
              rw [scalar_eq, if_pos hlist] at hold
              contradiction
            rw [← scalar_of_lookup hlist, hnew, Option.getD_none] at hval
            obtain rfl := Option.some.inj hval.2
            exact (hnone hcurr hold).2
        | none => simp [hnew, hold] at hval

/-- The item has declared attributes only. -/
def OnlyAttrs (cls : ClientClass) (item : Dict String Val) : Prop :=
  ∀ key ∈ item.keys, cls.IsAttr key

instance (item : Dict String Val) : Decidable (cls.OnlyAttrs item) :=
  inferInstanceAs (Decidable (∀ key ∈ item.keys, cls.IsAttr key))

theorem mem_argumentSpec_of_type {type : ParamType}
    (htype : cls.paramType key = some type) :
    key ∈ cls.argumentSpec.keys := by
  obtain ⟨spec, hspec, -⟩ := Option.map_eq_some_iff.mp htype
  exact Dict.fst_mem_keys.mpr ⟨spec, lookup_argumentSpec hspec⟩

/-- A cleaned value or a default is there for parameters only. -/
theorem mem_argumentSpec_of_cleanedAt {params : Dict String Val}
    (hkey : (if key ∈ cls.paramKeys then none
        else cls.cleanedAt params key).or
      (if state = .exact then
        (cls.argumentSpec.lookup key).bind ArgSpec.default
      else none) ≠ none) : key ∈ cls.argumentSpec.keys := by
  rw [Dict.fst_mem_keys, ← Option.ne_none_iff_exists']
  intro hnone
  apply hkey
  rw [hnone, Option.bind_none, ite_self, Option.or_none, ite_eq_left_iff]
  intro _
  by_contra hval
  obtain ⟨val, hval⟩ := Option.ne_none_iff_exists'.mp hval
  obtain ⟨raw, type, -, htype, -⟩ := cleanedAt_eq_some hval
  obtain ⟨spec, hspec⟩ := Dict.fst_mem_keys.mp
    (mem_argumentSpec_of_type htype)
  rw [hspec] at hnone
  contradiction

theorem mem_argumentSpec_of_desired {m : AnsibleModule}
    (hok : cls.mungeModuleParams m = .ok change)
    (hkey : change.lookup key ≠ none) : key ∈ cls.argumentSpec.keys := by
  rw [lookup_mungeModuleParams hok] at hkey
  exact mem_argumentSpec_of_cleanedAt hkey

/-- Under the key, the item has the values of one item on top of those of
another. -/
def MergesAt (cls : ClientClass) (want base item : Dict String Val)
    (key : String) : Prop :=
  (∀ a : Atom, a.pyMem (cls.members item key) =
    (a.pyMem (cls.members base key) || a.pyMem (cls.members want key))) ∧
  Val.pyEqOption (cls.scalar item key)
    ((cls.scalar want key).or (cls.scalar base key)) = true

/-- Under the key, the item has exactly the values of another. -/
def AgreesAt (cls : ClientClass) (want item : Dict String Val)
    (key : String) : Prop :=
  (∀ a : Atom, a.pyMem (cls.members item key) =
    a.pyMem (cls.members want key)) ∧
  Val.pyEqOption (cls.scalar item key) (cls.scalar want key) = true

theorem mergesAt_result (hstate : state = .present)
    (hchange : cls.Canonical change) (hcurr : cls.Canonical curr)
    (hok : cls.computeChanges state change curr = .ok changes)
    (hkey : cls.IsAttr key) :
    cls.MergesAt change curr (cls.applyChanges changes curr) key := by
  subst hstate
  have hscalar := scalar_result (by simp) hchange hcurr (by simp) hok hkey
  exact ⟨pyMem_members_result hok, by simpa using hscalar⟩

theorem agreesAt_result (hstate : state = .exact)
    (hchange : cls.Canonical change) (hcurr : cls.Canonical curr)
    (hdefaults : cls.HasDefaults change)
    (hok : cls.computeChanges state change curr = .ok changes)
    (hkey : cls.IsAttr key) :
    cls.AgreesAt change (cls.applyChanges changes curr) key := by
  subst hstate
  have hscalar :=
    scalar_result (by simp) hchange hcurr (fun _ => hdefaults) hok hkey
  exact ⟨pyMem_members_result hok, by simpa using hscalar⟩

/-- After the diff, another diff has nothing left to do. -/
theorem leaves_of_result (hstate : state = .present ∨ state = .exact)
    (hchange : cls.Canonical change) (hcurr : cls.Canonical curr)
    (hdefaults : state = .exact → cls.HasDefaults change)
    (hok : cls.computeChanges state change curr = .ok changes)
    {again : Changes} (hagain : cls.computeChanges state change
      (cls.applyChanges changes curr) = .ok again)
    (hkey : cls.IsAttr key) : again.Leaves key := by
  have hpresent := State.ne_absent hstate
  have hresult := @pyMem_members_result cls state change curr changes key hok
  have hscalar := scalar_result hpresent hchange hcurr hdefaults hok hkey
  apply leaves_of_settled hpresent hagain
  · intro a ha
    rw [hresult]
    rcases hstate with rfl | rfl <;> simp [ha]
  · rintro rfl a ha
    rwa [hresult] at ha
  · intro new hnew
    obtain ⟨a, rfl, -⟩ := hchange.scalars key new hkey hnew
    have hsame : Val.pyEqOption
        (cls.scalar (cls.applyChanges changes curr) key)
        (some (.atom a)) = true := by
      rcases hstate with rfl | rfl <;> simpa [hnew] using hscalar
    cases hval : cls.scalar (cls.applyChanges changes curr) key with
    | none => simp [hval, Val.pyEqOption] at hsame
    | some val =>
        rw [hval] at hsame
        cases val with
        | atom b =>
            change (Val.atom b).pyEq (.atom a) = true at hsame
            change (Val.atom a).pyEq (.atom b) = true
            rwa [Val.pyEq_atom, Atom.pyEq_comm, ← Val.pyEq_atom]
        | list vs => simp [Val.pyEqOption, Val.pyEq] at hsame
        | dict es => simp [Val.pyEqOption, Val.pyEq] at hsame
  · rintro rfl hnone
    rw [if_pos rfl, hnone] at hscalar
    cases hval : cls.scalar (cls.applyChanges changes curr) key with
    | none => rfl
    | some val => simp [hval, Val.pyEqOption] at hscalar

/-- In the states `present` and `exact`, a diff between canonical items is
minimal, applying it gives the desired item (in state `present`, on top of the
current one), and then a second diff has nothing left to do. -/
theorem computeChanges_algebra {m : AnsibleModule}
    (hstate : m.state = .present ∨ m.state = .exact)
    (hmunge : cls.mungeModuleParams m = .ok change)
    (hchange : cls.Canonical change) (hcurr : cls.Canonical curr)
    (hattrs : cls.OnlyAttrs curr) :
    ∃ changes, cls.computeChanges m.state change curr = .ok changes ∧
      (∀ key, cls.IsAttr key → cls.MinimalAt change curr changes key) ∧
      (m.state = .present → ∀ key, cls.IsAttr key →
        cls.MergesAt change curr (cls.applyChanges changes curr) key) ∧
      (m.state = .exact → ∀ key, cls.IsAttr key →
        cls.AgreesAt change (cls.applyChanges changes curr) key) ∧
      ∃ again, cls.computeChanges m.state change
          (cls.applyChanges changes curr) = .ok again ∧
        ∀ key, cls.IsAttr key → again.Leaves key := by
  have hpresent := State.ne_absent hstate
  have hdefaults : m.state = .exact → cls.HasDefaults change :=
    hasDefaults_of_mungeModuleParams hmunge
  have hdiff : ∀ item, cls.HashableLists item →
      (∀ key ∈ item.keys, key ∈ cls.argumentSpec.keys) →
      ∃ changes, cls.computeChanges m.state change item = .ok changes := by
    intro item hlists hkeys
    refine (computeChanges_isOk_iff hchange.lists hlists).mpr
      fun key hindexed => ?_
    rcases indexedKeys_subset hindexed with hkey | hkey
    · exact mem_argumentSpec_of_desired hmunge hkey
    · exact hkeys key (Dict.fst_mem_keys.mpr
        (Option.ne_none_iff_exists'.mp hkey))
  obtain ⟨changes, hok⟩ := hdiff curr hcurr.lists fun key hkey =>
    have ⟨type, htype⟩ := Option.ne_none_iff_exists'.mp (hattrs key hkey).1
    mem_argumentSpec_of_type htype
  obtain ⟨again, hagain⟩ := hdiff (cls.applyChanges changes curr)
    (hashableLists_applyChanges changes curr) fun key hkey => by
      obtain ⟨spec, hspec⟩ := Dict.fst_mem_keys.mp
        (mem_kwArgs_of_applyChanges hkey)
      exact Dict.fst_mem_keys.mpr ⟨spec, lookup_argumentSpec hspec⟩
  exact ⟨changes, hok, fun key hkey => minimalAt hpresent hchange hcurr hok hkey,
    fun hstate key hkey => mergesAt_result hstate hchange hcurr hok hkey,
    fun hstate key hkey =>
      agreesAt_result hstate hchange hcurr (hdefaults hstate) hok hkey,
    again, hagain, fun key hkey =>
      leaves_of_result hstate hchange hcurr hdefaults hok hagain hkey⟩

end ClientClass

/-- A group that is to have exactly one member. -/
def editorsExact : AnsibleModule :=
  groupClass.ansibleModule {
    given := Dict.ofList
      [("cn", .str "editors"), ("description", .str "Editors"),
       ("member_user", .list [.str "pinky"])]
    state := .exact }

/-- The group as it is. -/
def editorsItem : Dict String Val := Dict.ofList
  [("gidnumber", .int 1205), ("description", .str "Writers"),
   ("member_user", .list [.str "pinky", .str "brain"])]

theorem editorsExact_algebra :
    ∃ change changes, groupClass.mungeModuleParams editorsExact = .ok change ∧
      groupClass.computeChanges .exact change editorsItem = .ok changes ∧
      ∀ key, groupClass.IsAttr key → groupClass.AgreesAt change
        (groupClass.applyChanges changes editorsItem) key := by
  have hmunge : ∃ change,
      groupClass.mungeModuleParams editorsExact = .ok change ∧
      change.items =
        [("description", .str "Editors"), ("member_user", .list [.str "pinky"]),
         ("state", .str "present"), ("ipa_prot", .str "https"),
         ("ipa_host", .str "ipa.example.com"), ("ipa_port", .int 443),
         ("ipa_user", .str "admin"), ("validate_certs", .bool true)] :=
    ⟨_, rfl, rfl⟩
  obtain ⟨change, hmunge, hitems⟩ := hmunge
  have hchange : groupClass.Canonical change := by
    apply ClientClass.canonical_of_items
    rw [hitems]
    intro entry hentry
    simp only [List.mem_cons, List.not_mem_nil, or_false] at hentry
    rcases hentry with rfl | rfl | rfl | rfl | rfl | rfl | rfl | rfl
    · exact Or.inr ⟨by decide, _, rfl, by decide⟩
    · exact Or.inl ⟨by decide, [.str "pinky"], rfl⟩
    all_goals exact Or.inr ⟨by decide, _, rfl, by decide⟩
  have hcurr : groupClass.Canonical editorsItem := by
    apply ClientClass.canonical_of_items
    rw [editorsItem, Dict.items_ofList]
    intro entry hentry
    simp only [List.mem_cons, List.not_mem_nil, or_false] at hentry
    rcases hentry with rfl | rfl | rfl
    · exact Or.inr ⟨by decide, _, rfl, by decide⟩
    · exact Or.inr ⟨by decide, _, rfl, by decide⟩
    · exact Or.inl ⟨by decide, [.str "pinky", .str "brain"], rfl⟩
  obtain ⟨changes, hok, -, -, hexact, -⟩ :=
    ClientClass.computeChanges_algebra (Or.inr rfl) hmunge hchange hcurr
      (by decide)
  exact ⟨change, changes, hmunge, hok, hexact rfl⟩

namespace ClientClass

variable {cls : ClientClass} {state : State} {change curr : Dict String Val}
  {changes : Changes} {key : String}

/-! ## State `absent` -/

theorem pyEq_atom_eq_true {val : Val} {a : Atom}
    (heq : val.pyEq (.atom a) = true) :
    ∃ b : Atom, val = .atom b ∧ b.pyEq a = true := by
  cases val with
  | atom b => exact ⟨b, rfl, by simpa using heq⟩
  | list vs => simp [Val.pyEq] at heq
  | dict es => simp [Val.pyEq] at heq

theorem pyEq_of_atom_eq_true {val : Val} {a : Atom}
    (heq : (Val.atom a).pyEq val = true) :
    ∃ b : Atom, val = .atom b ∧ a.pyEq b = true := by
  cases val with
  | atom b => exact ⟨b, rfl, by simpa using heq⟩
  | list vs => simp [Val.pyEq] at heq
  | dict es => simp [Val.pyEq] at heq

/-- The declared default of a parameter. -/
def defaultOf (cls : ClientClass) (key : String) : Option Val :=
  (cls.argumentSpec.lookup key).bind ArgSpec.default

/-- No scalar that both items have is to be reset to the value it has. -/
def NoDefaultShared (cls : ClientClass) (change curr : Dict String Val) :
    Prop :=
  ∀ key val, cls.IsAttr key → cls.scalar change key = some val →
    Val.pyEqOption (some val) (cls.scalar curr key) = true →
    Val.pyEqOption (some val) (cls.defaultOf key) = false

/-- A diff in state `absent` removes what both items have, changes every
scalar it sets, and leaves nothing to a second diff. -/
def AbsentLaw (cls : ClientClass) (change curr : Dict String Val) : Prop :=
  ∃ changes, cls.computeChanges .absent change curr = .ok changes ∧
    (∀ key, cls.IsAttr key → changes.listAdd.lookup key = none ∧
      (∀ a : Atom, a.pyMem ((changes.listDel.lookup key).getD []) =
        (a.pyMem (cls.members change key) &&
          a.pyMem (cls.members curr key))) ∧
      ∀ val, changes.scalars.lookup key = some val →
        val.pyEq ((cls.scalar curr key).getD .none) = false) ∧
    ∃ again, cls.computeChanges .absent change
        (cls.applyChanges changes curr) = .ok again ∧
      ∀ key, cls.IsAttr key → again.Leaves key

/-- The scalar part of a diff in state `absent`. -/
theorem lookup_scalars_absent_eq (hchange : cls.Canonical change)
    (hkey : cls.IsAttr key)
    (hok : cls.computeChanges .absent change curr = .ok changes) :
    changes.scalars.lookup key =
      (cls.scalar change key).bind fun val =>
        if Val.pyEqOption (some val) (cls.scalar curr key) then
          some ((cls.defaultOf key).getD .none)
        else none := by
  rw [lookup_scalars_absent hok]
  cases hval : cls.scalar change key with
  | none => rfl
  | some val =>
      obtain ⟨a, rfl, ha⟩ := hchange.scalars key val hkey hval
      cases hold : cls.scalar curr key with
      | none =>
          have hne := (Atom.pyEq_none ha).1
          simp [Val.pyEqOption, hne]
      | some old => rfl

/-- A scalar after a diff in state `absent` is no longer the one the task
gives, unless that is its default. -/
theorem scalar_result_absent (hchange : cls.Canonical change)
    (hkey : cls.IsAttr key)
    (hok : cls.computeChanges .absent change curr = .ok changes)
    (hshared : cls.NoDefaultShared change curr) {val : Val}
    (hval : cls.scalar change key = some val) :
    Val.pyEqOption (some val)
      (cls.scalar (cls.applyChanges changes curr) key) = false := by
  obtain ⟨type, htype⟩ := Option.ne_none_iff_exists'.mp hkey.1
  have hlist : cls.paramType key ≠ some .list := by
    intro hlist
    rw [scalar_eq, if_pos hlist] at hval
    contradiction
  rw [scalar_applyChanges (mem_kwArgs_of_type htype) hlist,
    lookup_scalars_absent_eq hchange hkey hok, hval, Option.bind_some]
  by_cases hsame : Val.pyEqOption (some val) (cls.scalar curr key) = true
  · rw [if_pos hsame]
    have hdefault := hshared key val hkey hval hsame
    cases hspec : cls.defaultOf key with
    | none => rfl
    | some default =>
        rw [hspec] at hdefault
        by_cases hnone : default = .none
        · subst hnone
          rfl
        · simpa [hnone] using hdefault
  · rw [if_neg hsame]
    simpa using hsame

theorem scalar_changes_absent (hchange : cls.Canonical change)
    (hcurr : cls.Canonical curr) (hkey : cls.IsAttr key)
    (hok : cls.computeChanges .absent change curr = .ok changes)
    (hshared : cls.NoDefaultShared change curr) {val : Val}
    (hval : changes.scalars.lookup key = some val) :
    val.pyEq ((cls.scalar curr key).getD .none) = false := by
  rw [lookup_scalars_absent_eq hchange hkey hok, Option.bind_eq_some_iff]
    at hval
  obtain ⟨given, hgiven, hval⟩ := hval
  obtain ⟨hsame, hval⟩ := Option.ite_none_right_eq_some.mp hval
  obtain rfl := Option.some.inj hval
  have hdefault := hshared key given hkey hgiven hsame
  cases hold : cls.scalar curr key with
  | none => simp [hold, Val.pyEqOption] at hsame
  | some old =>
      obtain ⟨a, rfl, -⟩ := hchange.scalars key given hkey hgiven
      obtain ⟨b, rfl, hb⟩ := hcurr.scalars key old hkey hold
      have hab : a.pyEq b = true := by
        simpa [hold, Val.pyEqOption] using hsame
      rw [Option.getD_some]
      cases hspec : cls.defaultOf key with
      | none => exact (Val.pyEq_atom ..).trans (Atom.pyEq_none hb).2
      | some default =>
          -- a default equal to the old value is equal to the given one
          by_contra heq
          obtain ⟨c, rfl, hcb⟩ :=
            pyEq_atom_eq_true (Bool.not_eq_false _ ▸ heq)
          have hac : a.pyEq c = true := by
            rw [Atom.pyEq_comm] at hcb
            exact Atom.pyEq_trans hab hcb
          simp [hspec, Val.pyEqOption, hac] at hdefault

/-- Between canonical items, a diff in state `absent` follows its law exactly
when no scalar that both items have has its default there. -/
theorem absentLaw_iff (hchange : cls.Canonical change)
    (hcurr : cls.Canonical curr) (hattrs : cls.OnlyAttrs change) :
    cls.AbsentLaw change curr ↔ cls.NoDefaultShared change curr := by
  constructor
  · rintro ⟨changes, hok, hminimal, -⟩ key val hkey hval hsame
    obtain ⟨a, rfl, -⟩ := hchange.scalars key val hkey hval
    by_contra hdefault
    rw [Bool.not_eq_false] at hdefault
    cases hspec : cls.defaultOf key with
    | none => simp [hspec, Val.pyEqOption] at hdefault
    | some default =>
        cases hold : cls.scalar curr key with
        | none => simp [hold, Val.pyEqOption] at hsame
        | some old =>
            rw [hspec] at hdefault
            rw [hold] at hsame
            obtain ⟨b, rfl, hab⟩ := pyEq_of_atom_eq_true hdefault
            obtain ⟨c, rfl, hac⟩ := pyEq_of_atom_eq_true hsame
            have hentry : changes.scalars.lookup key = some (.atom b) := by
              rw [lookup_scalars_absent_eq hchange hkey hok, hval,
                Option.bind_some, hold, if_pos hsame, hspec, Option.getD_some]
            have hchanged := (hminimal key hkey).2.2 _ hentry
            have hbc : b.pyEq c = true := by
              rw [Atom.pyEq_comm] at hab
              exact Atom.pyEq_trans hab hac
            simp [hold, hbc] at hchanged
  · intro hshared
    have hdiff : ∀ item, cls.HashableLists item →
        ∃ changes, cls.computeChanges .absent change item = .ok changes := by
      intro item hlists
      refine (computeChanges_isOk_iff hchange.lists hlists).mpr
        fun key hindexed => ?_
      have hkey := mem_keys_scalarSlice.mp (List.mem_filter.mp hindexed).1
      obtain ⟨val, hval⟩ := hkey
      have hlookup : change.lookup key ≠ none := by
        intro hnone
        rw [scalar_eq_none hnone] at hval
        contradiction
      obtain ⟨type, htype⟩ := Option.ne_none_iff_exists'.mp (hattrs key
        (Dict.fst_mem_keys.mpr (Option.ne_none_iff_exists'.mp hlookup))).1
      exact mem_argumentSpec_of_type htype
    obtain ⟨changes, hok⟩ := hdiff curr hcurr.lists
    obtain ⟨again, hagain⟩ := hdiff (cls.applyChanges changes curr)
      (hashableLists_applyChanges changes curr)
    refine ⟨changes, hok, fun key hkey => ⟨?_, ?_, ?_⟩, again, hagain,
      fun key hkey => ⟨?_, ?_, ?_⟩⟩
    · rw [lookup_listAdd hok]
      rfl
    · intro a
      rw [lookup_listDel hok, nonempty_getD, listDelValues,
        pyMem_pyIntersection]
    · intro val hval
      exact scalar_changes_absent hchange hcurr hkey hok hshared hval
    · rw [lookup_listAdd hagain]
      rfl
    · rw [lookup_listDel hagain, nonempty_eq_none_iff, listDelValues,
        pyIntersection, List.filter_eq_nil_iff]
      intro a ha
      rw [pyMem_members_result hok]
      simp [pyMem_of_mem ha]
    · rw [lookup_scalars_absent_eq hchange hkey hagain]
      cases hval : cls.scalar change key with
      | none => rfl
      | some val =>
          rw [Option.bind_some, scalar_result_absent hchange hkey hok hshared
            hval]
          rfl

end ClientClass

/-- A service that may, or may not, be trusted for delegation. -/
def delegateItem (delegate : Bool) : Dict String Val :=
  Dict.ofList [("ipakrbokasdelegate", .bool delegate)] (by simp)

theorem delegateItem_canonical (delegate : Bool) :
    serviceClass.Canonical (delegateItem delegate) := by
  have htype :
      serviceClass.paramType "ipakrbokasdelegate" ≠ some .list := by decide
  apply ClientClass.canonical_of_items
  rw [delegateItem, Dict.items_ofList]
  intro entry hentry
  obtain rfl := List.mem_singleton.mp hentry
  exact Or.inr ⟨htype, _, rfl, by simp⟩

/-- A flag that already has its default is set to it again and again. -/
theorem delegateItem_not_absentLaw :
    ¬∀ (cls : ClientClass) (change curr : Dict String Val),
      cls.Canonical change → cls.Canonical curr → cls.OnlyAttrs change →
      cls.OnlyAttrs curr → cls.AbsentLaw change curr := by
  intro hlaw
  have habsent := hlaw serviceClass (delegateItem false) (delegateItem false)
    (delegateItem_canonical false) (delegateItem_canonical false)
    (by decide) (by decide)
  obtain ⟨changes, hok, hminimal, -⟩ := habsent
  have hentry : ∃ changes', serviceClass.computeChanges .absent
      (delegateItem false) (delegateItem false) = .ok changes' ∧
      changes'.scalars.lookup "ipakrbokasdelegate" = some (.bool false) :=
    ⟨_, rfl, rfl⟩
  obtain ⟨changes', hok', hentry⟩ := hentry
  obtain rfl := Except.ok.inj (hok.symm.trans hok')
  have hchanged := (hminimal "ipakrbokasdelegate" (by decide)).2.2 _ hentry
  contradiction

theorem delegateItem_absentLaw_iff :
    serviceClass.AbsentLaw (delegateItem true) (delegateItem true) ↔
      serviceClass.NoDefaultShared (delegateItem true) (delegateItem true) :=
  ClientClass.absentLaw_iff (delegateItem_canonical true)
    (delegateItem_canonical true) (by decide)

end FreeipaProv
