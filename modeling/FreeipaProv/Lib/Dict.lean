import Mathlib.Data.List.AList
import Mathlib.Tactic

/-!
# Keyed dictionaries

A dictionary is an association list whose keys are pairwise distinct, so
iterating over it visits every key once, in the order of the list.  On top of
Mathlib's `AList` this file has the operations with which programs build one
dictionary from another (comprehensions over the entries or over a list of
keys, with or without failing steps), and for each of them the value found
under a key of the result.
-/

/-- A dictionary with one type of values. -/
abbrev Dict (K V : Type) := AList fun _ : K => V

namespace Dict

variable {K V W ε : Type}

/-- The dictionary of a literal list of entries. -/
def ofList (entries : List (K × V))
    (hnodup : (entries.map Prod.fst).Nodup := by decide) : Dict K V where
  entries := entries.map fun entry => ⟨entry.1, entry.2⟩
  nodupKeys := by
    simpa [List.NodupKeys, List.keys, Function.comp_def] using hnodup

/-- The entries as pairs, in iteration order. -/
def items (dict : Dict K V) : List (K × V) :=
  dict.entries.map fun entry => (entry.1, entry.2)

def isEmpty (dict : Dict K V) : Bool :=
  dict.entries.isEmpty

/-- Keep the entries on which `f` is defined, with the value it gives. -/
def filterMap (f : K → V → Option W) (dict : Dict K V) : Dict K W where
  entries := dict.entries.filterMap fun entry =>
    (f entry.1 entry.2).map (Sigma.mk entry.1)
  nodupKeys := by
    refine List.Nodup.sublist (?_ : List.Sublist _ dict.entries.keys)
      dict.nodupKeys
    induction dict.entries with
    | nil => simp
    | cons entry rest ih =>
        cases hentry : f entry.1 entry.2 with
        | none =>
            simpa [List.keys, hentry] using ih.trans (List.sublist_cons_self _ _)
        | some value =>
            simpa [List.keys, hentry] using ih.cons_cons entry.1

/-! ## Entries of a dictionary -/

theorem fst_items_nodup (dict : Dict K V) :
    (dict.items.map Prod.fst).Nodup := by
  simpa [items, List.NodupKeys, List.keys, Function.comp_def] using
    dict.nodupKeys

theorem items_nodup (dict : Dict K V) : dict.items.Nodup :=
  dict.fst_items_nodup.of_map

@[simp] theorem items_empty : (∅ : Dict K V).items = [] := rfl

@[simp] theorem items_ofList (entries : List (K × V))
    (hnodup : (entries.map Prod.fst).Nodup) :
    (ofList entries hnodup).items = entries := by
  simp [items, ofList, Function.comp_def]

theorem items_filterMap (f : K → V → Option W) (dict : Dict K V) :
    (dict.filterMap f).items =
      dict.items.filterMap fun item => (f item.1 item.2).map (item.1, ·) := by
  simp only [items, filterMap, List.map_filterMap, List.filterMap_map]
  congr 1
  funext entry
  cases hentry : f entry.1 entry.2 <;> simp [hentry]

/-- Looking up a pair of a list without repeated keys. -/
theorem lookup_of_mem [DecidableEq K] {pairs : List (K × V)}
    (hnodup : (pairs.map Prod.fst).Nodup) {pair : K × V}
    (hpair : pair ∈ pairs) : pairs.lookup pair.1 = some pair.2 := by
  induction pairs with
  | nil => simp at hpair
  | cons head rest ih =>
      rw [List.map_cons, List.nodup_cons] at hnodup
      rcases List.mem_cons.mp hpair with rfl | hmem
      · exact List.lookup_cons_self
      · have hne : (pair.1 == head.1) = false := by
          rw [beq_eq_false_iff_ne]
          intro heq
          exact hnodup.1 (heq ▸ List.mem_map_of_mem hmem)
        rw [List.lookup_cons, hne, ih hnodup.2 hmem]

/-! ## Looking up keys -/

section Lookup

variable [DecidableEq K]

theorem mem_items_iff {dict : Dict K V} {key : K} {value : V} :
    (key, value) ∈ dict.items ↔ dict.lookup key = some value := by
  rw [← Option.mem_def, AList.mem_lookup_iff]
  simp [items]

theorem mem_of_lookup_ofList {entries : List (K × V)}
    {hnodup : (entries.map Prod.fst).Nodup} {key : K} {value : V}
    (hvalue : (ofList entries hnodup).lookup key = some value) :
    (key, value) ∈ entries := by
  rwa [← mem_items_iff, items_ofList] at hvalue

theorem fst_mem_keys {dict : Dict K V} {key : K} :
    key ∈ dict.keys ↔ ∃ value, dict.lookup key = some value := by
  rw [← AList.mem_keys, ← AList.lookup_isSome, Option.isSome_iff_exists]

theorem isEmpty_iff {dict : Dict K V} :
    dict.isEmpty = true ↔ ∀ key, dict.lookup key = none := by
  constructor
  · intro hempty key
    have hentries : dict.entries = [] := List.isEmpty_iff.mp hempty
    simp [AList.lookup, hentries]
  · intro hnone
    refine List.isEmpty_iff.mpr (List.eq_nil_iff_forall_not_mem.mpr ?_)
    intro entry hentry
    have hfound : entry.2 ∈ dict.lookup entry.1 :=
      AList.mem_lookup_iff.mpr hentry
    simp [hnone entry.1] at hfound

theorem isEmpty_eq_false_iff {dict : Dict K V} :
    dict.isEmpty = false ↔ ∃ key value, dict.lookup key = some value := by
  rw [← Bool.not_eq_true, isEmpty_iff]
  simp only [not_forall, ← ne_eq, Option.ne_none_iff_exists']

theorem lookup_union (dict other : Dict K V) (key : K) :
    (dict ∪ other).lookup key = (dict.lookup key).or (other.lookup key) := by
  cases hdict : dict.lookup key with
  | some value =>
      have hmem : key ∈ dict := by
        rw [← AList.lookup_isSome, hdict]
        rfl
      rw [AList.lookup_union_left hmem, hdict]
      rfl
  | none =>
      rw [AList.lookup_union_right (AList.lookup_eq_none.mp hdict)]
      rfl

@[simp] theorem lookup_filterMap (f : K → V → Option W) (dict : Dict K V)
    (key : K) :
    (dict.filterMap f).lookup key = (dict.lookup key).bind (f key) := by
  ext value
  rw [← Option.mem_def, AList.mem_lookup_iff]
  constructor
  · intro hmem
    obtain ⟨entry, hentry, hvalue⟩ := List.mem_filterMap.mp hmem
    obtain ⟨value', hf, heq⟩ := Option.map_eq_some_iff.mp hvalue
    obtain ⟨rfl, hval⟩ := Sigma.mk.inj_iff.mp heq
    obtain rfl := eq_of_heq hval
    have hfound : dict.lookup entry.1 = some entry.2 :=
      AList.mem_lookup_iff.mpr hentry
    simpa [hfound] using hf
  · intro hbind
    obtain ⟨old, hfound, hf⟩ := Option.bind_eq_some_iff.mp hbind
    refine List.mem_filterMap.mpr ⟨⟨key, old⟩, ?_, by simp [hf]⟩
    exact AList.mem_lookup_iff.mp hfound

theorem filterMap_eq_self {f : K → V → Option V} {dict : Dict K V}
    (hsame : ∀ key value, dict.lookup key = some value →
      f key value = some value) : dict.filterMap f = dict := by
  apply AList.ext
  change dict.entries.filterMap _ = dict.entries
  rw [List.filterMap_congr (g := some), List.filterMap_some]
  intro entry hentry
  have hlookup : dict.lookup entry.1 = some entry.2 := by
    rw [← mem_items_iff]
    exact List.mem_map.mpr ⟨entry, hentry, rfl⟩
  rw [hsame entry.1 entry.2 hlookup]
  rfl

/-- `{key: f key for key in keys}`, without the keys on which `f` is not
defined. -/
def ofKeys (keys : List K) (f : K → Option V) : Dict K V :=
  filterMap (fun key (_ : Unit) => f key)
    { entries := keys.dedup.map fun key => ⟨key, ()⟩
      nodupKeys := by
        simpa [List.NodupKeys, List.keys, Function.comp_def] using
          List.nodup_dedup keys }

@[simp] theorem lookup_ofKeys (keys : List K) (f : K → Option V) (key : K) :
    (ofKeys keys f).lookup key = if key ∈ keys then f key else none := by
  rw [ofKeys, lookup_filterMap]
  by_cases hkey : key ∈ keys
  · have hfound : AList.lookup key
        (⟨keys.dedup.map fun key => ⟨key, ()⟩, by
          simpa [List.NodupKeys, List.keys, Function.comp_def] using
            List.nodup_dedup keys⟩ : Dict K Unit) = some () :=
      AList.mem_lookup_iff.mpr (by simpa using hkey)
    simp [hkey, hfound]
  · have hnone : AList.lookup key
        (⟨keys.dedup.map fun key => ⟨key, ()⟩, by
          simpa [List.NodupKeys, List.keys, Function.comp_def] using
            List.nodup_dedup keys⟩ : Dict K Unit) = none := by
      rw [AList.lookup_eq_none, AList.mem_keys]
      simpa [AList.keys, List.keys, Function.comp_def] using hkey
    simp [hkey, hnone]

/-- `dict(pairs)` for pairs of which the first under a key counts. -/
def ofPairs (pairs : List (K × V)) : Dict K V :=
  ofKeys (pairs.map Prod.fst) fun key => pairs.lookup key

/-! ### Entries of a dictionary -/

theorem items_insert {dict : Dict K V} {key : K} (hkey : key ∉ dict)
    (value : V) :
    items (dict.insert key value) = (key, value) :: dict.items := by
  simp [items, AList.entries_insert_of_notMem hkey, -AList.entries_insert]

/-- Keeping the entries under some of the keys. -/
theorem items_filterMap_mem (keys : List K) (dict : Dict K V) :
    (dict.filterMap fun key value =>
      if key ∈ keys then some value else none).items =
      dict.items.filter fun item => item.1 ∈ keys := by
  rw [items_filterMap, ← List.filterMap_eq_filter]
  congr 1
  funext item
  by_cases hkey : item.1 ∈ keys <;> simp [hkey, Option.guard]

theorem items_ofKeys {keys : List K} (hnodup : keys.Nodup)
    (f : K → Option V) :
    (ofKeys keys f).items = keys.filterMap fun key => (f key).map (key, ·) := by
  rw [ofKeys, items_filterMap]
  simp only [items, hnodup.dedup, List.map_map, List.filterMap_map]
  rfl

@[simp] theorem ofPairs_items (dict : Dict K V) :
    ofPairs dict.items = dict := by
  have hitems : (ofPairs dict.items).items = dict.items := by
    rw [ofPairs, items_ofKeys dict.fst_items_nodup, List.filterMap_map]
    calc dict.items.filterMap
          ((fun key => (dict.items.lookup key).map (key, ·)) ∘ Prod.fst)
        = dict.items.filterMap some := by
          apply List.filterMap_congr
          intro item hitem
          simp [lookup_of_mem dict.fst_items_nodup hitem]
      _ = dict.items := List.filterMap_some
  apply AList.ext
  exact List.map_injective_iff.mpr (by
    intro entry other heq
    rw [Prod.mk.injEq] at heq
    exact Sigma.ext heq.1 (heq_of_eq heq.2)) hitems

/-- Reading a dictionary key by key gives the entries under these keys. -/
theorem flatMap_lookup_perm {keys : List K} (hnodup : keys.Nodup)
    (dict : Dict K V) :
    (keys.flatMap fun key => (dict.lookup key).toList.map (key, ·)).Perm
      (dict.items.filter fun item => item.1 ∈ keys) := by
  refine (List.perm_ext_iff_of_nodup ?_ (dict.items_nodup.filter _)).mpr ?_
  · refine List.nodup_flatMap.mpr ⟨fun key _ => ?_, ?_⟩
    · cases dict.lookup key <;> simp
    · refine hnodup.imp fun {key key'} hne => ?_
      rw [Function.onFun, List.disjoint_left]
      rintro ⟨key'', value⟩ hmem hmem'
      simp only [List.mem_map, Prod.mk.injEq] at hmem hmem'
      obtain ⟨-, -, rfl, -⟩ := hmem
      obtain ⟨-, -, rfl, -⟩ := hmem'
      exact hne rfl
  · rintro ⟨key, value⟩
    simp only [List.mem_flatMap, List.mem_map, Option.mem_toList,
      Prod.mk.injEq, List.mem_filter, mem_items_iff, decide_eq_true_eq]
    constructor
    · rintro ⟨key', hkey', value', hvalue, rfl, rfl⟩
      exact ⟨hvalue, hkey'⟩
    · rintro ⟨hvalue, hkey⟩
      exact ⟨key, hkey, value, hvalue, rfl, rfl⟩

end Lookup

/-! ## Comprehensions with steps that may fail -/

/-- What a step that does not fail gives. -/
def stepValue : Except ε (Option W) → Option W
  | .ok value => value
  | .error _ => none

/-- How a step fails, if it does. -/
def stepError : Except ε (Option W) → Option ε
  | .ok _ => none
  | .error err => some err

theorem stepError_eq_none_iff {step : Except ε (Option W)} :
    stepError step = none ↔ ∃ value, step = .ok value := by
  cases step <;> simp [stepError]

/-- `filterMap` with steps that may fail: the first failing step, in
iteration order, is the failure of the whole comprehension. -/
def traverse (f : K → V → Except ε (Option W)) (dict : Dict K V) :
    Except ε (Dict K W) :=
  match dict.items.findSome? fun item => stepError (f item.1 item.2) with
  | some err => .error err
  | none => .ok (dict.filterMap fun key value => stepValue (f key value))

/-- `ofKeys` with steps that may fail. -/
def traverseKeys [DecidableEq K] (keys : List K)
    (f : K → Except ε (Option V)) : Except ε (Dict K V) :=
  match keys.findSome? fun key => stepError (f key) with
  | some err => .error err
  | none => .ok (ofKeys keys fun key => stepValue (f key))

section Traverse

variable [DecidableEq K]

theorem traverse_eq_ok_iff {f : K → V → Except ε (Option W)}
    {dict : Dict K V} {result : Dict K W} :
    dict.traverse f = .ok result ↔
      (∀ key value, dict.lookup key = some value →
        ∃ step, f key value = .ok step) ∧
      result = dict.filterMap fun key value => stepValue (f key value) := by
  have hnone :
      (dict.items.findSome? fun item => stepError (f item.1 item.2)) = none ↔
        ∀ key value, dict.lookup key = some value →
          ∃ step, f key value = .ok step := by
    rw [List.findSome?_eq_none_iff]
    simp only [stepError_eq_none_iff, Prod.forall, mem_items_iff]
  rw [← hnone]
  unfold traverse
  cases hfind :
      dict.items.findSome? fun item => stepError (f item.1 item.2) with
  | none => simp [eq_comm]
  | some err => simp

theorem traverse_isOk_iff {f : K → V → Except ε (Option W)}
    {dict : Dict K V} :
    (∃ result, dict.traverse f = .ok result) ↔
      ∀ key value, dict.lookup key = some value →
        ∃ step, f key value = .ok step := by
  simp [traverse_eq_ok_iff]

theorem lookup_of_traverse_eq_ok {f : K → V → Except ε (Option W)}
    {dict : Dict K V} {result : Dict K W}
    (hok : dict.traverse f = .ok result) (key : K) :
    result.lookup key =
      (dict.lookup key).bind fun value => stepValue (f key value) := by
  obtain ⟨-, rfl⟩ := traverse_eq_ok_iff.mp hok
  simp

theorem traverseKeys_eq_ok_iff {keys : List K}
    {f : K → Except ε (Option V)} {result : Dict K V} :
    traverseKeys keys f = .ok result ↔
      (∀ key ∈ keys, ∃ step, f key = .ok step) ∧
      result = ofKeys keys fun key => stepValue (f key) := by
  have hnone :
      (keys.findSome? fun key => stepError (f key)) = none ↔
        ∀ key ∈ keys, ∃ step, f key = .ok step := by
    rw [List.findSome?_eq_none_iff]
    simp only [stepError_eq_none_iff]
  rw [← hnone]
  unfold traverseKeys
  cases hfind : keys.findSome? fun key => stepError (f key) with
  | none => simp [eq_comm]
  | some err => simp

theorem lookup_of_traverseKeys_eq_ok {keys : List K}
    {f : K → Except ε (Option V)} {result : Dict K V}
    (hok : traverseKeys keys f = .ok result) (key : K) :
    result.lookup key =
      if key ∈ keys then stepValue (f key) else none := by
  obtain ⟨-, rfl⟩ := traverseKeys_eq_ok_iff.mp hok
  simp

end Traverse

end Dict
