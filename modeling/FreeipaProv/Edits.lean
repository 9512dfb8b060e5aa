import FreeipaProv.Wants

/-!
# The diff as edits of the object

The requests of a run change the object they name.  Read as edits, the
managed part of a diff is exactly what the object needs to become the one the
task asks for: no edit is missing and none is superfluous.
-/

namespace FreeipaProv

open Fallible Reconcile

/-- The edit a change makes, where lists hold strings and scalars atoms. -/
def Change.edit : Change → Option (Edit String String Atom)
  | .add key (.str s) => some (.add key s)
  | .del key (.str s) => some (.del key s)
  | .set key .none => some (.set key none)
  | .set key (.atom a) => some (.set key (some a))
  | _ => none

def Client.edits (cl : Client) (r : Request) : List (Edit String String Atom) :=
  (cl.decode r).filterMap Change.edit

/-- Every change of the request is an edit. -/
def Client.Understood (cl : Client) (r : Request) : Prop :=
  ∀ change ∈ cl.decode r, change.edit ≠ none

theorem Change.edit_set {type : ParamType} {a : Atom}
    (htype : a.OfType type) (key : String) :
    (Change.set key (.atom a)).edit = some (.set key (some a)) := by
  cases a with
  | none => cases type <;> contradiction
  | bool | int | str => rfl

/-! ## The members of a diff -/

theorem Client.mem_managedChanges {cl : Client} {diffs : Changes}
    {change : Change} :
    change ∈ cl.managedChanges diffs ↔
      (∃ side key val, cl.Managed key ∧
        (∃ vals, (diffs.side side).lookup key = some vals ∧ val ∈ vals) ∧
        side.change key (cl.wire key val) = change) ∨
      ∃ key val, cl.Managed key ∧ diffs.scalars.lookup key = some val ∧
        .set key val = change := by
  have hside : ∀ side, change ∈ cl.sideChanges diffs side ↔
      ∃ key val, cl.Managed key ∧
        (∃ vals, (diffs.side side).lookup key = some vals ∧ val ∈ vals) ∧
        side.change key (cl.wire key val) = change := by
    intro side
    simp only [Client.sideChanges, List.mem_flatMap, List.mem_filter,
      decide_eq_true_eq, List.mem_map, Prod.exists, Dict.mem_items_iff]
    constructor
    · rintro ⟨key, vals, ⟨hvals, hmanaged⟩, val, hval, heq⟩
      exact ⟨key, val, hmanaged, ⟨vals, hvals, hval⟩, heq⟩
    · rintro ⟨key, val, hmanaged, ⟨vals, hvals, hval⟩, heq⟩
      exact ⟨key, vals, ⟨hvals, hmanaged⟩, val, hval, heq⟩
  have hscalar : change ∈ cl.scalarSets diffs ↔
      ∃ key val, cl.Managed key ∧ diffs.scalars.lookup key = some val ∧
        .set key val = change := by
    simp only [Client.scalarSets, List.mem_map, List.mem_filter,
      decide_eq_true_eq, Prod.exists, Dict.mem_items_iff]
    constructor
    · rintro ⟨key, val, ⟨hval, hmanaged⟩, heq⟩
      exact ⟨key, val, hmanaged, hval, heq⟩
    · rintro ⟨key, val, hmanaged, hval, heq⟩
      exact ⟨key, val, ⟨hval, hmanaged⟩, heq⟩
  rw [Client.managedChanges, List.mem_append, List.mem_append, hside, hside,
    hscalar]
  refine or_congr_left ⟨?_, ?_⟩
  · rintro (hadd | hdel)
    · exact ⟨.add, hadd⟩
    · exact ⟨.del, hdel⟩
  · rintro ⟨side, hmem⟩
    cases side with
    | add => exact Or.inl hmem
    | del => exact Or.inr hmem

theorem mem_nonempty {vals : List Atom} {val : Atom} :
    (∃ vals', nonempty vals = some vals' ∧ val ∈ vals') ↔ val ∈ vals := by
  simp only [nonempty_eq_some_iff]
  constructor
  · rintro ⟨vals', ⟨rfl, -⟩, hval⟩
    exact hval
  · intro hval
    exact ⟨vals, ⟨rfl, List.ne_nil_of_mem hval⟩, hval⟩

theorem wire_str (cl : Client) (key s : String) :
    cl.wire key (.str s) = .str s := by
  unfold Client.wire
  split <;> rfl

section Strings

variable {desired current : List Atom} {want has : Set String}

/-- The difference of two sets of strings. -/
theorem mem_pyDifference_strs
    (hdesired : ∀ a, a ∈ desired ↔ ∃ s ∈ want, a = .str s)
    (hcurrent : ∀ a, a ∈ current ↔ ∃ s ∈ has, a = .str s) {val : Atom} :
    val ∈ pyDifference desired current ↔
      ∃ s, val = .str s ∧ s ∈ want ∧ s ∉ has := by
  rw [pyDifference, List.mem_filter, hdesired]
  constructor
  · rintro ⟨⟨s, hs, rfl⟩, hnot⟩
    refine ⟨s, rfl, hs, fun hs' => ?_⟩
    rw [pyMem_str] at hnot
    simp [hcurrent, hs'] at hnot
  · rintro ⟨s, rfl, hs, hnot⟩
    refine ⟨⟨s, hs, rfl⟩, ?_⟩
    rw [pyMem_str]
    simp [hcurrent, hnot]

theorem mem_pyIntersection_strs
    (hdesired : ∀ a, a ∈ desired ↔ ∃ s ∈ want, a = .str s)
    (hcurrent : ∀ a, a ∈ current ↔ ∃ s ∈ has, a = .str s) {val : Atom} :
    val ∈ pyIntersection desired current ↔
      ∃ s, val = .str s ∧ s ∈ want ∧ s ∈ has := by
  rw [pyIntersection, List.mem_filter, hdesired]
  constructor
  · rintro ⟨⟨s, hs, rfl⟩, hmem⟩
    rw [pyMem_str] at hmem
    exact ⟨s, rfl, hs, by simpa [hcurrent] using hmem⟩
  · rintro ⟨s, rfl, hs, hs'⟩
    refine ⟨⟨s, hs, rfl⟩, ?_⟩
    rw [pyMem_str]
    simp [hcurrent, hs']

theorem mem_listAddValues_strs {state : State}
    (hdesired : ∀ a, a ∈ desired ↔ ∃ s ∈ want, a = .str s)
    (hcurrent : ∀ a, a ∈ current ↔ ∃ s ∈ has, a = .str s) {val : Atom} :
    val ∈ listAddValues state desired current ↔
      state ≠ .absent ∧ ∃ s, val = .str s ∧ s ∈ want ∧ s ∉ has := by
  rw [listAddValues]
  split_ifs with hstate
  · simp [hstate]
  · rw [mem_pyDifference_strs hdesired hcurrent]
    simp [hstate]

theorem mem_listDelValues_strs {state : State}
    (hdesired : ∀ a, a ∈ desired ↔ ∃ s ∈ want, a = .str s)
    (hcurrent : ∀ a, a ∈ current ↔ ∃ s ∈ has, a = .str s) {val : Atom} :
    val ∈ listDelValues state desired current ↔
      ∃ s, val = .str s ∧ s ∈ has ∧
        ((state = .exact ∧ s ∉ want) ∨ (state = .absent ∧ s ∈ want)) := by
  cases state with
  | exact =>
      rw [listDelValues, mem_pyDifference_strs hcurrent hdesired]
      simp
  | absent =>
      rw [listDelValues, mem_pyIntersection_strs hdesired hcurrent]
      simp [and_comm]
  | present | enabled | disabled => simp [listDelValues]

end Strings

section Diff

variable {cl : Client} {state : State} {desired current : Dict String Val}
  {diffs : Changes}

theorem mem_listAdd_iff {want lists : String → Set String}
    (hstate : state ≠ .absent) (hdesired : cl.ListsAs desired want)
    (hcurrent : cl.ListsAs current lists)
    (hok : cl.cls.computeChanges state desired current = .ok diffs)
    {key : String} (hkey : cl.ListAttr key) {val : Atom} :
    (∃ vals, diffs.listAdd.lookup key = some vals ∧ val ∈ vals) ↔
      ∃ s, val = .str s ∧ s ∈ want key ∧ s ∉ lists key := by
  rw [ClientClass.lookup_listAdd hok, mem_nonempty,
    mem_listAddValues_strs (hdesired.members key hkey)
      (hcurrent.members key hkey)]
  simp [hstate]

theorem mem_listDel_iff {want lists : String → Set String}
    (hstate : state = .present ∨ state = .exact)
    (hdesired : cl.ListsAs desired want) (hcurrent : cl.ListsAs current lists)
    (hok : cl.cls.computeChanges state desired current = .ok diffs)
    {key : String} (hkey : cl.ListAttr key) {val : Atom} :
    (∃ vals, diffs.listDel.lookup key = some vals ∧ val ∈ vals) ↔
      state = .exact ∧ ∃ s, val = .str s ∧ s ∈ lists key ∧ s ∉ want key := by
  rw [ClientClass.lookup_listDel hok, mem_nonempty,
    mem_listDelValues_strs (hdesired.members key hkey)
      (hcurrent.members key hkey)]
  rcases hstate with rfl | rfl <;> simp

/-- The scalar part of a diff, between scalars of the declared types. -/
theorem lookup_scalars_typed {want scalars : String → Option Atom}
    (hstate : state = .present ∨ state = .exact)
    (hdesired : cl.ScalarsAs desired want)
    (hcurrent : cl.ScalarsAs current scalars)
    (hok : cl.cls.computeChanges state desired current = .ok diffs)
    {key : String} (hkey : cl.ScalarAttr key)
    (hdefault : (cl.cls.argumentSpec.lookup key).bind ArgSpec.default = none) :
    diffs.scalars.lookup key =
      match want key with
      | some a => if scalars key = some a then none else some (.atom a)
      | none =>
          if state = .exact ∧ scalars key ≠ none then some .none
          else none := by
  have hpresent := State.ne_absent hstate
  have hscalar : ∀ item : Dict String Val,
      cl.cls.scalar item key = item.lookup key := by
    intro item
    rw [ClientClass.scalar_eq, if_neg hkey.2]
  rw [ClientClass.lookup_scalars hpresent hok, hscalar, hscalar,
    hdesired.lookup key hkey, hcurrent.lookup key hkey]
  obtain ⟨type, htype⟩ := Option.ne_none_iff_exists'.mp hkey.1.1.1
  cases hnew : want key with
  | none =>
      cases hold : scalars key with
      | none => simp
      | some old => simp [hdefault]
  | some new =>
      cases hold : scalars key with
      | none => simp
      | some old =>
          have heq := Atom.OfType.pyEq_iff
            (hdesired.typed key type new hkey htype hnew)
            (hcurrent.typed key type old hkey htype hold)
          by_cases hsame : new = old
          · simp [hsame]
          · have hne : new.pyEq old = false := by
              rw [← Bool.not_eq_true, heq]
              exact hsame
            simp [hne, Ne.symm hsame]

end Diff

/-! ## The diff and the goal -/

namespace TypedTask

variable {cl : Client} (t : TypedTask cl)

theorem goal_lists (obj : ObjState) (key : String) :
    (t.goal obj).lists key =
      if t.state = .exact ∧ cl.ListAttr key then t.wants.lists key
      else obj.lists key ∪ t.wants.lists key := by
  by_cases hkey : cl.ListAttr key
  · by_cases hstate : t.state = .exact <;>
      simp [goal, hstate, hkey, Store.override, Store.merge]
  · have hempty : t.wants.lists key = ∅ := by
      simp [wants, hkey]
    by_cases hstate : t.state = .exact <;>
      simp [goal, hstate, hkey, hempty, Store.override, Store.merge]

theorem goal_scalars (obj : ObjState) (key : String) :
    (t.goal obj).scalars key =
      if t.state = .exact ∧ cl.ScalarAttr key then t.wants.scalars key
      else (t.wants.scalars key).or (obj.scalars key) := by
  by_cases hkey : cl.ScalarAttr key
  · by_cases hstate : t.state = .exact <;>
      simp [goal, hstate, hkey, Store.override, Store.merge]
  · have hnone : t.wants.scalars key = none := if_neg hkey
    by_cases hstate : t.state = .exact <;>
      simp [goal, hstate, hkey, hnone, Store.override, Store.merge]

end TypedTask

/-- A desired and a current item, with the object they are about. -/
structure TypedTask.Compares {cl : Client} (t : TypedTask cl) (obj : ObjState)
    (desired current : Dict String Val) : Prop where
  state : t.state = .present ∨ t.state = .exact
  desiredLists : cl.ListsAs desired t.wants.lists
  desiredScalars : cl.ScalarsAs desired t.wants.scalars
  currentLists : cl.ListsAs current obj.lists
  currentScalars : cl.ScalarsAs current obj.scalars
  noDefault : ∀ key, cl.Managed key →
    (cl.cls.argumentSpec.lookup key).bind ArgSpec.default = none

namespace TypedTask.Compares

variable {cl : Client} {t : TypedTask cl} {obj : ObjState}
  {desired current : Dict String Val} {diffs : Changes}

/-- The values the diff adds. -/
theorem mem_listAdd (hcompare : t.Compares obj desired current)
    (hok : cl.cls.computeChanges t.state desired current = .ok diffs)
    {key s : String} :
    (cl.Managed key ∧ ∃ vals, diffs.listAdd.lookup key = some vals ∧
      Atom.str s ∈ vals) ↔
    (Edit.add key s : Edit String String Atom).Needed (t.goal obj) obj := by
  have hstate := State.ne_absent hcompare.state
  have hwants : s ∈ t.wants.lists key → cl.ListAttr key := fun hs => hs.1
  rw [Edit.Needed, t.goal_lists]
  by_cases hkey : cl.ListAttr key
  · rw [mem_listAdd_iff hstate hcompare.desiredLists hcompare.currentLists hok
      hkey]
    by_cases hexact : t.state = .exact
    · simp [hexact, hkey, hkey.1]
    · simp only [hkey.1, true_and, Atom.str.injEq, exists_eq_left', hexact,
        false_and, if_false, Set.mem_union]
      tauto
  · constructor
    · rintro ⟨-, vals, hvals, -⟩
      have hlist : cl.cls.paramType key ≠ some .list := fun htype =>
        hkey (Client.listAttr_of_type htype)
      have hnone := ClientClass.diff_list_key hok hlist .add
      rw [Changes.side, hvals] at hnone
      contradiction
    · rintro ⟨hgoal, hnot⟩
      rw [if_neg (by simp [hkey])] at hgoal
      rcases hgoal with hs | hs
      · exact absurd hs hnot
      · exact absurd (hwants hs) hkey

theorem mem_listDel (hcompare : t.Compares obj desired current)
    (hok : cl.cls.computeChanges t.state desired current = .ok diffs)
    {key s : String} :
    (cl.Managed key ∧ ∃ vals, diffs.listDel.lookup key = some vals ∧
      Atom.str s ∈ vals) ↔
    (Edit.del key s : Edit String String Atom).Needed (t.goal obj) obj := by
  rw [Edit.Needed, t.goal_lists]
  by_cases hkey : cl.ListAttr key
  · rw [mem_listDel_iff hcompare.state hcompare.desiredLists
      hcompare.currentLists hok hkey]
    by_cases hexact : t.state = .exact
    · simp [hexact, hkey, hkey.1, and_comm]
    · simp only [hexact, false_and, and_false, if_false, Set.mem_union,
        false_iff, not_and]
      intro hnot hs
      exact hnot (Or.inl hs)
  · constructor
    · rintro ⟨-, vals, hvals, -⟩
      have hlist : cl.cls.paramType key ≠ some .list := fun htype =>
        hkey (Client.listAttr_of_type htype)
      have hnone := ClientClass.diff_list_key hok hlist .del
      rw [Changes.side, hvals] at hnone
      contradiction
    · rintro ⟨hnot, hs⟩
      rw [if_neg (by simp [hkey])] at hnot
      exact absurd (Or.inl hs) hnot

theorem mem_scalars (hcompare : t.Compares obj desired current)
    (hok : cl.cls.computeChanges t.state desired current = .ok diffs)
    {key : String} {val : Option Atom} :
    (cl.Managed key ∧ diffs.scalars.lookup key =
      some (.atom (val.getD .none)) ∧ val ≠ some .none) ↔
    (Edit.set key val : Edit String String Atom).Needed (t.goal obj) obj := by
  rw [Edit.Needed, t.goal_scalars]
  by_cases hkey : cl.ScalarAttr key
  · rw [lookup_scalars_typed hcompare.state hcompare.desiredScalars
      hcompare.currentScalars hok hkey (hcompare.noDefault key hkey.1)]
    cases hwant : t.wants.scalars key with
    | none =>
        by_cases hexact : t.state = .exact
        · cases val with
          | none => simp [hexact, hkey, hkey.1]
          | some a => simp [hexact, hkey, eq_comm (a := a)]
        · simp [hexact]
    | some a =>
        obtain ⟨type, htype⟩ := Option.ne_none_iff_exists'.mp hkey.1.1.1
        have hne : a ≠ .none := by
          rintro rfl
          have htyped :=
            hcompare.desiredScalars.typed key type .none hkey htype hwant
          cases type <;> contradiction
        by_cases hsame : obj.scalars key = some a
        · cases val <;> simp [hsame, eq_comm]
        · cases val with
          | none => simp [hsame, hne]
          | some a' =>
              by_cases heq : a = a'
              · subst heq
                simp [hsame, hkey.1, hne]
              · simp [hsame, heq]
  · constructor
    · rintro ⟨hmanaged, hlookup, -⟩
      have hlist : cl.cls.paramType key = some .list := by
        by_contra hlist
        exact hkey ⟨hmanaged, hlist⟩
      rw [ClientClass.diff_scalar_key hok hlist] at hlookup
      contradiction
    · rintro ⟨hgoal, hne⟩
      have hnone : t.wants.scalars key = none := if_neg hkey
      rw [if_neg (by simp [hkey]), hnone, Option.none_or] at hgoal
      exact absurd hgoal hne

theorem eq_str_of_mem_side (hcompare : t.Compares obj desired current)
    (hok : cl.cls.computeChanges t.state desired current = .ok diffs)
    {side : Side} {key : String} {val : Atom}
    (hval : ∃ vals, (diffs.side side).lookup key = some vals ∧ val ∈ vals) :
    ∃ s, val = .str s := by
  have hkey : cl.ListAttr key := by
    apply Client.listAttr_of_type
    by_contra hlist
    obtain ⟨vals, hvals, -⟩ := hval
    rw [ClientClass.diff_list_key hok hlist side] at hvals
    contradiction
  cases side with
  | add =>
      have hstate := State.ne_absent hcompare.state
      obtain ⟨s, hs, -⟩ := (mem_listAdd_iff hstate hcompare.desiredLists
        hcompare.currentLists hok hkey).mp hval
      exact ⟨s, hs⟩
  | del =>
      obtain ⟨-, s, hs, -⟩ := (mem_listDel_iff hcompare.state
        hcompare.desiredLists hcompare.currentLists hok hkey).mp hval
      exact ⟨s, hs⟩

theorem edit_scalar (hcompare : t.Compares obj desired current)
    (hok : cl.cls.computeChanges t.state desired current = .ok diffs)
    {key : String} (hkey : cl.Managed key) {val : Val}
    (hval : diffs.scalars.lookup key = some val) :
    ∃ new : Option Atom, val = .atom (new.getD .none) ∧ new ≠ some .none ∧
      (Change.set key val).edit = some (.set key new) := by
  have hscalar : cl.ScalarAttr key := by
    refine ⟨hkey, fun htype => ?_⟩
    rw [ClientClass.diff_scalar_key hok htype] at hval
    contradiction
  rw [lookup_scalars_typed hcompare.state hcompare.desiredScalars
    hcompare.currentScalars hok hscalar (hcompare.noDefault key hkey)] at hval
  cases hwant : t.wants.scalars key with
  | none =>
      simp only [hwant] at hval
      split_ifs at hval
      obtain rfl := Option.some.inj hval
      exact ⟨none, rfl, by simp, rfl⟩
  | some a =>
      simp only [hwant] at hval
      split_ifs at hval
      obtain rfl := Option.some.inj hval
      obtain ⟨type, htype⟩ := Option.ne_none_iff_exists'.mp hkey.1.1
      have htyped :=
        hcompare.desiredScalars.typed key type a hscalar htype hwant
      refine ⟨some a, rfl, ?_, Change.edit_set htyped key⟩
      rintro heq
      rw [Option.some.inj heq] at htyped
      cases type <;> contradiction

theorem edit_ne_none (hcompare : t.Compares obj desired current)
    (hok : cl.cls.computeChanges t.state desired current = .ok diffs)
    {change : Change} (hchange : change ∈ cl.managedChanges diffs) :
    change.edit ≠ none := by
  rcases Client.mem_managedChanges.mp hchange with
    ⟨side, key, val, -, hval, rfl⟩ | ⟨key, val, hkey, hval, rfl⟩
  · obtain ⟨s, rfl⟩ := hcompare.eq_str_of_mem_side hok hval
    rw [wire_str]
    cases side <;> simp [Side.change, Change.edit]
  · obtain ⟨new, -, -, hedit⟩ := hcompare.edit_scalar hok hkey hval
    simp [hedit]

/-- The managed part of the diff is what the object needs to become the goal
of the task. -/
theorem mem_edits (hcompare : t.Compares obj desired current)
    (hok : cl.cls.computeChanges t.state desired current = .ok diffs)
    {e : Edit String String Atom} :
    e ∈ (cl.managedChanges diffs).filterMap Change.edit ↔
      e.Needed (t.goal obj) obj := by
  rw [List.mem_filterMap]
  constructor
  · rintro ⟨change, hchange, hedit⟩
    rcases Client.mem_managedChanges.mp hchange with
      ⟨side, key, val, hkey, hval, rfl⟩ | ⟨key, val, hkey, hval, rfl⟩
    · obtain ⟨s, rfl⟩ := hcompare.eq_str_of_mem_side hok hval
      rw [wire_str] at hedit
      cases side with
      | add =>
          obtain rfl := Option.some.inj hedit
          exact (hcompare.mem_listAdd hok).mp ⟨hkey, hval⟩
      | del =>
          obtain rfl := Option.some.inj hedit
          exact (hcompare.mem_listDel hok).mp ⟨hkey, hval⟩
    · obtain ⟨new, rfl, hnew, hset⟩ := hcompare.edit_scalar hok hkey hval
      obtain rfl := Option.some.inj (hset.symm.trans hedit)
      exact (hcompare.mem_scalars hok).mp ⟨hkey, hval, hnew⟩
  · intro hneeded
    cases e with
    | add key s =>
        obtain ⟨hkey, hval⟩ := (hcompare.mem_listAdd hok).mpr hneeded
        refine ⟨.add key (.str s), ?_, rfl⟩
        rw [Client.mem_managedChanges]
        exact Or.inl ⟨.add, key, .str s, hkey, hval, by rw [wire_str]; rfl⟩
    | del key s =>
        obtain ⟨hkey, hval⟩ := (hcompare.mem_listDel hok).mpr hneeded
        refine ⟨.del key (.str s), ?_, rfl⟩
        rw [Client.mem_managedChanges]
        exact Or.inl ⟨.del, key, .str s, hkey, hval, by rw [wire_str]; rfl⟩
    | set key new =>
        obtain ⟨hkey, hval, hnew⟩ := (hcompare.mem_scalars hok).mpr hneeded
        obtain ⟨new', heq, hnew', hset⟩ := hcompare.edit_scalar hok hkey hval
        have hsame : new' = new := by
          cases new <;> cases new' <;> simp_all
        refine ⟨_, Client.mem_managedChanges.mpr
          (Or.inr ⟨key, _, hkey, hval, rfl⟩), ?_⟩
        rw [hset, hsame]

end TypedTask.Compares

/-! ## Posting edits -/

/-- Where each request of a run edits the object, the run makes all the edits
on it. -/
theorem applyAll_of_posts {σ : Type} {post : Post σ} {p : σ → ObjState → Prop}
    {edits : Request → List (Edit String String Atom)}
    {entries : List QueueEntry} {server server' : σ} {obj : ObjState}
    (hposts : ∀ entry ∈ entries, ∀ (s s' : σ) (response : Val) (obj : ObjState),
      post s entry.request = .ok (response, s') → p s obj →
        p s' (obj.applyAll (edits entry.request)))
    (hrun : runAll (postEntry post) server entries = .ok server')
    (hstart : p server obj) :
    p server' (obj.applyAll
      (entries.flatMap fun entry => edits entry.request)) := by
  induction entries generalizing server obj with
  | nil =>
      obtain rfl := Except.ok.inj hrun
      exact hstart
  | cons entry rest ih =>
      obtain ⟨mid, hpost, hrest⟩ := bind_eq_ok_iff.mp hrun
      obtain ⟨response, hpost⟩ := postEntry_eq_ok hpost
      have hmid := hposts entry List.mem_cons_self _ _ _ _ hpost hstart
      have hlast := ih (fun entry' hentry' =>
        hposts entry' (List.mem_cons_of_mem entry hentry')) hrest hmid
      rw [← Store.applyAll_append] at hlast
      exact hlast

end FreeipaProv
