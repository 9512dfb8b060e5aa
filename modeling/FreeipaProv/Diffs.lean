import FreeipaProv.Canonical
import FreeipaProv.QueueShape

/-!
# What a diff puts into the queue

The base request is empty exactly when the diff has nothing under a base key,
and a route is taken exactly when the diff has something under one of its
attributes.  The second half says where each queued request comes from.
-/

namespace FreeipaProv

open Fallible

/-! ## Emptiness of the parts of a diff -/

theorem pyDifference_of_nil (xs : List Atom) : pyDifference xs [] = xs := by
  simp [pyDifference, Atom.pyMem]

theorem pyIntersection_of_nil (xs : List Atom) : pyIntersection xs [] = [] := by
  simp [pyIntersection, Atom.pyMem]

theorem pySet_ne_nil {v : Val} {vs : List Val} {vals : List Atom}
    (hok : pySet (.list (v :: vs)) = .ok vals) : vals ≠ [] := by
  obtain ⟨atoms, hatoms, rfl⟩ := pySet_list_eq_ok_iff.mp hok
  cases atoms with
  | nil => simp at hatoms
  | cons a as => simp [pyDedup]

theorem BaseItem.isEmpty_iff {item : BaseItem} :
    item.isEmpty = true ↔ ∀ key, item.addattr.lookup key = none ∧
      item.delattr.lookup key = none ∧ item.scalars.lookup key = none := by
  simp only [BaseItem.isEmpty, Bool.and_eq_true, Dict.isEmpty_iff,
    ← forall_and, and_assoc]

private theorem lookup_filter_mem {V : Type} (dict : Dict String V)
    (keys : List String) (key : String) :
    (dict.filterMap fun k v => if k ∈ keys then some v else none).lookup key =
      if key ∈ keys then dict.lookup key else none := by
  rw [Dict.lookup_filterMap]
  split <;> cases dict.lookup key <;> rfl

theorem lookup_baseItem (cl : Client) (diffs : Changes) (key : String) :
    (cl.baseItem diffs).addattr.lookup key =
        (if key ∈ cl.cls.baseKeys then diffs.listAdd.lookup key else none) ∧
      (cl.baseItem diffs).delattr.lookup key =
        (if key ∈ cl.cls.baseKeys then diffs.listDel.lookup key else none) ∧
      (cl.baseItem diffs).scalars.lookup key =
        (if key ∈ cl.cls.baseKeys then diffs.scalars.lookup key else none) :=
  ⟨lookup_filter_mem _ _ _, lookup_filter_mem _ _ _, lookup_filter_mem _ _ _⟩

theorem baseItem_isEmpty_iff {cl : Client} {diffs : Changes} :
    (cl.baseItem diffs).isEmpty = true ↔ ∀ key ∈ cl.cls.baseKeys,
      diffs.listAdd.lookup key = none ∧ diffs.listDel.lookup key = none ∧
        diffs.scalars.lookup key = none := by
  rw [BaseItem.isEmpty_iff]
  constructor
  · intro hempty key hkey
    have hlookup := lookup_baseItem cl diffs key
    simp only [hkey, if_true] at hlookup
    rw [← hlookup.1, ← hlookup.2.1, ← hlookup.2.2]
    exact hempty key
  · intro hnone key
    obtain ⟨hadd, hdel, hscalar⟩ := lookup_baseItem cl diffs key
    rw [hadd, hdel, hscalar]
    by_cases hkey : key ∈ cl.cls.baseKeys
    · simpa [hkey] using hnone key hkey
    · simp [hkey]

theorem Route.hasChanges_iff {route : Route} {diffs : Changes} :
    route.hasChanges diffs = true ↔ ∃ arg ∈ route.args, ∃ vals,
      (diffs.side route.side).lookup arg.2 = some vals := by
  have hnil : route.changedArgs diffs = [] ↔ ∀ arg ∈ route.args,
      (diffs.side route.side).lookup arg.2 = none := by
    simp [Route.changedArgs, List.filterMap_eq_nil_iff]
  rw [Route.hasChanges, Bool.not_eq_true', List.isEmpty_eq_false_iff, ne_eq,
    hnil]
  simp only [not_forall, exists_prop, ← ne_eq, Option.ne_none_iff_exists']

/-! ## Where requests come from -/

/-- The origin of an entry in a queue that `rem` did not end. -/
theorem queueEntry_cases {cl : Client} {m : AnsibleModule} {found : Found}
    {q : Queue} (hends : cl.remEnds m found = false)
    (hqueue : cl.queueRequests m found = .ok q) {entry : QueueEntry}
    (hentry : entry ∈ q.entries) :
    (cl.queuesBase found = true ∧
      cl.baseRequest m found = .ok entry.request) ∨
    (m.checkMode = false ∧ entry ∈ cl.flagEntries m found) ∨
    (m.checkMode = false ∧ entry ∈ cl.routeEntries m found) := by
  rw [queueRequests_of_not_remEnds hends] at hqueue
  cases hbase : cl.baseEntries m found with
  | error err => simp [hbase, Except.map] at hqueue
  | ok base =>
      simp only [hbase, Except.map, Except.ok.injEq] at hqueue
      subst hqueue
      rcases List.mem_append.mp hentry with hmem | hmem
      · left
        unfold Client.baseEntries at hbase
        split_ifs at hbase with hqueues
        · obtain ⟨request, hrequest, hbase⟩ := bind_eq_ok_iff.mp hbase
          simp only [Except.ok.injEq] at hbase
          subst hbase
          obtain rfl := List.mem_singleton.mp hmem
          exact ⟨hqueues, hrequest⟩
        · simp only [Except.ok.injEq] at hbase
          subst hbase
          simp at hmem
      · right
        cases hmode : m.checkMode with
        | true => simp [hmode] at hmem
        | false =>
            simp only [hmode, Bool.false_eq_true, if_false,
              List.mem_append] at hmem
            simpa using hmem

theorem Client.baseRequest_eq_ok {cl : Client} {m : AnsibleModule}
    {found : Found} {request : Request}
    (hok : cl.baseRequest m found = .ok request) :
    ∃ name, cl.modRequestParams m = .ok name ∧ request = {
      method := if found.isAbsent then cl.method .add else cl.method .mod
      name
      item := modRewriteListChanges (cl.baseItem found.diffs) } := by
  obtain ⟨name, hname, hok⟩ := bind_eq_ok_iff.mp hok
  refine ⟨name, hname, ?_⟩
  cases cl with
  | ca =>
      dsimp only at hok
      unfold caModRewriteListChanges at hok
      generalize Request.mk _ _ _ = request' at hok ⊢
      split_ifs at hok
      · exact (Except.ok.inj hok).symm
      · dsimp only at hok
        split_ifs at hok
        exact (Except.ok.inj hok).symm
  | user | group | service | caacl | dnszone | dnsrecord | cert =>
      simpa using hok.symm

theorem method_of_mem_flagEntries {cl : Client} {m : AnsibleModule}
    {found : Found} {entry : QueueEntry}
    (hentry : entry ∈ cl.flagEntries m found) :
    entry.request.method = cl.method .enabled ∨
      entry.request.method = cl.method .disabled := by
  simp only [Client.flagEntries, Option.mem_toList, Option.map_eq_some_iff]
    at hentry
  obtain ⟨flag, -, rfl⟩ := hentry
  dsimp only
  split
  · exact Or.inl rfl
  · exact Or.inr rfl

theorem Client.mem_routeEntries {cl : Client} {m : AnsibleModule}
    {found : Found} {entry : QueueEntry} :
    entry ∈ cl.routeEntries m found ↔ ∃ marks route,
      (marks, route) ∈ cl.routes ∧ route.hasChanges found.diffs = true ∧
        cl.routeEntry m found route = entry := by
  simp only [Client.routeEntries, List.mem_map, List.mem_filter, Prod.exists,
    exists_eq_right]
  constructor
  · rintro ⟨route, ⟨⟨marks, hroute⟩, hchanges⟩, heq⟩
    exact ⟨marks, route, hroute, hchanges, heq⟩
  · rintro ⟨marks, route, hroute, hchanges, heq⟩
    exact ⟨route, ⟨⟨marks, hroute⟩, hchanges⟩, heq⟩

@[simp] theorem Route.request_method (route : Route) (name : List Val)
    (diffs : Changes) : (route.request name diffs).method = route.method := by
  unfold Route.request
  dsimp only
  split <;> rfl

theorem Route.request_name {route : Route}
    (hencoding : route.encoding ≠ .extraName) (name : List Val)
    (diffs : Changes) : (route.request name diffs).name = name := by
  unfold Route.request
  dsimp only
  split
  · contradiction
  · rfl

/-- Only users have methods that take values as request names. -/
theorem routes_encoding {cl : Client} (huser : cl ≠ .user) :
    ∀ entry ∈ cl.routes, entry.2.encoding ≠ .extraName := by
  cases cl <;> first | decide | contradiction

theorem method_of_mem_routeEntries {cl : Client} {m : AnsibleModule}
    {found : Found} {entry : QueueEntry}
    (hentry : entry ∈ cl.routeEntries m found) :
    entry.request.method ∈ cl.routes.map fun route => route.2.method := by
  obtain ⟨marks, route, hroute, -, rfl⟩ := Client.mem_routeEntries.mp hentry
  exact List.mem_map.mpr ⟨(marks, route), hroute, by simp [Client.routeEntry]⟩

/-- The methods of the base request are no flag or route methods. -/
theorem baseMethod_not_later (cl : Client) :
    cl.method .add ≠ cl.method .enabled ∧
    cl.method .add ≠ cl.method .disabled ∧
    (∀ method ∈ cl.routes.map fun route => route.2.method,
      cl.method .add ≠ method) ∧
    cl.method .mod ≠ cl.method .enabled ∧
    cl.method .mod ≠ cl.method .disabled ∧
    (∀ method ∈ cl.routes.map fun route => route.2.method,
      cl.method .mod ≠ method) := by
  cases cl <;> decide

/-- A request with a base method is the base request. -/
theorem baseRequest_of_method {cl : Client} {m : AnsibleModule}
    {found : Found} {q : Queue} (hends : cl.remEnds m found = false)
    (hqueue : cl.queueRequests m found = .ok q) {entry : QueueEntry}
    (hentry : entry ∈ q.entries)
    (hmethod : entry.request.method = cl.method .add ∨
      entry.request.method = cl.method .mod) :
    cl.queuesBase found = true ∧
      cl.baseRequest m found = .ok entry.request := by
  obtain ⟨haddOn, haddOff, haddRoute, hmodOn, hmodOff, hmodRoute⟩ :=
    baseMethod_not_later cl
  rcases queueEntry_cases hends hqueue hentry with hbase | ⟨-, hflag⟩ | ⟨-, hroute⟩
  · exact hbase
  · rcases method_of_mem_flagEntries hflag with hon | hoff <;>
      rcases hmethod with hadd | hmod
    · exact absurd (hadd.symm.trans hon) haddOn
    · exact absurd (hmod.symm.trans hon) hmodOn
    · exact absurd (hadd.symm.trans hoff) haddOff
    · exact absurd (hmod.symm.trans hoff) hmodOff
  · have hmem := method_of_mem_routeEntries hroute
    rcases hmethod with hadd | hmod
    · exact absurd hadd.symm (haddRoute _ hmem)
    · exact absurd hmod.symm (hmodRoute _ hmem)

end FreeipaProv
