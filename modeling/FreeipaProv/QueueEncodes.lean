import FreeipaProv.Decode

/-!
# The queue encodes the diff

Every managed attribute goes either to the base request or to exactly one
dedicated method on each side of the diff.  So the requests of a queue,
decoded and put together, are the diff of the managed attributes again, each
change once.  The base request carries list values as strings, so it loses
what other values are.
-/

namespace FreeipaProv

open Fallible

/-! ## The tables of attributes -/

/-- The attributes that dedicated methods add to or remove from. -/
def Client.routeKeys (cl : Client) (side : Side) : List String :=
  ((cl.routes.map Prod.snd).filter fun route => route.side = side).flatMap
    fun route => route.args.map Prod.snd

theorem routeKeys_spec (cl : Client) (side : Side) :
    (cl.routeKeys side).Nodup ∧ ∀ key ∈ cl.routeKeys side,
      cl.Managed key ∧ key ∉ cl.cls.baseKeys := by
  cases cl <;> cases side <;> decide

/-- A managed attribute outside the base keys is a list with a dedicated
method on either side. -/
theorem managed_spec (cl : Client) (side : Side) :
    ∀ key ∈ cl.cls.kwArgs.keys, cl.Managed key →
      key ∈ cl.cls.baseKeys ∨
        (cl.cls.paramType key = some .list ∧ key ∈ cl.routeKeys side) := by
  cases cl <;> cases side <;> decide +kernel

/-- Base keys have no `=`, differ from the fixed entries of a request, and are
declared unless they have no default. -/
theorem baseKeys_plain (cl : Client) : ∀ key ∈ cl.cls.baseKeys,
    '=' ∉ key.toList ∧ key ≠ "all" ∧ key ≠ "addattr" ∧ key ≠ "delattr" ∧
      (cl.cls.IsAttr key ∨
        (cl.cls.argumentSpec.lookup key).bind ArgSpec.default = none) := by
  cases cl <;> decide +kernel

theorem certBaseKeys_isAttr : ∀ key ∈ certClass.baseKeys,
    certClass.IsAttr key := by
  decide

theorem flagMethod_not_route (cl : Client) :
    cl.routeOf (cl.method .enabled) = none ∧
      cl.routeOf (cl.method .disabled) = none := by
  cases cl <;> decide

/-! ## Keys of a diff -/

section DiffKeys

variable {cl : Client} {m : AnsibleModule} {reply : FindReply} {found : Found}
  {obj : Dict String Val}

/-- What enters a diff comes from the task or from the object. -/
theorem ClientClass.diff_key {cls : ClientClass} {state : State}
    {change curr : Dict String Val} {changes : Changes}
    (hok : cls.computeChanges state change curr = .ok changes) {key : String}
    (hchange : change.lookup key = none) (hcurr : curr.lookup key = none) :
    (∀ side, (changes.side side).lookup key = none) ∧
      changes.scalars.lookup key = none := by
  refine ⟨fun side => ?_, ?_⟩
  · cases side with
    | add =>
        rw [Changes.side, lookup_listAdd hok, members_eq_nil hchange,
          members_eq_nil hcurr]
        unfold listAddValues
        split <;> rfl
    | del =>
        rw [Changes.side, lookup_listDel hok, members_eq_nil hchange,
          members_eq_nil hcurr]
        cases state <;> rfl
  · by_cases hstate : state = .absent
    · subst hstate
      rw [lookup_scalars_absent hok, scalar_eq_none hchange, Option.bind_none]
    · rw [lookup_scalars hstate hok, scalar_eq_none hchange,
        scalar_eq_none hcurr]

theorem ClientClass.diff_list_key {cls : ClientClass} {state : State}
    {change curr : Dict String Val} {changes : Changes}
    (hok : cls.computeChanges state change curr = .ok changes) {key : String}
    (htype : cls.paramType key ≠ some .list) (side : Side) :
    (changes.side side).lookup key = none := by
  cases side with
  | add =>
      rw [Changes.side, lookup_listAdd hok, members_eq_nil_of_scalar htype,
        members_eq_nil_of_scalar htype]
      unfold listAddValues
      split <;> rfl
  | del =>
      rw [Changes.side, lookup_listDel hok, members_eq_nil_of_scalar htype,
        members_eq_nil_of_scalar htype]
      cases state <;> rfl

theorem ClientClass.diff_scalar_key {cls : ClientClass} {state : State}
    {change curr : Dict String Val} {changes : Changes}
    (hok : cls.computeChanges state change curr = .ok changes) {key : String}
    (htype : cls.paramType key = some .list) :
    changes.scalars.lookup key = none := by
  by_cases hstate : state = .absent
  · subst hstate
    rw [lookup_scalars_absent hok, scalar_eq, if_pos htype, Option.bind_none]
  · rw [lookup_scalars hstate hok, scalar_eq, if_pos htype, scalar_eq,
      if_pos htype]

theorem FindSteps.isAttr_of_baseKey (steps : FindSteps cl m reply found obj)
    (hends : ¬(cl = .cert ∧ m.state = .absent)) {key : String}
    (hkey : key ∈ cl.cls.baseKeys)
    (hdiff : (∃ side, (found.diffs.side side).lookup key ≠ none) ∨
      found.diffs.scalars.lookup key ≠ none) : cl.cls.IsAttr key := by
  by_cases hcert : cl = .cert
  · subst hcert
    exact certBaseKeys_isAttr key hkey
  by_contra hattr
  have hdiffs := Client.computeChanges_eq steps.diffs hends
  have hcurrent : found.responseCleaned.lookup key = none := by
    by_contra hval
    obtain ⟨val, hval⟩ := Option.ne_none_iff_exists'.mp hval
    exact hattr (Client.isAttr_of_lookup_mungeResponse hcert steps.current hval)
  have hdesired : found.canonParams.lookup key = none := by
    have hdefault := ((baseKeys_plain cl key hkey).2.2.2.2).resolve_left hattr
    rw [steps.lookup_desired_base hcert hkey, hdefault, ite_self,
      Option.or_none]
    split
    · rfl
    · rename_i hparam
      by_contra hval
      obtain ⟨val, hval⟩ := Option.ne_none_iff_exists'.mp hval
      obtain ⟨raw, type, -, htype, -⟩ := ClientClass.cleanedAt_eq_some hval
      exact hattr ⟨by simp [htype], hparam⟩
  obtain ⟨hlists, hscalar⟩ := ClientClass.diff_key hdiffs hdesired hcurrent
  rcases hdiff with ⟨side, hside⟩ | hval
  · exact hside (hlists side)
  · exact hval hscalar

/-- A list of the diff belongs to a managed attribute exactly when a request
takes it, and then only one does. -/
theorem FindSteps.managed_list_iff (steps : FindSteps cl m reply found obj)
    (hends : ¬(cl = .cert ∧ m.state = .absent)) {side : Side} {key : String}
    {vals : List Atom}
    (hvals : (found.diffs.side side).lookup key = some vals) :
    cl.Managed key ↔ key ∈ cl.cls.baseKeys ∨ key ∈ cl.routeKeys side := by
  constructor
  · intro hmanaged
    have hdeclared : key ∈ cl.cls.kwArgs.keys := hmanaged.1.mem_kwArgs
    exact (managed_spec cl side key hdeclared hmanaged).imp_right And.right
  · rintro (hbase | hroute)
    · exact ⟨steps.isAttr_of_baseKey hends hbase
        (Or.inl ⟨side, by simp [hvals]⟩), (baseKeys_spec cl key hbase).1⟩
    · exact ((routeKeys_spec cl side).2 key hroute).1

theorem FindSteps.managed_scalar_iff (steps : FindSteps cl m reply found obj)
    (hends : ¬(cl = .cert ∧ m.state = .absent)) {key : String} {val : Val}
    (hval : found.diffs.scalars.lookup key = some val) :
    cl.Managed key ↔ key ∈ cl.cls.baseKeys := by
  constructor
  · intro hmanaged
    have hdeclared : key ∈ cl.cls.kwArgs.keys := hmanaged.1.mem_kwArgs
    refine (managed_spec cl .add key hdeclared hmanaged).resolve_right ?_
    rintro ⟨htype, -⟩
    have hdiffs := Client.computeChanges_eq steps.diffs hends
    rw [ClientClass.diff_scalar_key hdiffs htype] at hval
    contradiction
  · intro hbase
    exact ⟨steps.isAttr_of_baseKey hends hbase (Or.inr (by simp [hval])),
      (baseKeys_spec cl key hbase).1⟩

end DiffKeys

/-! ## Decoding a queue -/

/-- The changes the base request takes from one side of the diff. -/
def Client.baseSideChanges (cl : Client) (diffs : Changes) (side : Side) :
    List Change :=
  ((diffs.side side).items.filter fun item =>
    item.1 ∈ cl.cls.baseKeys).flatMap fun item =>
      item.2.map fun val => side.change item.1 (.str val.pyStr)

/-- The changes the dedicated methods take from one side of the diff. -/
def Client.routeSideChanges (cl : Client) (diffs : Changes) (side : Side) :
    List Change :=
  (cl.routeKeys side).flatMap fun key =>
    ((diffs.side side).lookup key).toList.flatMap fun vals =>
      vals.map (side.change key)

section Decoding

variable {cl : Client} {m : AnsibleModule} {reply : FindReply} {found : Found}
  {obj : Dict String Val}

/-- Each side of the diff is split between the base request and the dedicated
methods. -/
theorem FindSteps.sideChanges_perm (steps : FindSteps cl m reply found obj)
    (hends : ¬(cl = .cert ∧ m.state = .absent)) (side : Side) :
    (cl.baseSideChanges found.diffs side ++
      cl.routeSideChanges found.diffs side).Perm
      (cl.sideChanges found.diffs side) := by
  obtain ⟨hnodup, hroute⟩ := routeKeys_spec cl side
  have hlookups : cl.routeSideChanges found.diffs side =
      ((cl.routeKeys side).flatMap fun key =>
        ((found.diffs.side side).lookup key).toList.map (key, ·)).flatMap
          fun item => item.2.map (side.change item.1) := by
    rw [List.flatMap_assoc, Client.routeSideChanges]
    refine List.flatMap_congr fun key _ => ?_
    rw [List.flatMap_map]
  have hbase : cl.baseSideChanges found.diffs side =
      ((found.diffs.side side).items.filter fun item =>
        item.1 ∈ cl.cls.baseKeys).flatMap fun item =>
          item.2.map fun val => side.change item.1 (cl.wire item.1 val) := by
    refine List.flatMap_congr fun item hitem => ?_
    have hkey : item.1 ∈ cl.cls.baseKeys := by
      simpa using (List.mem_filter.mp hitem).2
    simp [Client.wire, hkey]
  have hroutes : (cl.routeSideChanges found.diffs side).Perm
      (((found.diffs.side side).items.filter fun item =>
        item.1 ∈ cl.routeKeys side).flatMap fun item =>
          item.2.map fun val => side.change item.1 (cl.wire item.1 val)) := by
    rw [hlookups]
    refine ((Dict.flatMap_lookup_perm hnodup _).flatMap_right _).trans
      (List.Perm.of_eq (List.flatMap_congr fun item hitem => ?_))
    have hkey : item.1 ∈ cl.routeKeys side := by
      simpa using (List.mem_filter.mp hitem).2
    simp only [Client.wire, if_neg (hroute item.1 hkey).2]
  rw [hbase]
  refine (List.Perm.append_left _ hroutes).trans ?_
  rw [← List.flatMap_append, Client.sideChanges]
  refine List.Perm.flatMap_right _ ?_
  -- both lists have the entries under the managed keys, each once
  have hitems := (found.diffs.side side).items_nodup
  refine (List.perm_ext_iff_of_nodup ?_ (hitems.filter _)).mpr ?_
  · refine List.nodup_append'.mpr ⟨hitems.filter _, hitems.filter _, ?_⟩
    intro item hmem hmem'
    have hkey : item.1 ∈ cl.cls.baseKeys := by
      simpa using (List.mem_filter.mp hmem).2
    have hkey' : item.1 ∈ cl.routeKeys side := by
      simpa using (List.mem_filter.mp hmem').2
    exact (hroute item.1 hkey').2 hkey
  · intro item
    simp only [List.mem_append, List.mem_filter, decide_eq_true_eq,
      ← and_or_left]
    refine and_congr_right fun hitem => ?_
    exact (steps.managed_list_iff hends (Dict.mem_items_iff.mp hitem)).symm

theorem FindSteps.scalarSets_eq (steps : FindSteps cl m reply found obj)
    (hends : ¬(cl = .cert ∧ m.state = .absent)) :
    (found.diffs.scalars.items.filter fun item =>
      item.1 ∈ cl.cls.baseKeys).map (fun item => .set item.1 item.2) =
      cl.scalarSets found.diffs := by
  rw [Client.scalarSets]
  congr 1
  refine List.filter_congr fun item hitem => ?_
  rw [decide_eq_decide]
  exact (steps.managed_scalar_iff hends (Dict.mem_items_iff.mp hitem)).symm

theorem baseItem_plain (cl : Client) (diffs : Changes) :
    (cl.baseItem diffs).Plain := by
  have hkey : ∀ {V : Type} {dict : Dict String V} {key : String} {val : V},
      (if key ∈ cl.cls.baseKeys then dict.lookup key else none) = some val →
      key ∈ cl.cls.baseKeys := by
    intro V dict key val hval
    by_contra hnot
    simp [hnot] at hval
  refine ⟨fun key vals hvals => ?_, fun key vals hvals => ?_,
    fun key val hval => ?_⟩
  · rw [(lookup_baseItem cl diffs key).1] at hvals
    exact (baseKeys_plain cl key (hkey hvals)).1
  · rw [(lookup_baseItem cl diffs key).2.1] at hvals
    exact (baseKeys_plain cl key (hkey hvals)).1
  · rw [(lookup_baseItem cl diffs key).2.2] at hval
    obtain ⟨-, hall, hadd, hdel, -⟩ := baseKeys_plain cl key (hkey hval)
    exact ⟨hall, hadd, hdel⟩

theorem decode_baseItem (cl : Client) (diffs : Changes) :
    (decodeBase (modRewriteListChanges (cl.baseItem diffs))).Perm
      (cl.baseSideChanges diffs .del ++ (cl.baseSideChanges diffs .add ++
        (diffs.scalars.items.filter fun item =>
          item.1 ∈ cl.cls.baseKeys).map fun item => .set item.1 item.2)) := by
  have hperm := decodeBase_modRewriteListChanges (baseItem_plain cl diffs)
  rw [Client.baseItem] at hperm
  simp only [Dict.items_filterMap_mem] at hperm
  exact hperm

theorem decode_baseEntries {base : List QueueEntry}
    (hbase : cl.baseEntries m found = .ok base) :
    base.flatMap (fun entry => cl.decode entry.request) =
      decodeBase (modRewriteListChanges (cl.baseItem found.diffs)) := by
  unfold Client.baseEntries at hbase
  split_ifs at hbase with hqueues
  · obtain ⟨request, hrequest, hbase⟩ := bind_eq_ok_iff.mp hbase
    obtain ⟨name, -, rfl⟩ := Client.baseRequest_eq_ok hrequest
    rw [← Except.ok.inj hbase, List.flatMap_singleton, Client.decode, if_pos]
    dsimp only
    split
    · exact Or.inl rfl
    · exact Or.inr rfl
  · have hempty : (cl.baseItem found.diffs).isEmpty = true := by
      simp only [Client.queuesBase, Bool.not_eq_true', Bool.not_eq_false,
        Bool.and_eq_true] at hqueues
      exact hqueues.1
    obtain ⟨⟨hadd, hdel⟩, hscalars⟩ : ((cl.baseItem found.diffs).addattr.isEmpty
        = true ∧ (cl.baseItem found.diffs).delattr.isEmpty = true) ∧
        (cl.baseItem found.diffs).scalars.isEmpty = true := by
      simpa [BaseItem.isEmpty] using hempty
    have hitems : (cl.baseItem found.diffs).scalars.items = [] := by
      rw [Dict.items, List.isEmpty_iff.mp hscalars, List.map_nil]
    rw [← Except.ok.inj hbase, List.flatMap_nil, modRewriteListChanges,
      if_pos hadd, if_pos hdel, decodeBase_insert, decodeBase, hitems]
    · rfl
    · exact Dict.isEmpty_iff.mp hscalars "all"

/-- The enable or disable request changes no managed attribute. -/
theorem decode_flagEntries (cl : Client) (m : AnsibleModule) (found : Found) :
    (cl.flagEntries m found).flatMap (fun entry => cl.decode entry.request) =
      [] := by
  rw [List.flatMap_eq_nil_iff]
  intro entry hentry
  obtain ⟨haddOn, haddOff, -, hmodOn, hmodOff, -⟩ := baseMethod_not_later cl
  obtain ⟨hroute, hroute'⟩ := flagMethod_not_route cl
  have hitem : entry.request.item = ∅ := by
    obtain ⟨flag, -, rfl⟩ := Option.map_eq_some_iff.mp
      (Option.mem_toList.mp hentry)
    rfl
  rcases method_of_mem_flagEntries hentry with hmethod | hmethod
  · rw [Client.decode, hmethod, if_neg (by
      rintro (h | h)
      · exact haddOn h.symm
      · exact hmodOn h.symm), hroute, hitem]
    rfl
  · rw [Client.decode, hmethod, if_neg (by
      rintro (h | h)
      · exact haddOff h.symm
      · exact hmodOff h.symm), hroute', hitem]
    rfl

theorem decode_routeEntry {marks : Bool} {route : Route}
    (hroute : (marks, route) ∈ cl.routes)
    (hchanges : route.hasChanges found.diffs = true) :
    (cl.decode (cl.routeEntry m found route).request).Perm
      (route.changes found.diffs) := by
  obtain ⟨-, -, hadd, -, -, hmod⟩ := baseMethod_not_later cl
  have hmem : route.method ∈ cl.routes.map fun route => route.2.method :=
    List.mem_map.mpr ⟨(marks, route), hroute, rfl⟩
  have hmethod : (cl.routeEntry m found route).request.method = route.method :=
    Route.request_method _ _ _
  rw [Client.decode, hmethod, if_neg (by
    rintro (h | h)
    · exact hadd _ hmem h.symm
    · exact hmod _ hmem h.symm), routeOf_method cl _ hroute]
  exact Route.decode_request (routes_wellFormed cl _ hroute) hchanges _

theorem Route.changes_eq_nil {route : Route} {diffs : Changes}
    (hchanges : ¬route.hasChanges diffs = true) : route.changes diffs = [] := by
  rw [Route.hasChanges_iff] at hchanges
  refine List.flatMap_eq_nil_iff.mpr fun arg harg => ?_
  cases hvals : (diffs.side route.side).lookup arg.2 with
  | none => rfl
  | some vals => exact absurd ⟨arg, harg, vals, hvals⟩ hchanges

theorem decode_routeEntries (cl : Client) (m : AnsibleModule)
    (found : Found) :
    ((cl.routeEntries m found).flatMap fun entry =>
      cl.decode entry.request).Perm
      (cl.routeSideChanges found.diffs .add ++
        cl.routeSideChanges found.diffs .del) := by
  have hside : ∀ side, cl.routeSideChanges found.diffs side =
      ((cl.routes.map Prod.snd).filter fun route => route.side = side).flatMap
        fun route => route.changes found.diffs := by
    intro side
    rw [Client.routeSideChanges, Client.routeKeys, List.flatMap_assoc]
    refine List.flatMap_congr fun route hroute => ?_
    have hroute : route.side = side := by
      simpa using (List.mem_filter.mp hroute).2
    rw [List.flatMap_map, Route.changes, hroute]
  have hsplit : ((cl.routes.map Prod.snd).filter
        (fun route => decide (route.side = .add)) ++
      (cl.routes.map Prod.snd).filter
        (fun route => decide (route.side = .del))).Perm
      (cl.routes.map Prod.snd) := by
    have hnot : ∀ route : Route, decide (route.side = .del) =
        !decide (route.side = .add) := by
      intro route
      cases route.side <;> rfl
    simp only [hnot]
    exact List.filter_append_perm _ _
  rw [hside, hside, ← List.flatMap_append]
  refine List.Perm.trans ?_ (hsplit.symm.flatMap_right _)
  rw [Client.routeEntries, List.flatMap_map]
  have hroutes : ∀ routes : List Route,
      (∀ route ∈ routes, ∃ marks, (marks, route) ∈ cl.routes) →
      ((routes.filter fun route => route.hasChanges found.diffs).flatMap
        fun route => cl.decode (cl.routeEntry m found route).request).Perm
        (routes.flatMap fun route => route.changes found.diffs) := by
    intro routes hmem
    induction routes with
    | nil => simp
    | cons route rest ih =>
        obtain ⟨marks, hroute⟩ := hmem route List.mem_cons_self
        have hrest := ih fun route hroute =>
          hmem route (List.mem_cons_of_mem _ hroute)
        by_cases hchanges : route.hasChanges found.diffs = true
        · simp only [List.filter_cons, hchanges, if_true, List.flatMap_cons]
          exact (decode_routeEntry hroute hchanges).append hrest
        · simp only [List.filter_cons, hchanges, if_false, List.flatMap_cons,
            Route.changes_eq_nil hchanges, List.nil_append,
            Bool.false_eq_true]
          exact hrest
  exact hroutes _ fun route hroute => by
    obtain ⟨⟨marks, route'⟩, hmem, rfl⟩ := List.mem_map.mp hroute
    exact ⟨marks, hmem⟩

/-- The parts of a queue outside check mode that `rem` does not end. -/
theorem queue_parts {q : Queue} (hreal : m.checkMode = false)
    (hends : cl.remEnds m found = false)
    (hqueue : cl.queueRequests m found = .ok q) :
    ∃ base, cl.baseEntries m found = .ok base ∧
      q.entries = base ++ (cl.flagEntries m found ++ cl.routeEntries m found) ∧
      q.changed = cl.marksChanged found := by
  rw [queueRequests_of_not_remEnds hends] at hqueue
  cases hbase : cl.baseEntries m found with
  | error err => simp [hbase, Except.map] at hqueue
  | ok base =>
      simp only [hbase, Except.map, hreal, Bool.false_eq_true, if_false,
        Except.ok.injEq] at hqueue
      subst hqueue
      exact ⟨base, rfl, rfl, rfl⟩

theorem not_cert_absent_of_not_remEnds (hends : cl.remEnds m found = false) :
    ¬(cl = .cert ∧ m.state = .absent) := by
  rintro ⟨rfl, hstate⟩
  simp [Client.remEnds, Client.isRemParamRequest, hstate] at hends

/-- The requests of a queue, decoded, are the managed part of the diff. -/
theorem FindSteps.decode_queue (steps : FindSteps cl m reply found obj)
    {q : Queue} (hreal : m.checkMode = false)
    (hends : cl.remEnds m found = false)
    (hqueue : cl.queueRequests m found = .ok q) :
    (q.entries.flatMap fun entry => cl.decode entry.request).Perm
      (cl.managedChanges found.diffs) := by
  obtain ⟨base, hbase, hentries, -⟩ := queue_parts hreal hends hqueue
  have hcert := not_cert_absent_of_not_remEnds hends
  have hadd := steps.sideChanges_perm hcert .add
  have hdel := steps.sideChanges_perm hcert .del
  have hbaseItem := decode_baseItem cl found.diffs
  rw [steps.scalarSets_eq hcert] at hbaseItem
  rw [hentries, List.flatMap_append, List.flatMap_append,
    decode_baseEntries hbase, decode_flagEntries, List.nil_append]
  refine (hbaseItem.append (decode_routeEntries cl m found)).trans ?_
  refine List.Perm.trans ?_ ((hadd.append hdel).append_right _)
  rw [← Multiset.coe_eq_coe]
  simp only [← Multiset.coe_add]
  abel

/-! ## When something changes -/

theorem FindSteps.side_ne_nil (steps : FindSteps cl m reply found obj)
    (hends : ¬(cl = .cert ∧ m.state = .absent)) {side : Side} {key : String}
    {vals : List Atom}
    (hvals : (found.diffs.side side).lookup key = some vals) : vals ≠ [] := by
  have hdiffs := Client.computeChanges_eq steps.diffs hends
  cases side with
  | add =>
      rw [Changes.side, ClientClass.lookup_listAdd hdiffs,
        nonempty_eq_some_iff] at hvals
      exact hvals.1 ▸ hvals.2
  | del =>
      rw [Changes.side, ClientClass.lookup_listDel hdiffs,
        nonempty_eq_some_iff] at hvals
      exact hvals.1 ▸ hvals.2

theorem FindSteps.side_eq_none_iff (steps : FindSteps cl m reply found obj)
    (hends : ¬(cl = .cert ∧ m.state = .absent)) (side : Side) (key : String) :
    (found.diffs.side side).lookup key = none ↔
      ∀ a, ¬∃ vals, (found.diffs.side side).lookup key = some vals ∧
        a ∈ vals := by
  constructor
  · rintro hnone a ⟨vals, hvals, -⟩
    rw [hnone] at hvals
    contradiction
  · intro hempty
    by_contra hvals
    obtain ⟨vals, hvals⟩ := Option.ne_none_iff_exists'.mp hvals
    obtain ⟨a, ha⟩ :=
      List.exists_mem_of_ne_nil _ (steps.side_ne_nil hends hvals)
    exact hempty a ⟨vals, hvals, ha⟩

theorem FindSteps.lookup_side_eq_none (steps : FindSteps cl m reply found obj)
    (hends : ¬(cl = .cert ∧ m.state = .absent))
    (hnone : cl.managedChanges found.diffs = []) (side : Side) {key : String}
    (hkey : key ∈ cl.cls.baseKeys ∨ key ∈ cl.routeKeys side) :
    (found.diffs.side side).lookup key = none := by
  by_contra hvals
  obtain ⟨vals, hvals⟩ := Option.ne_none_iff_exists'.mp hvals
  have hside : cl.sideChanges found.diffs side = [] := by
    rw [Client.managedChanges, List.append_eq_nil_iff,
      List.append_eq_nil_iff] at hnone
    cases side with
    | add => exact hnone.1.1
    | del => exact hnone.1.2
  have hitem : (key, vals) ∈ (found.diffs.side side).items.filter
      fun item => cl.Managed item.1 := by
    rw [List.mem_filter, decide_eq_true_eq,
      steps.managed_list_iff hends hvals]
    exact ⟨Dict.mem_items_iff.mpr hvals, hkey⟩
  have hmap := List.flatMap_eq_nil_iff.mp hside _ hitem
  exact steps.side_ne_nil hends hvals (List.map_eq_nil_iff.mp hmap)

/-- A queue is empty exactly when the object exists, nothing managed differs
and the flag is left alone. -/
theorem FindSteps.entries_eq_nil_iff (steps : FindSteps cl m reply found obj)
    {q : Queue} (hreal : m.checkMode = false)
    (hends : cl.remEnds m found = false)
    (hqueue : cl.queueRequests m found = .ok q) :
    q.entries = [] ↔ cl.managedChanges found.diffs = [] ∧
      found.objectExists = true ∧ cl.flagEntries m found = [] := by
  obtain ⟨base, hbase, hentries, -⟩ := queue_parts hreal hends hqueue
  have hcert := not_cert_absent_of_not_remEnds hends
  constructor
  · intro hnil
    have hdecode := steps.decode_queue hreal hends hqueue
    rw [hnil, List.flatMap_nil] at hdecode
    rw [hnil, eq_comm, List.append_eq_nil_iff, List.append_eq_nil_iff]
      at hentries
    obtain ⟨rfl, hflag, -⟩ := hentries
    refine ⟨hdecode.symm.eq_nil, ?_, hflag⟩
    unfold Client.baseEntries Client.queuesBase at hbase
    split_ifs at hbase with hqueues
    · obtain ⟨request, -, hbase⟩ := bind_eq_ok_iff.mp hbase
      simp at hbase
    · simp only [Bool.not_eq_true', Bool.not_eq_false, Bool.and_eq_true]
        at hqueues
      exact hqueues.2
  · rintro ⟨hnone, hexists, hflag⟩
    have hitem : (cl.baseItem found.diffs).isEmpty = true := by
      refine baseItem_isEmpty_iff.mpr fun key hkey =>
        ⟨steps.lookup_side_eq_none hcert hnone .add (Or.inl hkey),
          steps.lookup_side_eq_none hcert hnone .del (Or.inl hkey), ?_⟩
      by_contra hval
      obtain ⟨val, hval⟩ := Option.ne_none_iff_exists'.mp hval
      have hsets : cl.scalarSets found.diffs = [] := by
        rw [Client.managedChanges, List.append_eq_nil_iff] at hnone
        exact hnone.2
      have hmem : (key, val) ∈ found.diffs.scalars.items.filter
          fun item => cl.Managed item.1 := by
        rw [List.mem_filter, decide_eq_true_eq,
          steps.managed_scalar_iff hcert hval]
        exact ⟨Dict.mem_items_iff.mpr hval, hkey⟩
      rw [List.map_eq_nil_iff.mp hsets] at hmem
      simp at hmem
    have hroutes : cl.routeEntries m found = [] := by
      refine List.eq_nil_iff_forall_not_mem.mpr fun entry hentry => ?_
      obtain ⟨marks, route, hroute, hchanges, -⟩ :=
        Client.mem_routeEntries.mp hentry
      obtain ⟨arg, harg, vals, hvals⟩ := Route.hasChanges_iff.mp hchanges
      have hkey : arg.2 ∈ cl.routeKeys route.side :=
        List.mem_flatMap.mpr ⟨route, List.mem_filter.mpr
          ⟨List.mem_map.mpr ⟨(marks, route), hroute, rfl⟩, by simp⟩,
          List.mem_map_of_mem harg⟩
      rw [steps.lookup_side_eq_none hcert hnone _ (Or.inr hkey)] at hvals
      contradiction
    have hnobase : base = [] := by
      rw [Client.baseEntries, Client.queuesBase, hitem, hexists] at hbase
      exact (Except.ok.inj hbase).symm
    rw [hentries, hnobase, hflag, hroutes]
    rfl

/-- A handler that marks the object changed queues a request, outside check
mode. -/
theorem routeEntries_ne_nil_of_marksChanged
    (hmarks : cl.marksChanged found = true) : cl.routeEntries m found ≠ [] := by
  obtain ⟨⟨marks, route⟩, hroute, hchanges⟩ := List.any_eq_true.mp hmarks
  rw [Bool.and_eq_true] at hchanges
  exact List.ne_nil_of_mem (Client.mem_routeEntries.mpr
    ⟨marks, route, hroute, hchanges.2, rfl⟩)

theorem ensure_changed_iff {σ : Type} {q : Queue} {post : Post σ}
    {server : σ} {run : Val × Bool × σ} (hfind : cl.find m reply = .ok found)
    (hreal : m.checkMode = false) (hends : cl.remEnds m found = false)
    (hqueue : cl.queueRequests m found = .ok q)
    (hensure : cl.ensure m reply post server = .ok run) :
    run.2.1 = true ↔ q.entries ≠ [] := by
  obtain ⟨base, hbase, hentries, hmarks⟩ := queue_parts hreal hends hqueue
  simp only [Client.ensure, hfind, hqueue, ok_bind] at hensure
  rw [processQueue_changed hensure, hmarks, Bool.or_eq_true,
    Bool.not_eq_true', List.isEmpty_eq_false_iff]
  refine or_iff_right_of_imp fun hchanged => ?_
  rw [hentries]
  simp [routeEntries_ne_nil_of_marksChanged hchanged]

/-- Only the enable or disable request has a flag method. -/
theorem mem_flagEntries_of_method {q : Queue}
    (hends : cl.remEnds m found = false)
    (hqueue : cl.queueRequests m found = .ok q) {entry : QueueEntry}
    (hentry : entry ∈ q.entries)
    (hmethod : entry.request.method = cl.method .enabled ∨
      entry.request.method = cl.method .disabled) :
    entry ∈ cl.flagEntries m found := by
  obtain ⟨haddOn, haddOff, -, hmodOn, hmodOff, -⟩ := baseMethod_not_later cl
  rcases queueEntry_cases hends hqueue hentry with
    ⟨-, hbase⟩ | ⟨-, hflag⟩ | ⟨-, hroute⟩
  · obtain ⟨name, -, heq⟩ := Client.baseRequest_eq_ok hbase
    rw [heq] at hmethod
    dsimp only at hmethod
    split at hmethod
    · exact (hmethod.elim haddOn haddOff).elim
    · exact (hmethod.elim hmodOn hmodOff).elim
  · exact hflag
  · obtain ⟨⟨marks, route⟩, hmem, heq⟩ :=
      List.mem_map.mp (method_of_mem_routeEntries hroute)
    have hsome := routeOf_method cl _ hmem
    have hnone : cl.routeOf route.method = none := by
      rw [show route.method = entry.request.method from heq]
      rcases hmethod with h | h
      · rw [h, (flagMethod_not_route cl).1]
      · rw [h, (flagMethod_not_route cl).2]
    rw [hnone] at hsome
    contradiction

theorem flagEntries_ne_nil_iff {q : Queue} (hreal : m.checkMode = false)
    (hends : cl.remEnds m found = false)
    (hqueue : cl.queueRequests m found = .ok q) :
    cl.flagEntries m found ≠ [] ↔ ∃ entry ∈ q.entries,
      entry.request.method = cl.method .enabled ∨
        entry.request.method = cl.method .disabled := by
  constructor
  · intro hne
    obtain ⟨base, -, hentries, -⟩ := queue_parts hreal hends hqueue
    obtain ⟨entry, hentry⟩ := List.exists_mem_of_ne_nil _ hne
    refine ⟨entry, ?_, method_of_mem_flagEntries hentry⟩
    rw [hentries]
    exact List.mem_append_right _ (List.mem_append_left _ hentry)
  · rintro ⟨entry, hentry, hmethod⟩
    exact List.ne_nil_of_mem
      (mem_flagEntries_of_method hends hqueue hentry hmethod)

end Decoding

/-! ## The diff itself -/

def Client.sideDiff (cl : Client) (diffs : Changes) (side : Side) :
    List Change :=
  ((diffs.side side).items.filter fun item => cl.Managed item.1).flatMap
    fun item => item.2.map (side.change item.1)

/-- The diff of the managed attributes, with its own values. -/
def Client.managedDiff (cl : Client) (diffs : Changes) : List Change :=
  cl.sideDiff diffs .add ++ cl.sideDiff diffs .del ++ cl.scalarSets diffs

/-- A change as the requests carry it. -/
def Client.onWire (cl : Client) : Change → Change
  | .add key val => .add key (cl.wire key val)
  | .del key val => .del key (cl.wire key val)
  | change => change

def Atom.IsStr : Atom → Prop
  | .str _ => True
  | _ => False

instance : DecidablePred Atom.IsStr := fun a => by
  cases a <;> unfold Atom.IsStr <;> infer_instance

/-- The values that the base request adds to and removes from list attributes
are strings: those a task gives and the object lacks, in state `exact` those
the object has and the task does not give, in state `absent` those of both. -/
def Client.StringValues (cl : Client) (state : State)
    (desired current : Dict String Val) : Prop :=
  ∀ key ∈ cl.cls.baseKeys,
    (∀ a ∈ listAddValues state (cl.cls.members desired key)
      (cl.cls.members current key), a.IsStr) ∧
    ∀ a ∈ listDelValues state (cl.cls.members desired key)
      (cl.cls.members current key), a.IsStr

instance (cl : Client) (state : State) (desired current : Dict String Val) :
    Decidable (cl.StringValues state desired current) :=
  inferInstanceAs (Decidable (∀ key ∈ cl.cls.baseKeys, _ ∧ _))

theorem map_perm_self_iff {α : Type} {f : α → α}
    (hidem : ∀ a, f (f a) = f a) {items : List α} :
    (items.map f).Perm items ↔ ∀ a ∈ items, f a = a := by
  constructor
  · intro hperm a ha
    obtain ⟨b, -, rfl⟩ := List.mem_map.mp (hperm.mem_iff.mpr ha)
    exact hidem b
  · intro hfixed
    rw [List.map_congr_left hfixed, List.map_id']

theorem Client.onWire_onWire (cl : Client) (change : Change) :
    cl.onWire (cl.onWire change) = cl.onWire change := by
  cases change with
  | add key val | del key val =>
      simp only [onWire, wire]
      split <;> rfl
  | set | other => rfl

theorem Client.onWire_side (cl : Client) (side : Side) (key : String)
    (val : Atom) : cl.onWire (side.change key val) =
      side.change key (cl.wire key val) := by
  cases side <;> rfl

theorem Client.managedChanges_eq (cl : Client) (diffs : Changes) :
    cl.managedChanges diffs = (cl.managedDiff diffs).map cl.onWire := by
  have hside : ∀ side, cl.sideChanges diffs side =
      (cl.sideDiff diffs side).map cl.onWire := by
    intro side
    rw [sideDiff, List.map_flatMap]
    refine List.flatMap_congr fun item _ => ?_
    rw [List.map_map]
    exact List.map_congr_left fun val _ => (cl.onWire_side side _ val).symm
  have hsets : cl.scalarSets diffs = (cl.scalarSets diffs).map cl.onWire := by
    rw [scalarSets, List.map_map]
    rfl
  rw [managedChanges, managedDiff, List.map_append, List.map_append, ← hside,
    ← hside, ← hsets]

theorem Client.onWire_eq_self_iff {cl : Client} {side : Side} {key : String}
    {val : Atom} : cl.onWire (side.change key val) = side.change key val ↔
      (key ∈ cl.cls.baseKeys → val.IsStr) := by
  have hchange : ∀ a b, side.change key a = side.change key b ↔ a = b := by
    intro a b
    cases side <;> simp [Side.change]
  rw [onWire_side, hchange, wire]
  by_cases hkey : key ∈ cl.cls.baseKeys
  · cases val <;> simp [hkey, Atom.pyStr, Atom.IsStr]
  · simp [hkey]

theorem Client.mem_sideDiff {cl : Client} {diffs : Changes} {side : Side}
    {change : Change} : change ∈ cl.sideDiff diffs side ↔
      ∃ key vals a, cl.Managed key ∧
        (diffs.side side).lookup key = some vals ∧ a ∈ vals ∧
        side.change key a = change := by
  simp only [sideDiff, List.mem_flatMap, List.mem_filter, List.mem_map,
    decide_eq_true_eq, Prod.exists, Dict.mem_items_iff]
  constructor
  · rintro ⟨key, vals, ⟨hvals, hkey⟩, a, ha, rfl⟩
    exact ⟨key, vals, a, hkey, hvals, ha, rfl⟩
  · rintro ⟨key, vals, a, hkey, hvals, ha, rfl⟩
    exact ⟨key, vals, ⟨hvals, hkey⟩, a, ha, rfl⟩

theorem Client.mem_managedDiff {cl : Client} {diffs : Changes}
    {change : Change} : change ∈ cl.managedDiff diffs ↔
      (∃ side, change ∈ cl.sideDiff diffs side) ∨
        change ∈ cl.scalarSets diffs := by
  rw [managedDiff, List.mem_append, List.mem_append]
  refine or_congr ⟨?_, ?_⟩ Iff.rfl
  · rintro (hadd | hdel)
    · exact ⟨.add, hadd⟩
    · exact ⟨.del, hdel⟩
  · rintro ⟨side, hside⟩
    cases side with
    | add => exact Or.inl hside
    | del => exact Or.inr hside

/-- The requests carry a diff as it is exactly when what the base request has
of it are strings. -/
theorem Client.onWire_managedDiff_iff (cl : Client) (diffs : Changes) :
    (∀ change ∈ cl.managedDiff diffs, cl.onWire change = change) ↔
      ∀ side key vals, cl.Managed key → key ∈ cl.cls.baseKeys →
        (diffs.side side).lookup key = some vals → ∀ a ∈ vals, a.IsStr := by
  constructor
  · intro hfixed side key vals hmanaged hkey hvals a ha
    have hchange : side.change key a ∈ cl.managedDiff diffs :=
      Client.mem_managedDiff.mpr (Or.inl ⟨side,
        Client.mem_sideDiff.mpr ⟨key, vals, a, hmanaged, hvals, ha, rfl⟩⟩)
    exact Client.onWire_eq_self_iff.mp (hfixed _ hchange) hkey
  · intro hstrs change hchange
    rcases Client.mem_managedDiff.mp hchange with ⟨side, hside⟩ | hset
    · obtain ⟨key, vals, a, hmanaged, hvals, ha, rfl⟩ :=
        Client.mem_sideDiff.mp hside
      exact Client.onWire_eq_self_iff.mpr fun hkey =>
        hstrs side key vals hmanaged hkey hvals a ha
    · obtain ⟨item, -, rfl⟩ := List.mem_map.mp hset
      rfl

/-- The requests carry the diff as it is exactly when they carry strings. -/
theorem FindSteps.onWire_eq_self_iff {cl : Client} {m : AnsibleModule}
    {reply : FindReply} {found : Found} {obj : Dict String Val}
    (steps : FindSteps cl m reply found obj)
    (hends : ¬(cl = .cert ∧ m.state = .absent)) :
    (∀ change ∈ cl.managedDiff found.diffs, cl.onWire change = change) ↔
      cl.StringValues m.state found.canonParams found.responseCleaned := by
  have hdiffs := Client.computeChanges_eq steps.diffs hends
  rw [cl.onWire_managedDiff_iff]
  constructor
  · intro hstrs key hkey
    have hside : ∀ side vals, (found.diffs.side side).lookup key = some vals →
        ∀ a ∈ vals, a.IsStr := fun side vals hvals =>
      hstrs side key vals
        ((steps.managed_list_iff hends hvals).mpr (Or.inl hkey)) hkey hvals
    constructor
    · intro a ha
      refine hside .add _ ?_ a ha
      rw [Changes.side, ClientClass.lookup_listAdd hdiffs,
        nonempty_eq_some_iff]
      exact ⟨rfl, List.ne_nil_of_mem ha⟩
    · intro a ha
      refine hside .del _ ?_ a ha
      rw [Changes.side, ClientClass.lookup_listDel hdiffs,
        nonempty_eq_some_iff]
      exact ⟨rfl, List.ne_nil_of_mem ha⟩
  · intro hstrs side key vals _ hkey hvals
    cases side with
    | add =>
        rw [Changes.side, ClientClass.lookup_listAdd hdiffs,
          nonempty_eq_some_iff] at hvals
        exact hvals.1 ▸ (hstrs key hkey).1
    | del =>
        rw [Changes.side, ClientClass.lookup_listDel hdiffs,
          nonempty_eq_some_iff] at hvals
        exact hvals.1 ▸ (hstrs key hkey).2

/-- Outside check mode, the requests of a queue that `rem` did not end encode
the diff of the managed attributes, each change once, and the run reports a
change exactly when it had a request to post: when something managed differs,
no object matched, or the object is enabled or disabled.  All of this holds
exactly when the list values of the base request are strings; other values it
carries as the strings they print as. -/
theorem queue_encodes_diff_iff {cl : Client} {m : AnsibleModule}
    {reply : FindReply} {found : Found} {q : Queue}
    (hfind : cl.find m reply = .ok found) (hreal : m.checkMode = false)
    (hends : cl.remEnds m found = false)
    (hqueue : cl.queueRequests m found = .ok q) :
    ((q.entries.flatMap fun entry => cl.decode entry.request).Perm
        (cl.managedDiff found.diffs) ∧
      (q.entries ≠ [] ↔ cl.managedDiff found.diffs ≠ [] ∨
        reply.result = [] ∨ ∃ entry ∈ q.entries,
          entry.request.method = cl.method .enabled ∨
            entry.request.method = cl.method .disabled) ∧
      ∀ (σ : Type) (post : Post σ) (server : σ) (run : Val × Bool × σ),
        cl.ensure m reply post server = .ok run →
          (run.2.1 = true ↔ q.entries ≠ [])) ↔
    cl.StringValues m.state found.canonParams found.responseCleaned := by
  obtain ⟨obj, steps⟩ := Client.find_steps hfind
  have hcert := not_cert_absent_of_not_remEnds hends
  have hdecode := steps.decode_queue hreal hends hqueue
  rw [← steps.onWire_eq_self_iff hcert,
    ← map_perm_self_iff cl.onWire_onWire, ← cl.managedChanges_eq]
  refine ⟨fun hencodes => hdecode.symm.trans hencodes.1, fun hperm =>
    ⟨hdecode.trans hperm, ?_, ?_⟩⟩
  · have hempty : cl.managedDiff found.diffs ≠ [] ↔
        cl.managedChanges found.diffs ≠ [] := by
      rw [cl.managedChanges_eq, ne_eq, ne_eq, List.map_eq_nil_iff]
    rw [hempty, ← flagEntries_ne_nil_iff hreal hends hqueue, ne_eq,
      steps.entries_eq_nil_iff hreal hends hqueue,
      ← FindReply.objectExists_eq_false_iff, ← steps.objectExists,
      ← Bool.not_eq_true]
    tauto
  · intro σ post server run hensure
    exact ensure_changed_iff hfind hreal hends hqueue hensure

/-- A user that is to have these mail addresses. -/
def brainMail (mail : List Val) : AnsibleModule :=
  userClass.ansibleModule {
    given := Dict.ofList [("uid", .str "brain"), ("mail", .list mail)] (by simp)
    state := .present }

/-- The reply with the user, who has one address. -/
def brainMailReply : FindReply :=
  .ofList [Dict.ofList [("uid", .list [.str "brain"]),
    ("mail", .list [.str "brain@example.com"]),
    ("nsaccountlock", .bool false)]]

/-- A number and its text are two values of the diff and one of the
request. -/
theorem brainMail_not_encoded :
    ¬∀ (cl : Client) (m : AnsibleModule) (reply : FindReply) (found : Found)
      (q : Queue), cl.find m reply = .ok found → m.checkMode = false →
      cl.remEnds m found = false → cl.queueRequests m found = .ok q →
      (q.entries.flatMap fun entry => cl.decode entry.request).Perm
        (cl.managedDiff found.diffs) := by
  intro hencodes
  have hrun : ∃ found q,
      Client.user.find (brainMail [.int 5, .str "5"]) brainMailReply =
        .ok found ∧
      Client.user.remEnds (brainMail [.int 5, .str "5"]) found = false ∧
      Client.user.queueRequests (brainMail [.int 5, .str "5"]) found =
        .ok q ∧
      (q.entries.flatMap fun entry => Client.user.decode entry.request) =
        [.add "mail" (.str "5"), .add "mail" (.str "5")] ∧
      Client.user.managedDiff found.diffs =
        [.add "mail" (.int 5), .add "mail" (.str "5")] :=
    ⟨_, _, rfl, rfl, rfl, rfl, rfl⟩
  obtain ⟨found, q, hfind, hends, hqueue, hdecoded, hdiff⟩ := hrun
  have hperm := hencodes .user _ _ found q hfind rfl hends hqueue
  rw [hdecoded, hdiff] at hperm
  have hmem := hperm.mem_iff.mpr List.mem_cons_self
  simp at hmem

theorem brainMail_encodes :
    ∃ found q, Client.user.find
        (brainMail [.str "brain@example.com", .str "narf@example.com"])
        brainMailReply = .ok found ∧
      Client.user.queueRequests
        (brainMail [.str "brain@example.com", .str "narf@example.com"]) found =
        .ok q ∧
      (q.entries.flatMap fun entry => Client.user.decode entry.request).Perm
        (Client.user.managedDiff found.diffs) := by
  have hrun : ∃ found q, Client.user.find
        (brainMail [.str "brain@example.com", .str "narf@example.com"])
        brainMailReply = .ok found ∧
      Client.user.remEnds
        (brainMail [.str "brain@example.com", .str "narf@example.com"])
        found = false ∧
      Client.user.queueRequests
        (brainMail [.str "brain@example.com", .str "narf@example.com"]) found =
        .ok q ∧
      Client.user.StringValues .present found.canonParams
        found.responseCleaned :=
    ⟨_, _, rfl, rfl, rfl, by decide +kernel⟩
  obtain ⟨found, q, hfind, hends, hqueue, hstrs⟩ := hrun
  exact ⟨found, q, hfind, hqueue,
    ((queue_encodes_diff_iff hfind rfl hends hqueue).mpr hstrs).1⟩

end FreeipaProv
