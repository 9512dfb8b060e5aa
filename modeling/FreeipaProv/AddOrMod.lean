import FreeipaProv.Diffs

/-!
# Adding or modifying

`add_or_mod` decides twice whether the object exists.  Whether there is
anything to do depends on the number of objects the find request matched;
whether the request adds or modifies depends on the cleaned reply.  The two
disagree on an object that keeps no attribute after cleaning, and neither
looks at the state of the task.
-/

namespace FreeipaProv

open Fallible

/-! ## Which requests add and modify -/

theorem remMethod_ne (cl : Client) :
    cl.method .rem ≠ cl.method .add ∧ cl.method .rem ≠ cl.method .mod := by
  cases cl <;> decide

theorem addMethod_ne_modMethod {cl : Client} (hcert : cl ≠ .cert) :
    cl.method .add ≠ cl.method .mod := by
  cases cl <;> first | decide | contradiction

/-- A queue that `rem` ends has delete requests only. -/
theorem method_of_remEnds {cl : Client} {m : AnsibleModule} {found : Found}
    {q : Queue} (hends : cl.remEnds m found = true)
    (hqueue : cl.queueRequests m found = .ok q) {entry : QueueEntry}
    (hentry : entry ∈ q.entries) : entry.request.method = cl.method .rem := by
  rw [queueRequests_of_remEnds hends, Client.remQueue] at hqueue
  split_ifs at hqueue
  · simp only [Except.ok.injEq] at hqueue
    subst hqueue
    simp [Queue.initial] at hentry
  · obtain ⟨name, -, hqueue⟩ := bind_eq_ok_iff.mp hqueue
    obtain ⟨item, -, hqueue⟩ := bind_eq_ok_iff.mp hqueue
    simp only [Except.ok.injEq] at hqueue
    subst hqueue
    simp only [Queue.push, Queue.initial, List.nil_append,
      List.mem_singleton] at hentry
    rw [hentry]

/-- An add request is a base request for an object that is absent. -/
theorem isAbsent_of_addMethod {cl : Client} (hcert : cl ≠ .cert)
    {m : AnsibleModule} {found : Found} {q : Queue}
    (hqueue : cl.queueRequests m found = .ok q) {entry : QueueEntry}
    (hentry : entry ∈ q.entries)
    (hadd : entry.request.method = cl.method .add) :
    cl.remEnds m found = false ∧ cl.queuesBase found = true ∧
      found.isAbsent = true := by
  cases hends : cl.remEnds m found with
  | true =>
      have hrem := method_of_remEnds hends hqueue hentry
      exact absurd (hrem.symm.trans hadd) (remMethod_ne cl).1
  | false =>
      obtain ⟨hqueues, hrequest⟩ :=
        baseRequest_of_method hends hqueue hentry (Or.inl hadd)
      obtain ⟨name, -, heq⟩ := Client.baseRequest_eq_ok hrequest
      refine ⟨rfl, hqueues, ?_⟩
      cases habsent : found.isAbsent with
      | true => rfl
      | false =>
          rw [heq, habsent] at hadd
          exact absurd hadd.symm (addMethod_ne_modMethod hcert)

/-- A mod request is a base request for an object that is not absent. -/
theorem not_isAbsent_of_modMethod {cl : Client} (hcert : cl ≠ .cert)
    {m : AnsibleModule} {found : Found} {q : Queue}
    (hqueue : cl.queueRequests m found = .ok q) {entry : QueueEntry}
    (hentry : entry ∈ q.entries)
    (hmod : entry.request.method = cl.method .mod) :
    found.isAbsent = false := by
  cases hends : cl.remEnds m found with
  | true =>
      have hrem := method_of_remEnds hends hqueue hentry
      exact absurd (hrem.symm.trans hmod) (remMethod_ne cl).2
  | false =>
      obtain ⟨-, hrequest⟩ :=
        baseRequest_of_method hends hqueue hentry (Or.inr hmod)
      obtain ⟨name, -, heq⟩ := Client.baseRequest_eq_ok hrequest
      cases habsent : found.isAbsent with
      | true =>
          rw [heq, habsent] at hmod
          exact absurd hmod (addMethod_ne_modMethod hcert)
      | false => rfl

/-! ## Request names after a successful find -/

/-- A task that `find` accepts has the parameters its requests are named
by. -/
theorem modRequestParams_isOk {cl : Client} (hcert : cl ≠ .cert)
    {m : AnsibleModule} {request : Request}
    (hrequest : cl.findRequest m = .ok request) :
    ∃ name, cl.modRequestParams m = .ok name := by
  cases cl with
  | dnsrecord =>
      obtain ⟨name, hname, hrequest⟩ := bind_eq_ok_iff.mp hrequest
      obtain ⟨item, hitem, -⟩ := bind_eq_ok_iff.mp hrequest
      obtain ⟨params, hparams, hname⟩ := bind_eq_ok_iff.mp hname
      obtain ⟨zone, hzone, -⟩ := bind_eq_ok_iff.mp hname
      obtain ⟨params', hparams', hitem⟩ := bind_eq_ok_iff.mp hitem
      obtain ⟨idnsname, hidnsname, -⟩ := bind_eq_ok_iff.mp hitem
      rw [hparams] at hparams'
      obtain rfl := Except.ok.inj hparams'
      refine ⟨[zone, .dict [("__dns_name__", idnsname)]], ?_⟩
      simp [Client.modRequestParams, dnsrecordModRequestParams, hparams,
        hzone, hidnsname]
  | cert => contradiction
  | user | group | service | caacl | dnszone | ca => exact ⟨_, rfl⟩

/-- A base request for an absent object is never rejected. -/
theorem queueRequests_of_add {cl : Client} (hcert : cl ≠ .cert)
    {m : AnsibleModule} {found : Found} {request : Request}
    (hrequest : cl.findRequest m = .ok request)
    (hends : cl.remEnds m found = false)
    (hqueues : cl.queuesBase found = true)
    (habsent : found.isAbsent = true) :
    ∃ q, cl.queueRequests m found = .ok q ∧
      ∃ entry ∈ q.entries, entry.request.method = cl.method .add := by
  obtain ⟨name, hname⟩ := modRequestParams_isOk hcert hrequest
  have hbase : cl.baseRequest m found = .ok {
      method := cl.method .add
      name
      item := modRewriteListChanges (cl.baseItem found.diffs) } := by
    unfold Client.baseRequest
    simp only [hname, ok_bind, habsent, if_true]
    cases cl with
    | ca =>
        have hne : Client.ca.method .add ≠ "ca_mod" := by decide
        simp [caModRewriteListChanges, hne]
    | user | group | service | caacl | dnszone | dnsrecord | cert => rfl
  rw [queueRequests_of_not_remEnds hends, Client.baseEntries, if_pos hqueues,
    hbase]
  exact ⟨_, rfl, _, List.mem_append_left _ (List.mem_singleton.mpr rfl), rfl⟩

/-- Only the ca client rejects a base request. -/
theorem queueRequests_isOk (cl : Client) (hca : cl ≠ .ca)
    {m : AnsibleModule} {found : Found} {name : List Val}
    (hname : cl.modRequestParams m = .ok name)
    (hends : cl.remEnds m found = false) :
    ∃ q, cl.queueRequests m found = .ok q := by
  have hrequest : ∃ request, cl.baseRequest m found = .ok request := by
    unfold Client.baseRequest
    rw [hname, ok_bind]
    cases cl <;> first | exact ⟨_, rfl⟩ | contradiction
  obtain ⟨request, hrequest⟩ := hrequest
  rw [queueRequests_of_not_remEnds hends, Client.baseEntries, hrequest]
  cases cl.queuesBase found <;> exact ⟨_, rfl⟩

/-! ## The diff against an absent object -/

theorem Found.isAbsent_iff {found : Found} :
    found.isAbsent = true ↔
      ∀ key, found.responseCleaned.lookup key = none :=
  Dict.isEmpty_iff

section AbsentObject

variable {cl : Client} {m : AnsibleModule} {reply : FindReply} {found : Found}
  {obj : Dict String Val}

/-- In state `absent` the desired item is the cleaned parameters. -/
theorem FindSteps.lookup_desired_absent
    (steps : FindSteps cl m reply found obj) (hcert : cl ≠ .cert)
    (hstate : m.state = .absent) (key : String) :
    found.canonParams.lookup key =
      if key ∈ cl.cls.paramKeys then none
      else cl.cls.cleanedAt m.params key := by
  have hkey : ¬cl.Overrides m.state key := by
    simp [Client.Overrides, hstate, hcert]
  rw [Client.lookup_mungeModuleParams steps.desired hkey]
  simp [hstate]

theorem FindSteps.diffs_absent_of_isAbsent
    (steps : FindSteps cl m reply found obj) (hcert : cl ≠ .cert)
    (hstate : m.state = .absent) (habsent : found.isAbsent = true)
    (key : String) :
    found.diffs.listAdd.lookup key = none ∧
      found.diffs.listDel.lookup key = none ∧
      found.diffs.scalars.lookup key = none := by
  have hdiffs := Client.computeChanges_eq steps.diffs (by simp [hcert])
  rw [hstate] at hdiffs
  have hcurrent := Found.isAbsent_iff.mp habsent key
  refine ⟨?_, ?_, ?_⟩
  · rw [ClientClass.lookup_listAdd hdiffs, listAddValues, if_pos rfl]
    rfl
  · rw [ClientClass.lookup_listDel hdiffs, listDelValues,
      ClientClass.members_eq_nil hcurrent, pyIntersection_of_nil]
    rfl
  · rw [ClientClass.lookup_scalars_absent hdiffs,
      ClientClass.scalar_eq_none hcurrent, Option.getD_none]
    cases hval : cl.cls.scalar found.canonParams key with
    | none => rfl
    | some val =>
        have hdesired : found.canonParams.lookup key = some val := by
          rw [ClientClass.scalar_eq] at hval
          split at hval
          · contradiction
          · exact hval
        rw [steps.lookup_desired_absent hcert hstate] at hdesired
        split at hdesired
        · contradiction
        · obtain ⟨raw, type, -, -, hclean⟩ :=
            ClientClass.cleanedAt_eq_some hdesired
          have hne : val.pyEq .none = false :=
            Bool.eq_false_iff.mpr fun heq =>
              cleanValue_ne_none hclean (Val.pyEq_none heq)
          simp [hne]

theorem FindSteps.baseItem_isEmpty_of_absent
    (steps : FindSteps cl m reply found obj) (hcert : cl ≠ .cert)
    (hstate : m.state = .absent) (habsent : found.isAbsent = true) :
    (cl.baseItem found.diffs).isEmpty = true :=
  baseItem_isEmpty_iff.mpr fun key _ =>
    steps.diffs_absent_of_isAbsent hcert hstate habsent key

/-- Everything desired has to be added to an absent object. -/
theorem FindSteps.diffs_of_isAbsent
    (steps : FindSteps cl m reply found obj) (hstate : m.state ≠ .absent)
    (habsent : found.isAbsent = true) (key : String) :
    found.diffs.listAdd.lookup key =
        nonempty (cl.cls.members found.canonParams key) ∧
      found.diffs.listDel.lookup key = none ∧
      found.diffs.scalars.lookup key =
        cl.cls.scalar found.canonParams key := by
  have hdiffs := Client.computeChanges_eq steps.diffs (by simp [hstate])
  have hcurrent := Found.isAbsent_iff.mp habsent key
  refine ⟨?_, ?_, ?_⟩
  · rw [ClientClass.lookup_listAdd hdiffs, listAddValues, if_neg hstate,
      ClientClass.members_eq_nil hcurrent, pyDifference_of_nil]
  · rw [ClientClass.lookup_listDel hdiffs,
      ClientClass.members_eq_nil hcurrent]
    cases hm : m.state with
    | absent => exact absurd hm hstate
    | exact | present | enabled | disabled => rfl
  · rw [ClientClass.lookup_scalars hstate hdiffs,
      ClientClass.scalar_eq_none hcurrent]
    cases cl.cls.scalar found.canonParams key <;> rfl

end AbsentObject

/-! ## Tasks that set base attributes -/

/-- A base attribute has a value, one of the task or its default, or state
`exact` fills one in with its default. -/
def Client.SetsBase (cl : Client) (m : AnsibleModule) : Prop :=
  ∃ key ∈ cl.cls.baseKeys,
    (key ∉ cl.cls.paramKeys ∧ cl.cls.cleanedAt m.params key ≠ none) ∨
      (m.state = .exact ∧
        (cl.cls.argumentSpec.lookup key).bind ArgSpec.default ≠ none)

/-- Base keys are neither the enable flag nor list attributes with a
default. -/
theorem baseKeys_spec (cl : Client) : ∀ key ∈ cl.cls.baseKeys,
    cl.cls.enablekey ≠ some key ∧
      (cl.cls.paramType key = some .list →
        (cl.cls.argumentSpec.lookup key).bind ArgSpec.default = none) := by
  cases cl <;> decide

section SetsBase

variable {cl : Client} {m : AnsibleModule} {reply : FindReply} {found : Found}
  {obj : Dict String Val}

theorem FindSteps.lookup_desired_base
    (steps : FindSteps cl m reply found obj) (hcert : cl ≠ .cert)
    {key : String} (hkey : key ∈ cl.cls.baseKeys) :
    found.canonParams.lookup key =
      (if key ∈ cl.cls.paramKeys then none
        else cl.cls.cleanedAt m.params key).or
      (if m.state = .exact then
        (cl.cls.argumentSpec.lookup key).bind ArgSpec.default
      else none) := by
  refine Client.lookup_mungeModuleParams steps.desired ?_
  rintro (⟨hflag, -⟩ | ⟨hcl, -⟩)
  · exact (baseKeys_spec cl key hkey).1 hflag
  · exact hcert hcl

theorem FindSteps.setsBase_iff (steps : FindSteps cl m reply found obj)
    (hcert : cl ≠ .cert) :
    cl.SetsBase m ↔ ∃ key ∈ cl.cls.baseKeys,
      found.canonParams.lookup key ≠ none := by
  refine exists_congr fun key => and_congr_right fun hkey => ?_
  rw [steps.lookup_desired_base hcert hkey]
  simp only [ne_eq, Option.or_eq_none_iff]
  by_cases hparam : key ∈ cl.cls.paramKeys <;>
    by_cases hstate : m.state = .exact <;> simp [hparam, hstate, or_iff_not_imp_left]

theorem FindSteps.members_ne_nil (steps : FindSteps cl m reply found obj)
    (hcert : cl ≠ .cert) (hstate : m.state ≠ .absent) {key : String}
    (hkey : key ∈ cl.cls.baseKeys) (htype : cl.cls.paramType key = some .list)
    (hdesired : found.canonParams.lookup key ≠ none) :
    cl.cls.members found.canonParams key ≠ [] := by
  rw [steps.lookup_desired_base hcert hkey, (baseKeys_spec cl key hkey).2 htype,
    ite_self, Option.or_none] at hdesired
  have hlookup := steps.lookup_desired_base hcert hkey
  rw [(baseKeys_spec cl key hkey).2 htype, ite_self, Option.or_none] at hlookup
  obtain ⟨val, hval⟩ := Option.ne_none_iff_exists'.mp hdesired
  rw [hval] at hlookup
  split at hval
  · contradiction
  · obtain ⟨raw, type, -, htype', hclean⟩ := ClientClass.cleanedAt_eq_some hval
    obtain rfl : ParamType.list = type := by simpa [htype] using htype'
    obtain ⟨v, vs, rfl, -, -⟩ := cleanValue_list_eq_ok hclean
    have hslice : (cl.cls.listSlice found.canonParams).lookup key =
        some (.list (v :: vs)) := by
      rw [ClientClass.listSlice, Dict.lookup_filterMap, hlookup]
      simp [htype]
    have hadd := (ClientClass.computeChanges_parts
      (Client.computeChanges_eq steps.diffs (by simp [hstate]))).1
    rw [ClientClass.listAddChanges, if_pos hstate] at hadd
    obtain ⟨vals, hvals⟩ := (pySet_isOk_of_op hadd).1 hslice
    rw [ClientClass.members, hslice, Option.getD_some, hvals]
    exact pySet_ne_nil hvals

/-- The base request for an absent object is empty exactly when the task sets
no base attribute. -/
theorem FindSteps.baseItem_isEmpty_iff_of_isAbsent
    (steps : FindSteps cl m reply found obj) (hcert : cl ≠ .cert)
    (hstate : m.state ≠ .absent) (habsent : found.isAbsent = true) :
    (cl.baseItem found.diffs).isEmpty = true ↔ ¬cl.SetsBase m := by
  rw [baseItem_isEmpty_iff, steps.setsBase_iff hcert]
  simp only [not_exists, not_and, not_not]
  refine forall_congr' fun key => imp_congr_right fun hkey => ?_
  obtain ⟨hadd, hdel, hscalar⟩ := steps.diffs_of_isAbsent hstate habsent key
  rw [hadd, hdel, hscalar, nonempty_eq_none_iff, ClientClass.scalar_eq]
  by_cases htype : cl.cls.paramType key = some .list
  · simp only [htype, if_true, and_self, and_true]
    refine ⟨fun hnil => ?_, ClientClass.members_eq_nil⟩
    by_contra hdesired
    exact steps.members_ne_nil hcert hstate hkey htype hdesired hnil
  · simp [htype, ClientClass.members_eq_nil_of_scalar htype]

end SetsBase

/-! ## Adding in state absent -/

/-- In state `absent` the client asks for attributes to be absent exactly when
the task gives one. -/
theorem FindSteps.isRemParamRequest_iff {cl : Client} {m : AnsibleModule}
    {reply : FindReply} {found : Found} {obj : Dict String Val}
    (steps : FindSteps cl m reply found obj) (hcert : cl ≠ .cert)
    (hstate : m.state = .absent) :
    cl.isRemParamRequest found = true ↔
      ∃ key, cl.cls.IsAttr key ∧ cl.cls.cleanedAt m.params key ≠ none := by
  have hempty : cl.isRemParamRequest found = !found.canonParams.isEmpty := by
    cases cl <;> first | rfl | contradiction
  rw [hempty, Bool.not_eq_true', Dict.isEmpty_eq_false_iff]
  refine exists_congr fun key => ?_
  rw [← Option.ne_none_iff_exists',
    steps.lookup_desired_absent hcert hstate key]
  by_cases hparam : key ∈ cl.cls.paramKeys
  · simp [hparam, ClientClass.IsAttr]
  · simp only [hparam, if_false, ClientClass.IsAttr, not_false_eq_true,
      and_true]
    refine ⟨fun hval => ⟨?_, hval⟩, And.right⟩
    obtain ⟨val, hval⟩ := Option.ne_none_iff_exists'.mp hval
    obtain ⟨raw, type, -, htype, -⟩ := ClientClass.cleanedAt_eq_some hval
    simp [htype]

/-- In state `absent` an add request is queued exactly when the reply matched
no object and an attribute has a value, one of the task or its default. -/
theorem absent_never_adds_iff {cl : Client} {m : AnsibleModule}
    {reply : FindReply} {found : Found} (hstate : m.state = .absent)
    (hfind : cl.find m reply = .ok found) :
    (∀ q, cl.queueRequests m found = .ok q → ∀ entry ∈ q.entries,
      entry.request.method ≠ cl.method .add) ↔
    cl = .cert ∨ reply.result ≠ [] ∨
      ∀ key, cl.cls.IsAttr key → cl.cls.cleanedAt m.params key = none := by
  obtain ⟨obj, steps⟩ := Client.find_steps hfind
  constructor
  · intro hnever
    by_contra hcond
    simp only [not_or, not_forall, exists_prop, not_not] at hcond
    obtain ⟨hcert, hresult, hattr⟩ := hcond
    obtain ⟨request, hrequest⟩ := steps.request
    have hexists : reply.objectExists = false :=
      FindReply.objectExists_eq_false_iff.mpr hresult
    have hobj : obj = ∅ := by
      have hempty : cl.findResult m reply = .ok ∅ :=
        Client.findResult_of_not_objectExists hexists
      exact Except.ok.inj (steps.selected.symm.trans hempty)
    have hcurrent : found.responseCleaned = ∅ := by
      have hok := steps.current
      rw [hobj, Client.mungeResponse_empty] at hok
      exact (Except.ok.inj hok).symm
    have habsent : found.isAbsent = true := by
      rw [Found.isAbsent, hcurrent]
      rfl
    have hends : cl.remEnds m found = false := by
      have hparam := (steps.isRemParamRequest_iff hcert hstate).mpr hattr
      simp [Client.remEnds, hparam]
    have hqueues : cl.queuesBase found = true := by
      simp [Client.queuesBase, steps.objectExists, hexists]
    obtain ⟨q, hqueue, entry, hentry, hadd⟩ :=
      queueRequests_of_add hcert hrequest hends hqueues habsent
    exact hnever q hqueue entry hentry hadd
  · intro hcond q hqueue entry hentry hadd
    by_cases hcert : cl = .cert
    · subst hcert
      have hends : Client.cert.remEnds m found = true := by
        simp [Client.remEnds, Client.isRemParamRequest, hstate]
      have hrem := method_of_remEnds hends hqueue hentry
      exact (remMethod_ne .cert).1 (hrem.symm.trans hadd)
    · obtain ⟨hends, hqueues, habsent⟩ :=
        isAbsent_of_addMethod hcert hqueue hentry hadd
      rcases hcond with rfl | hresult | hnone
      · exact hcert rfl
      · have hempty :=
          steps.baseItem_isEmpty_of_absent hcert hstate habsent
        have hexists : found.objectExists = true := by
          rw [steps.objectExists, ← Bool.not_eq_false,
            FindReply.objectExists_eq_false_iff]
          exact hresult
        simp [Client.queuesBase, hempty, hexists] at hqueues
      · have hparam : cl.isRemParamRequest found = false := by
          rw [Bool.eq_false_iff, ne_eq,
            steps.isRemParamRequest_iff hcert hstate]
          rintro ⟨key, hkey, hval⟩
          exact hval (hnone key hkey)
        simp [Client.remEnds, hstate, hparam] at hends

/-- A group that is to lose its description. -/
def groupDescriptionAbsent : AnsibleModule :=
  groupClass.ansibleModule {
    given := Dict.ofList
      [("cn", .str "editors"), ("description", .str "obsolete")]
    state := .absent }

def emptyReply : FindReply := .ofList []

/-- The group is created in order to lose its description. -/
theorem groupDescriptionAbsent_adds :
    ¬∀ (cl : Client) (m : AnsibleModule) (reply : FindReply) (found : Found)
      (q : Queue), m.state = .absent → cl.find m reply = .ok found →
      cl.queueRequests m found = .ok q → ∀ entry ∈ q.entries,
        entry.request.method ≠ cl.method .add := by
  intro hnever
  have hfind : ∃ found, Client.group.find groupDescriptionAbsent emptyReply =
      .ok found ∧ ∃ q, Client.group.queueRequests groupDescriptionAbsent
        found = .ok q ∧ q.entries.map (fun e => e.request.method) =
          ["group_add"] := ⟨_, rfl, _, rfl, rfl⟩
  obtain ⟨found, hfind, q, hqueue, hmethods⟩ := hfind
  have hmem : "group_add" ∈ q.entries.map fun e => e.request.method := by
    simp [hmethods]
  obtain ⟨entry, hentry, hmethod⟩ := List.mem_map.mp hmem
  exact hnever .group _ _ found q rfl hfind hqueue entry hentry hmethod

theorem groupDescriptionAbsent_never_adds_iff :
    ∃ found, Client.group.find groupDescriptionAbsent emptyReply = .ok found ∧
    ((∀ q, Client.group.queueRequests groupDescriptionAbsent found = .ok q →
      ∀ entry ∈ q.entries,
        entry.request.method ≠ Client.group.method .add) ↔
    Client.group = .cert ∨ emptyReply.result ≠ [] ∨
      ∀ key, Client.group.cls.IsAttr key →
        Client.group.cls.cleanedAt groupDescriptionAbsent.params key =
          none) := by
  have hfind : ∃ found, Client.group.find groupDescriptionAbsent emptyReply =
      .ok found := ⟨_, rfl⟩
  obtain ⟨found, hfind⟩ := hfind
  exact ⟨found, hfind, absent_never_adds_iff rfl hfind⟩

/-! ## Adding an object of the reply -/

/-- The object keeps an attribute when `munge_response` cleans it. -/
def Client.Manages (cl : Client) (m : AnsibleModule)
    (obj : Dict String Val) : Prop :=
  ∃ current, cl.mungeResponse m obj = .ok current ∧ current.isEmpty = false

theorem FindSteps.manages_iff {cl : Client} {m : AnsibleModule}
    {reply : FindReply} {found : Found} {obj : Dict String Val}
    (steps : FindSteps cl m reply found obj) :
    cl.Manages m obj ↔ found.isAbsent = false := by
  constructor
  · rintro ⟨current, hcurrent, hmanaged⟩
    obtain rfl := Except.ok.inj (steps.current.symm.trans hcurrent)
    exact hmanaged
  · intro hmanaged
    exact ⟨_, steps.current, hmanaged⟩

/-- The kept objects are objects of the reply. -/
theorem Client.result_ne_nil_of_kept {cl : Client} {m : AnsibleModule}
    {reply : FindReply} {kept : List (Dict String Val)}
    (hkept : cl.kept m reply = .ok kept) (hne : kept ≠ []) :
    reply.result ≠ [] := by
  rintro hnil
  rw [Client.kept, hnil] at hkept
  exact hne (Except.ok.inj hkept).symm

/-- Add requests are queued for missing objects only, and mod requests for
reported objects only, unless a task that is to set base attributes meets an
object that keeps no attribute. -/
theorem addOrMod_matches_reply_iff {cl : Client} (hcert : cl ≠ .cert)
    {m : AnsibleModule} {reply : FindReply} {kept : List (Dict String Val)}
    {found : Found} (hkept : cl.kept m reply = .ok kept)
    (hfind : cl.find m reply = .ok found) :
    (∀ q, cl.queueRequests m found = .ok q → ∀ entry ∈ q.entries,
      (entry.request.method = cl.method .add → kept = []) ∧
        (entry.request.method = cl.method .mod → kept ≠ [])) ↔
    m.state = .absent ∨ kept = [] ∨ cl.Manages m (kept.getLast?.getD ∅) ∨
      ¬cl.SetsBase m := by
  obtain ⟨obj, steps⟩ := Client.find_steps hfind
  obtain rfl : kept.getLast?.getD ∅ = obj := by
    obtain ⟨kept', hkept', hobj⟩ :=
      Client.findResult_eq_ok_iff.mp steps.selected
    obtain rfl := Except.ok.inj (hkept.symm.trans hkept')
    exact hobj
  rw [steps.manages_iff]
  have hexists : kept ≠ [] → found.objectExists = true := by
    intro hne
    rw [steps.objectExists, ← Bool.not_eq_false,
      FindReply.objectExists_eq_false_iff]
    exact Client.result_ne_nil_of_kept hkept hne
  constructor
  · intro hmatches
    by_contra hcond
    simp only [not_or, not_not, Bool.not_eq_false] at hcond
    obtain ⟨hstate, hne, habsent, hsets⟩ := hcond
    obtain ⟨request, hrequest⟩ := steps.request
    have hends : cl.remEnds m found = false := by
      simp [Client.remEnds, hstate]
    have hqueues : cl.queuesBase found = true := by
      have hitem : (cl.baseItem found.diffs).isEmpty = false := by
        rw [Bool.eq_false_iff, ne_eq,
          steps.baseItem_isEmpty_iff_of_isAbsent hcert hstate habsent]
        exact not_not_intro hsets
      simp [Client.queuesBase, hitem]
    obtain ⟨q, hqueue, entry, hentry, hadd⟩ :=
      queueRequests_of_add hcert hrequest hends hqueues habsent
    exact hne ((hmatches q hqueue entry hentry).1 hadd)
  · intro hcond q hqueue entry hentry
    refine ⟨fun hadd => ?_, fun hmod hnil => ?_⟩
    · obtain ⟨-, hqueues, habsent⟩ :=
        isAbsent_of_addMethod hcert hqueue hentry hadd
      by_contra hne
      have hitem : (cl.baseItem found.diffs).isEmpty = false := by
        simpa [Client.queuesBase, hexists hne] using hqueues
      by_cases hstate : m.state = .absent
      · have hempty :=
          steps.baseItem_isEmpty_of_absent hcert hstate habsent
        simp [hitem] at hempty
      · rcases hcond with habs | hnil | hmanaged | hsets
        · exact hstate habs
        · exact hne hnil
        · simp [habsent] at hmanaged
        · have hempty :=
            (steps.baseItem_isEmpty_iff_of_isAbsent hcert hstate habsent).mpr
              hsets
          simp [hitem] at hempty
    · -- without an object the cleaned reply is empty
      have hmanaged := not_isAbsent_of_modMethod hcert hqueue hentry hmod
      have hcurrent := steps.current
      rw [hnil, List.getLast?_nil, Option.getD_none,
        Client.mungeResponse_empty] at hcurrent
      rw [Found.isAbsent, ← Except.ok.inj hcurrent] at hmanaged
      contradiction

/-- A group that is to have a description. -/
def groupDescriptionPresent : AnsibleModule :=
  groupClass.ansibleModule {
    given := Dict.ofList
      [("cn", .str "editors"), ("description", .str "Editors")]
    state := .present }

/-- The reply with a group that has no attribute the client declares, apart
from its name. -/
def bareGroupReply : FindReply :=
  .ofList [Dict.ofList [("cn", .list [.str "editors"]),
    ("dn", .str "cn=editors,cn=groups,dc=example,dc=com")]]

/-- The group of the reply is created a second time. -/
theorem bareGroup_added_again :
    ¬∀ (cl : Client) (m : AnsibleModule) (reply : FindReply)
      (kept : List (Dict String Val)) (found : Found) (q : Queue),
      cl ≠ .cert → cl.kept m reply = .ok kept → cl.find m reply = .ok found →
      cl.queueRequests m found = .ok q → ∀ entry ∈ q.entries,
        (entry.request.method = cl.method .add → kept = []) ∧
          (entry.request.method = cl.method .mod → kept ≠ []) := by
  intro hmatches
  have hfind : ∃ found, Client.group.find groupDescriptionPresent
      bareGroupReply = .ok found ∧
      ∃ q, Client.group.queueRequests groupDescriptionPresent found = .ok q ∧
        q.entries.map (fun e => e.request.method) = ["group_add"] :=
    ⟨_, rfl, _, rfl, rfl⟩
  obtain ⟨found, hfind, q, hqueue, hmethods⟩ := hfind
  have hmem : "group_add" ∈ q.entries.map fun e => e.request.method := by
    simp [hmethods]
  obtain ⟨entry, hentry, hmethod⟩ := List.mem_map.mp hmem
  have hkept : Client.group.kept groupDescriptionPresent bareGroupReply =
      .ok bareGroupReply.result := rfl
  have hnil := (hmatches .group _ _ _ found q (by decide) hkept hfind hqueue
    entry hentry).1 hmethod
  simp [bareGroupReply] at hnil

theorem bareGroup_matches_reply_iff :
    ∃ kept found,
      Client.group.kept groupDescriptionPresent bareGroupReply = .ok kept ∧
      Client.group.find groupDescriptionPresent bareGroupReply = .ok found ∧
      ((∀ q, Client.group.queueRequests groupDescriptionPresent found = .ok q →
        ∀ entry ∈ q.entries,
          (entry.request.method = Client.group.method .add → kept = []) ∧
            (entry.request.method = Client.group.method .mod → kept ≠ [])) ↔
      groupDescriptionPresent.state = .absent ∨ kept = [] ∨
        Client.group.Manages groupDescriptionPresent (kept.getLast?.getD ∅) ∨
        ¬Client.group.SetsBase groupDescriptionPresent) := by
  have hkept : Client.group.kept groupDescriptionPresent bareGroupReply =
      .ok bareGroupReply.result := rfl
  have hfind : ∃ found, Client.group.find groupDescriptionPresent
      bareGroupReply = .ok found := ⟨_, rfl⟩
  obtain ⟨found, hfind⟩ := hfind
  exact ⟨_, found, hkept, hfind,
    addOrMod_matches_reply_iff (by decide) hkept hfind⟩

end FreeipaProv
