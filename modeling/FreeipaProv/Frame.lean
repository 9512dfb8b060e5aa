import FreeipaProv.QueueEncodes

/-!
# Attributes a task does not set

In state `present` a run leaves alone what the task does not mention, as long
as nothing else fills it in.  Declared defaults do: Ansible puts them into the
module parameters in every state, and the service client sends those that
differ from the object.
-/

namespace FreeipaProv

open Fallible

/-- The request asks for a change of the attribute; enabling and disabling
change the flag. -/
def Client.Mentions (cl : Client) (r : Request) (key : String) : Prop :=
  (∃ change ∈ cl.decode r, change.key = key) ∨
    (cl.cls.enablekey = some key ∧
      (r.method = cl.method .enabled ∨ r.method = cl.method .disabled))

/-- The task does not give the parameter, or gives no value. -/
def Task.Unset (t : Task) (key : String) : Prop :=
  t.given.lookup key = none ∨ t.given.lookup key = some .none

section Mentioned

variable {cl : Client} {m : AnsibleModule} {reply : FindReply} {found : Found}
  {obj : Dict String Val}

/-- A request asks for changes of the diff only, also in check mode. -/
theorem FindSteps.mem_managedChanges (steps : FindSteps cl m reply found obj)
    {q : Queue} (hends : cl.remEnds m found = false)
    (hqueue : cl.queueRequests m found = .ok q) {entry : QueueEntry}
    (hentry : entry ∈ q.entries) {change : Change}
    (hchange : change ∈ cl.decode entry.request) :
    change ∈ cl.managedChanges found.diffs := by
  cases hmode : m.checkMode with
  | false =>
      exact (steps.decode_queue hmode hends hqueue).mem_iff.mp
        (List.mem_flatMap.mpr ⟨entry, hentry, hchange⟩)
  | true =>
      have hcert := not_cert_absent_of_not_remEnds hends
      rw [queueRequests_of_not_remEnds hends] at hqueue
      cases hbase : cl.baseEntries m found with
      | error err => simp [hbase, Except.map] at hqueue
      | ok base =>
          simp only [hbase, Except.map, hmode, if_true, List.append_nil,
            Except.ok.injEq] at hqueue
          subst hqueue
          have hmem : change ∈
              decodeBase (modRewriteListChanges (cl.baseItem found.diffs)) := by
            rw [← decode_baseEntries hbase]
            exact List.mem_flatMap.mpr ⟨entry, hentry, hchange⟩
          have hbaseItem := decode_baseItem cl found.diffs
          rw [steps.scalarSets_eq hcert] at hbaseItem
          rw [Client.managedChanges, List.mem_append, List.mem_append]
          rcases List.mem_append.mp (hbaseItem.mem_iff.mp hmem) with hdel | hrest
          · exact Or.inl (Or.inr ((steps.sideChanges_perm hcert .del).mem_iff.mp
              (List.mem_append_left _ hdel)))
          · rcases List.mem_append.mp hrest with hadd | hset
            · exact Or.inl (Or.inl ((steps.sideChanges_perm hcert
                .add).mem_iff.mp (List.mem_append_left _ hadd)))
            · exact Or.inr hset

@[simp] theorem Side.change_key (side : Side) (key : String) (val : Atom) :
    (side.change key val).key = key := by
  cases side <;> rfl

/-- A change of the diff is one of a managed attribute with an entry in the
diff. -/
theorem Client.diff_of_mem_managedChanges {diffs : Changes} {change : Change}
    (hchange : change ∈ cl.managedChanges diffs) :
    cl.Managed change.key ∧
      ((∃ side, (diffs.side side).lookup change.key ≠ none) ∨
        diffs.scalars.lookup change.key ≠ none) := by
  have hside : ∀ side, change ∈ cl.sideChanges diffs side →
      cl.Managed change.key ∧
        ∃ side, (diffs.side side).lookup change.key ≠ none := by
    intro side hmem
    obtain ⟨item, hitem, hval⟩ := List.mem_flatMap.mp hmem
    obtain ⟨val, -, rfl⟩ := List.mem_map.mp hval
    rw [List.mem_filter, decide_eq_true_eq] at hitem
    rw [Side.change_key]
    exact ⟨hitem.2, side, by simp [Dict.mem_items_iff.mp hitem.1]⟩
  rw [Client.managedChanges, List.mem_append, List.mem_append] at hchange
  rcases hchange with (hadd | hdel) | hset
  · exact (hside _ hadd).imp_right Or.inl
  · exact (hside _ hdel).imp_right Or.inl
  · obtain ⟨item, hitem, rfl⟩ := List.mem_map.mp hset
    rw [List.mem_filter, decide_eq_true_eq] at hitem
    exact ⟨hitem.2, Or.inr (by
      simp [Change.key, Dict.mem_items_iff.mp hitem.1])⟩

theorem mentions_of_scalar {q : Queue}
    (hends : cl.remEnds m found = false)
    (hqueue : cl.queueRequests m found = .ok q) {key : String} {val : Val}
    (hkey : key ∈ cl.cls.baseKeys)
    (hval : found.diffs.scalars.lookup key = some val) :
    ∃ entry ∈ q.entries, cl.Mentions entry.request key := by
  rw [queueRequests_of_not_remEnds hends] at hqueue
  cases hbase : cl.baseEntries m found with
  | error err => simp [hbase, Except.map] at hqueue
  | ok base =>
      simp only [hbase, Except.map, Except.ok.injEq] at hqueue
      have hmem : Change.set key val ∈
          base.flatMap fun entry => cl.decode entry.request := by
        rw [decode_baseEntries hbase,
          (decode_baseItem cl found.diffs).mem_iff]
        refine List.mem_append_right _ (List.mem_append_right _
          (List.mem_map.mpr ⟨(key, val), ?_, rfl⟩))
        exact List.mem_filter.mpr
          ⟨Dict.mem_items_iff.mpr hval, decide_eq_true hkey⟩
      obtain ⟨entry, hentry, hchange⟩ := List.mem_flatMap.mp hmem
      refine ⟨entry, ?_, Or.inl ⟨_, hchange, rfl⟩⟩
      rw [← hqueue]
      exact List.mem_append_left _ hentry

/-- In state `present`, what the task does not ask for does not enter the
diff. -/
theorem FindSteps.diff_of_not_desired (steps : FindSteps cl m reply found obj)
    (hstate : m.state = .present) {key : String}
    (hdesired : found.canonParams.lookup key = none) :
    (∀ side, (found.diffs.side side).lookup key = none) ∧
      found.diffs.scalars.lookup key = none := by
  have hdiffs := Client.computeChanges_eq steps.diffs (by simp [hstate])
  refine ⟨fun side => ?_, ?_⟩
  · cases side with
    | add =>
        rw [Changes.side, ClientClass.lookup_listAdd hdiffs,
          ClientClass.members_eq_nil hdesired, hstate]
        rfl
    | del =>
        rw [Changes.side, ClientClass.lookup_listDel hdiffs, hstate]
        rfl
  · rw [ClientClass.lookup_scalars (by simp [hstate]) hdiffs,
      ClientClass.scalar_eq_none hdesired]
    cases cl.cls.scalar found.responseCleaned key <;> simp [hstate]

end Mentioned

section Present

variable {cl : Client} {t : Task} {reply : FindReply} {found : Found}
  {obj : Dict String Val}

theorem not_overrides_of_present (hcert : cl ≠ .cert) (key : String) :
    ¬cl.Overrides .present key := by
  simp [Client.Overrides, hcert]

/-- A parameter the task does not set is desired only for its default. -/
theorem FindSteps.lookup_desired_unset
    (steps : FindSteps cl (cl.cls.ansibleModule t) reply found obj)
    (hcert : cl ≠ .cert) (hstate : t.state = .present) {key : String}
    {spec : ArgSpec} (hattr : cl.cls.IsAttr key)
    (hspec : cl.cls.kwArgs.lookup key = some spec) :
    (t.given.lookup key = none →
      found.canonParams.lookup key = spec.default) ∧
    (t.given.lookup key = some .none →
      found.canonParams.lookup key = none) := by
  have hpresent : (cl.cls.ansibleModule t).state = .present := hstate
  have htype : cl.cls.paramType key = some spec.type := by
    simp [ClientClass.paramType, hspec]
  have hargument := ClientClass.lookup_argumentSpec hspec
  have hlookup : found.canonParams.lookup key =
      cl.cls.cleanedAt (cl.cls.ansibleModule t).params key := by
    rw [Client.lookup_mungeModuleParams steps.desired
      (by rw [hpresent]; exact not_overrides_of_present hcert key),
      if_neg hattr.2, hpresent]
    simp
  rw [hlookup, ClientClass.cleanedAt, ClientClass.lookup_ansibleModule_params,
    hargument, htype]
  constructor
  · intro hgiven
    rw [hgiven]
    cases hdefault : spec.default with
    | none => simp [hdefault, cleanValue_none, Dict.stepValue]
    | some val =>
        have hcanonical := argumentSpec_isCanonical cl key
          (Dict.fst_mem_keys.mpr ⟨spec, hargument⟩)
        rw [hargument, Option.all_some] at hcanonical
        simp [hdefault, cleanValue_default hcanonical hdefault, Dict.stepValue]
  · intro hgiven
    rw [hgiven]
    simp [cleanValue_none, Dict.stepValue]

theorem serviceDefaults_spec : ∀ key ∈ serviceClass.kwArgs.keys,
    (serviceClass.kwArgs.lookup key).bind ArgSpec.default ≠ none →
      key ∈ serviceClass.baseKeys ∧ key ∉ serviceClass.paramKeys ∧
        serviceClass.paramType key = some .bool ∧
        key ≠ "usercertificate" ∧ key ≠ "krbprincipalname" := by
  have hspec : ∀ key ∈ serviceClass.kwArgs.keys,
      ((serviceClass.kwArgs.lookup key).bind ArgSpec.default).isSome = true →
      key ∈ serviceClass.baseKeys ∧ key ∉ serviceClass.paramKeys ∧
        serviceClass.paramType key = some .bool ∧
        key ≠ "usercertificate" ∧ key ≠ "krbprincipalname" := by
    decide
  intro key hkey hdefault
  exact hspec key hkey (Option.isSome_iff_ne_none.mpr hdefault)

/-- Outside services, the only default is that of the enable flag. -/
theorem default_of_managed {cl : Client} (hcert : cl ≠ .cert)
    (hservice : cl ≠ .service) : ∀ key ∈ cl.cls.kwArgs.keys, cl.Managed key →
      ((cl.cls.kwArgs.lookup key).bind ArgSpec.default).isNone = true := by
  cases cl <;> first | decide | contradiction

/-- A defaulted attribute of a service enters the diff unless the object has
it at its default. -/
theorem FindSteps.lookup_scalars_default
    (steps : FindSteps .service (serviceClass.ansibleModule t) reply found obj)
    (hstate : t.state = .present) {key : String} {spec : ArgSpec} {val : Val}
    (hspec : serviceClass.kwArgs.lookup key = some spec)
    (hdefault : spec.default = some val)
    (hgiven : t.given.lookup key = none) :
    found.diffs.scalars.lookup key =
      match serviceClass.cleanedAt obj key with
      | some old => if val.pyEq old then none else some val
      | none => some val := by
  have hdiffs := Client.computeChanges_eq steps.diffs (by simp)
  have hpresent : (serviceClass.ansibleModule t).state = .present := hstate
  obtain ⟨-, hparam, htype, hcert, hprinc⟩ := serviceDefaults_spec key
    (Dict.fst_mem_keys.mpr ⟨spec, hspec⟩) (by simp [hspec, hdefault])
  have hdesired : found.canonParams.lookup key = some val := by
    rw [← hdefault]
    exact (steps.lookup_desired_unset (by simp) hstate
      ⟨by simp [Client.cls, htype], hparam⟩ hspec).1 hgiven
  obtain ⟨item, hitem, hcurrent⟩ :=
    lookup_serviceMungeResponse steps.current hcert hprinc
  rw [ClientClass.lookup_mungeResponse hitem, if_neg hparam] at hcurrent
  have hchange : serviceClass.scalar found.canonParams key = some val := by
    rw [ClientClass.scalar_eq, if_neg (by simp [htype]), hdesired]
  have hcurr : serviceClass.scalar found.responseCleaned key =
      serviceClass.cleanedAt obj key := by
    rw [ClientClass.scalar_eq, if_neg (by simp [htype]), hcurrent]
  change serviceClass.computeChanges _ _ _ = _ at hdiffs
  rw [ClientClass.lookup_scalars (by simp [hpresent]) hdiffs, hchange, hcurr]
  cases serviceClass.cleanedAt obj key <;> rfl

/-- A present run mentions no attribute the task leaves unset, except for a
service with an attribute that differs from its default. -/
theorem present_frame_iff (hcert : cl ≠ .cert) (hstate : t.state = .present)
    (hfind : cl.find (cl.cls.ansibleModule t) reply = .ok found)
    (hobj : cl.findResult (cl.cls.ansibleModule t) reply = .ok obj) :
    (∀ q, cl.queueRequests (cl.cls.ansibleModule t) found = .ok q →
      ∀ entry ∈ q.entries, ∀ key, cl.cls.IsAttr key → t.Unset key →
        ¬cl.Mentions entry.request key) ↔
    (cl = .service → ∀ key spec val,
      cl.cls.kwArgs.lookup key = some spec → spec.default = some val →
      t.given.lookup key = none →
      ∃ old, cl.cls.cleanedAt obj key = some old ∧ val.pyEq old = true) := by
  obtain ⟨obj', steps⟩ := Client.find_steps hfind
  obtain rfl := Except.ok.inj (hobj.symm.trans steps.selected)
  have hpresent : (cl.cls.ansibleModule t).state = .present := hstate
  have hends : cl.remEnds (cl.cls.ansibleModule t) found = false := by
    simp [Client.remEnds, hpresent]
  constructor
  · rintro hframe rfl key spec val hspec hdefault hgiven
    by_contra hdiffers
    obtain ⟨hbase, hparam, htype, -, -⟩ := serviceDefaults_spec key
      (Dict.fst_mem_keys.mpr ⟨spec, hspec⟩) (by
        rw [show serviceClass.kwArgs.lookup key = some spec from hspec]
        simp [hdefault])
    have hscalar : found.diffs.scalars.lookup key = some val := by
      rw [steps.lookup_scalars_default hstate hspec hdefault hgiven]
      cases hold : serviceClass.cleanedAt obj key with
      | none => rfl
      | some old =>
          have hne : ¬val.pyEq old = true := fun heq =>
            hdiffers ⟨old, hold, heq⟩
          simp [hne]
    obtain ⟨q, hqueue⟩ :=
      queueRequests_isOk .service (by simp) rfl hends
    obtain ⟨entry, hentry, hmentions⟩ :=
      mentions_of_scalar hends hqueue hbase hscalar
    exact hframe q hqueue entry hentry key ⟨by simp [Client.cls, htype], hparam⟩
      (Or.inl hgiven) hmentions
  · rintro hdefaults q hqueue entry hentry key hattr hunset
      (⟨change, hchange, rfl⟩ | ⟨-, hmethod⟩)
    case inr =>
      have hflag := mem_flagEntries_of_method hends hqueue hentry hmethod
      simp [Client.flagEntries, Client.flagChange, hpresent] at hflag
    obtain ⟨hmanaged, hdiff⟩ := Client.diff_of_mem_managedChanges
      (steps.mem_managedChanges hends hqueue hentry hchange)
    obtain ⟨spec, hspec⟩ := hattr.exists_spec
    obtain ⟨hgiven, hnull⟩ :=
      steps.lookup_desired_unset hcert hstate hattr hspec
    have hnone : found.canonParams.lookup change.key = none → False := by
      intro hdesired
      obtain ⟨hlists, hscalar⟩ :=
        steps.diff_of_not_desired hpresent hdesired
      rcases hdiff with ⟨side, hside⟩ | hval
      · exact hside (hlists side)
      · exact hval hscalar
    rcases hunset with hunset | hunset
    · cases hdefault : spec.default with
      | none => exact hnone (by rw [hgiven hunset, hdefault])
      | some val =>
          by_cases hservice : cl = .service
          · subst hservice
            obtain ⟨old, hold, heq⟩ :=
              hdefaults rfl _ _ _ hspec hdefault hunset
            obtain ⟨-, -, htype, -, -⟩ := serviceDefaults_spec change.key
              (Dict.fst_mem_keys.mpr ⟨spec, hspec⟩) (by
                rw [show serviceClass.kwArgs.lookup change.key = some spec
                  from hspec]
                simp [hdefault])
            have hdiffs := Client.computeChanges_eq steps.diffs (by simp)
            rcases hdiff with ⟨side, hside⟩ | hval
            · refine hside (ClientClass.diff_list_key hdiffs ?_ side)
              simp [Client.cls, htype]
            · refine hval ?_
              rw [steps.lookup_scalars_default hstate hspec hdefault hunset]
              change serviceClass.cleanedAt obj change.key = some old at hold
              simp [hold, heq]
          · have hnodefault := default_of_managed hcert hservice change.key
              (Dict.fst_mem_keys.mpr ⟨spec, hspec⟩) hmanaged
            simp [hspec, hdefault] at hnodefault
    · exact hnone (hnull hunset)

end Present

/-- A service that is to exist, as the documentation of `ipa_service` gives
it. -/
def httpPresent : Task where
  given := Dict.ofList
    [("krbcanonicalname", .str "HTTP/web.example.com@EXAMPLE.COM")]
  state := .present

/-- The reply with the service, trusted for delegation. -/
def delegateReply : FindReply :=
  .ofList [Dict.ofList
    [("krbcanonicalname", .list [.str "HTTP/web.example.com@EXAMPLE.COM"]),
     ("ipakrbokasdelegate", .bool true)]]

/-- The service loses the delegation that the task does not mention. -/
theorem httpPresent_resets_delegation :
    ¬∀ (cl : Client) (t : Task) (reply : FindReply) (found : Found)
      (q : Queue), cl ≠ .cert → t.state = .present → reply.result ≠ [] →
      cl.find (cl.cls.ansibleModule t) reply = .ok found →
      cl.queueRequests (cl.cls.ansibleModule t) found = .ok q →
      ∀ entry ∈ q.entries, ∀ key, cl.cls.IsAttr key → t.Unset key →
        ¬cl.Mentions entry.request key := by
  intro hframe
  have hrun : ∃ found, Client.service.find
      (serviceClass.ansibleModule httpPresent) delegateReply = .ok found ∧
      ∃ q entry, Client.service.queueRequests
        (serviceClass.ansibleModule httpPresent) found = .ok q ∧
        q.entries = [entry] ∧
        (Client.service.decode entry.request).map Change.key =
          ["ipakrbrequirespreauth", "ipakrboktoauthasdelegate",
           "ipakrbokasdelegate"] := ⟨_, rfl, _, _, rfl, rfl, rfl⟩
  obtain ⟨found, hfind, q, entry, hqueue, hentries, hkeys⟩ := hrun
  have hmem : "ipakrbokasdelegate" ∈
      (Client.service.decode entry.request).map Change.key := by
    simp [hkeys]
  obtain ⟨change, hchange, hkey⟩ := List.mem_map.mp hmem
  exact hframe .service httpPresent delegateReply found q (by decide) rfl
    (by simp [delegateReply]) hfind hqueue entry (by simp [hentries])
    "ipakrbokasdelegate" (by decide) (Or.inl rfl) (Or.inl ⟨change, hchange, hkey⟩)

theorem httpPresent_frame_iff :
    ∃ found obj,
      Client.service.find (serviceClass.ansibleModule httpPresent)
        delegateReply = .ok found ∧
      ((∀ q, Client.service.queueRequests
        (serviceClass.ansibleModule httpPresent) found = .ok q →
        ∀ entry ∈ q.entries, ∀ key, serviceClass.IsAttr key →
          httpPresent.Unset key →
          ¬Client.service.Mentions entry.request key) ↔
      (Client.service = .service → ∀ key spec val,
        serviceClass.kwArgs.lookup key = some spec →
        spec.default = some val → httpPresent.given.lookup key = none →
        ∃ old, serviceClass.cleanedAt obj key = some old ∧
          val.pyEq old = true)) := by
  have hrun : ∃ found obj,
      Client.service.find (serviceClass.ansibleModule httpPresent)
        delegateReply = .ok found ∧
      Client.service.findResult (serviceClass.ansibleModule httpPresent)
        delegateReply = .ok obj := ⟨_, _, rfl, rfl⟩
  obtain ⟨found, obj, hfind, hobj⟩ := hrun
  exact ⟨found, obj, hfind, present_frame_iff (by decide) rfl hfind hobj⟩

end FreeipaProv
