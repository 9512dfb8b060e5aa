import FreeipaProv.AddOrMod
import FreeipaProv.DiffAlgebra

/-!
# Removing an object

A task that gives state `absent` and nothing but the key of an object asks
for the object to be deleted.  The client deletes it when the cleaned module
parameters are empty and the cleaned reply is not.  Declared defaults keep
the first from happening for users and services, and an object without a
declared attribute keeps the second from happening.
-/

namespace FreeipaProv

open Fallible

/-- A removal: of the declared parameters only the keys are given. -/
structure Task.KeysOnly (t : Task) (cl : Client) : Prop where
  state : t.state = .absent
  real : t.checkMode = false
  keys : ∀ key ∈ cl.cls.paramKeys, ∃ s, t.given.lookup key = some (.str s)
  only : ∀ key, cl.cls.IsAttr key → t.given.lookup key = none

/-- `find` can take in the declared attributes of the object: each can be
cleaned, and the members of the lists are hashable. -/
def ClientClass.Readable (cls : ClientClass) (obj : Dict String Val) : Prop :=
  ∀ key val type, obj.lookup key = some val → cls.paramType key = some type →
    ∃ cleaned, cleanValue type val = .ok cleaned ∧
      (type = .list → key ∉ cls.paramKeys → ∀ vs, cleaned = some (.list vs) →
        ∃ atoms, hashAll vs = some atoms)

/-! ## Module parameters of a removal -/

/-- Request keys are strings, and only users and services have attributes
with a default. -/
theorem kwArgs_spec {cl : Client} (hcert : cl ≠ .cert) :
    (∀ key ∈ cl.cls.paramKeys, cl.cls.paramType key = some .str) ∧
      (cl ≠ .user → cl ≠ .service → ∀ key ∈ cl.cls.kwArgs.keys,
        (cl.cls.kwArgs.lookup key).bind ArgSpec.default = none) := by
  cases cl <;> first | decide | contradiction

section Removal

variable {cl : Client} {t : Task}

/-- The parameters of a removal are its keys, and otherwise absent unless
they have a default. -/
theorem Task.KeysOnly.cleanedAt_params (hkeys : t.KeysOnly cl) {key : String}
    (hattr : cl.cls.IsAttr key) :
    cl.cls.cleanedAt (cl.cls.ansibleModule t).params key =
      cl.cls.cleanedAt (cl.cls.kwArgs.filterMap fun _ spec => spec.default)
        key := by
  obtain ⟨spec, hspec⟩ := hattr.exists_spec
  rw [ClientClass.cleanedAt, ClientClass.lookup_ansibleModule_params,
    hkeys.only key hattr, ClientClass.lookup_argumentSpec hspec,
    ClientClass.cleanedAt, Dict.lookup_filterMap, hspec]
  simp only [Option.none_or, Option.map_some, Option.bind_some]
  cases spec.default with
  | some val => rfl
  | none => simp [ClientClass.paramType, hspec, cleanValue_none, Dict.stepValue]

/-- A removal gives no attribute, except that users and services fill in
their defaults. -/
theorem Task.KeysOnly.gives_attr_iff (hkeys : t.KeysOnly cl)
    (hcert : cl ≠ .cert) :
    (∃ key, cl.cls.IsAttr key ∧
      cl.cls.cleanedAt (cl.cls.ansibleModule t).params key ≠ none) ↔
    cl = .user ∨ cl = .service := by
  constructor
  · rintro ⟨key, hattr, hval⟩
    by_contra hcl
    rw [not_or] at hcl
    rw [hkeys.cleanedAt_params hattr, ClientClass.cleanedAt,
      Dict.lookup_filterMap] at hval
    by_cases hkey : key ∈ cl.cls.kwArgs.keys
    · rw [(kwArgs_spec hcert).2 hcl.1 hcl.2 key hkey] at hval
      exact hval rfl
    · have hnone : cl.cls.kwArgs.lookup key = none :=
        AList.lookup_eq_none.mpr hkey
      simp [hnone] at hval
  · rintro (rfl | rfl)
    · refine ⟨"nsaccountlock", by decide, ?_⟩
      rw [hkeys.cleanedAt_params (by decide)]
      decide
    · refine ⟨"ipakrbrequirespreauth", by decide, ?_⟩
      rw [hkeys.cleanedAt_params (by decide)]
      decide

theorem Task.KeysOnly.clean_isOk (hkeys : t.KeysOnly cl) (hcert : cl ≠ .cert)
    (huser : cl ≠ .user) (hservice : cl ≠ .service) :
    ∃ item, cl.cls.clean (cl.cls.ansibleModule t).params = .ok item := by
  refine Dict.traverse_isOk_iff.mpr fun key val hval => ?_
  cases htype : cl.cls.paramType key with
  | none => exact ⟨none, rfl⟩
  | some type =>
      by_cases hkey : key ∈ cl.cls.paramKeys
      · obtain ⟨s, hs⟩ := hkeys.keys key hkey
        rw [ClientClass.lookup_ansibleModule_params, hs, Option.some_or,
          Option.some.injEq] at hval
        obtain rfl : type = .str := by
          simpa [htype] using (kwArgs_spec hcert).1 key hkey
        exact ⟨some val, by rw [← hval]; rfl⟩
      · obtain ⟨spec, hspec, -⟩ := Option.map_eq_some_iff.mp htype
        have hdefault := (kwArgs_spec hcert).2 huser hservice key
          (Dict.fst_mem_keys.mpr ⟨spec, hspec⟩)
        rw [hspec, Option.bind_some] at hdefault
        rw [ClientClass.lookup_ansibleModule_params,
          hkeys.only key ⟨by simp [htype], hkey⟩,
          ClientClass.lookup_argumentSpec hspec] at hval
        obtain rfl : Val.none = val := by simpa [hdefault] using hval
        exact ⟨none, cleanValue_none type⟩

end Removal

/-! ## A find that succeeds -/

theorem Client.mungeModuleParams_isOk {cl : Client} (hcert : cl ≠ .cert)
    {m : AnsibleModule} {item : Dict String Val}
    (hclean : cl.cls.clean m.params = .ok item) :
    ∃ desired, cl.mungeModuleParams m = .ok desired := by
  have hbase : cl.cls.mungeModuleParams m =
      .ok (cl.cls.mungeStateExactAddDefaults m.state
        (cl.cls.mungePopRequestKeys item)) := by
    simp [ClientClass.mungeModuleParams, hclean]
  cases cl with
  | user | caacl | dnszone =>
      simp only [Client.mungeModuleParams, ClientClass.mungeEnableParams,
        hbase, ok_bind]
      split <;> exact ⟨_, rfl⟩
  | cert => contradiction
  | group | service | dnsrecord | ca => exact ⟨_, hbase⟩

theorem Client.findRequest_isOk {cl : Client} (hcert : cl ≠ .cert)
    {m : AnsibleModule} {item : Dict String Val}
    (hclean : cl.cls.clean m.params = .ok item)
    (hkeys : ∀ key ∈ cl.cls.paramKeys, ∃ val, item.lookup key = some val) :
    ∃ request, cl.findRequest m = .ok request := by
  cases cl with
  | dnsrecord =>
      obtain ⟨zone, hzone⟩ := hkeys "zone" (by decide)
      obtain ⟨idnsname, hidnsname⟩ := hkeys "idnsname" (by decide)
      have hclean' : dnsrecordClass.clean m.params = .ok item := hclean
      simp only [Client.findRequest, dnsrecordFindRequestParams,
        dnsrecordFindRequestItem, hclean', ok_bind, getItem, hzone, hidnsname]
      split <;> exact ⟨_, rfl⟩
  | cert => contradiction
  | user | group | service | caacl | dnszone | ca => exact ⟨_, rfl⟩

theorem ClientClass.clean_isOk_of_readable {cls : ClientClass}
    {obj : Dict String Val} (hreadable : cls.Readable obj) :
    ∃ item, cls.clean obj = .ok item := by
  refine Dict.traverse_isOk_iff.mpr fun key val hval => ?_
  cases htype : cls.paramType key with
  | none => exact ⟨none, rfl⟩
  | some type =>
      obtain ⟨cleaned, hok, -⟩ := hreadable key val type hval htype
      exact ⟨cleaned, hok⟩

theorem ClientClass.hashableLists_of_readable {cls : ClientClass}
    {obj current : Dict String Val} (hreadable : cls.Readable obj)
    (hcurrent : cls.mungeResponse obj = .ok current) :
    cls.HashableLists current := by
  intro key val hval
  rw [lookup_listSlice, lookup_mungeResponse hcurrent] at hval
  split_ifs at hval with htype hkey
  obtain ⟨raw, type, hraw, htype', hclean⟩ := cleanedAt_eq_some hval
  obtain rfl : ParamType.list = type := by simpa [htype] using htype'
  obtain ⟨v, vs, rfl, -, -⟩ := cleanValue_list_eq_ok hclean
  obtain ⟨cleaned, hcleaned, hhash⟩ := hreadable key raw _ hraw htype
  rw [hclean, Except.ok.injEq] at hcleaned
  obtain ⟨atoms, hatoms⟩ := hhash rfl hkey (v :: vs) hcleaned.symm
  exact ⟨pyDedup atoms, pySet_list_eq_ok_iff.mpr
    ⟨atoms, hashAll_eq_some_iff.mp hatoms, rfl⟩⟩

theorem ClientClass.readable_of_hashableLists {cls : ClientClass}
    {obj current : Dict String Val}
    (hcurrent : cls.mungeResponse obj = .ok current)
    (hlists : cls.HashableLists current) : cls.Readable obj := by
  intro key val type hval htype
  obtain ⟨item, hclean, -⟩ := bind_eq_ok_iff.mp hcurrent
  obtain ⟨cleaned, hcleaned⟩ :=
    Dict.traverse_isOk_iff.mp ⟨item, hclean⟩ key val hval
  rw [htype] at hcleaned
  refine ⟨cleaned, hcleaned, ?_⟩
  rintro rfl hkey vs rfl
  have hlist : (cls.listSlice current).lookup key = some (.list vs) := by
    rw [lookup_listSlice, if_pos htype, lookup_mungeResponse hcurrent,
      if_neg hkey, cleanedAt, hval, htype]
    simp only [Option.bind_some]
    change cleanValue .list val = _ at hcleaned
    rw [hcleaned]
    rfl
  obtain ⟨vals, hvals⟩ := hlists key _ hlist
  obtain ⟨atoms, hatoms, -⟩ := pySet_list_eq_ok_iff.mp hvals
  exact ⟨atoms, hashAll_eq_some_iff.mpr hatoms⟩

/-- The diff between an empty desired item and a readable object. -/
theorem ClientClass.computeChanges_isOk_of_readable {cls : ClientClass}
    {obj desired current : Dict String Val} (hreadable : cls.Readable obj)
    (hcurrent : cls.mungeResponse obj = .ok current)
    (hdesired : ∀ key, desired.lookup key = none) :
    ∃ changes, cls.computeChanges .absent desired current = .ok changes := by
  have hempty : cls.HashableLists desired := by
    intro key val hval
    rw [lookup_listSlice, hdesired, ite_self] at hval
    contradiction
  refine (computeChanges_isOk_iff hempty
    (hashableLists_of_readable hreadable hcurrent)).mpr fun key hkey => ?_
  rw [indexedKeys, if_neg (not_not_intro rfl)] at hkey
  obtain ⟨val, hval⟩ := mem_keys_scalarSlice.mp (List.mem_filter.mp hkey).1
  rw [scalar_eq_none (hdesired key)] at hval
  contradiction

/-- An object that `find` could take in is readable. -/
theorem ClientClass.readable_of_computeChanges {cls : ClientClass}
    {obj desired current : Dict String Val} {changes : Changes}
    (hcurrent : cls.mungeResponse obj = .ok current)
    (hok : cls.computeChanges .absent desired current = .ok changes) :
    cls.Readable obj := by
  apply readable_of_hashableLists hcurrent
  intro key val hval
  exact (pySet_isOk_of_op (computeChanges_parts hok).2.1).2 hval

/-! ## Deleting -/

/-- No request of a queue that `rem` did not end deletes the object. -/
theorem remMethod_not_later (cl : Client) :
    cl.method .rem ≠ cl.method .enabled ∧
    cl.method .rem ≠ cl.method .disabled ∧
    ∀ method ∈ cl.routes.map fun route => route.2.method,
      cl.method .rem ≠ method := by
  cases cl <;> decide

theorem remEnds_of_remMethod {cl : Client} {m : AnsibleModule} {found : Found}
    {q : Queue} (hqueue : cl.queueRequests m found = .ok q)
    {entry : QueueEntry} (hentry : entry ∈ q.entries)
    (hrem : entry.request.method = cl.method .rem) :
    cl.remEnds m found = true := by
  by_contra hends
  rw [Bool.not_eq_true] at hends
  obtain ⟨hon, hoff, hroutes⟩ := remMethod_not_later cl
  rcases queueEntry_cases hends hqueue hentry with
    ⟨-, hbase⟩ | ⟨-, hflag⟩ | ⟨-, hroute⟩
  · obtain ⟨name, -, heq⟩ := Client.baseRequest_eq_ok hbase
    rw [heq] at hrem
    dsimp only at hrem
    split at hrem
    · exact (remMethod_ne cl).1 hrem.symm
    · exact (remMethod_ne cl).2 hrem.symm
  · rcases method_of_mem_flagEntries hflag with h | h
    · exact hon (hrem.symm.trans h)
    · exact hoff (hrem.symm.trans h)
  · exact hroutes _ (method_of_mem_routeEntries hroute) hrem.symm

/-- The cleaned reply is empty when the object has no attribute. -/
theorem ClientClass.isEmpty_mungeResponse_iff {cls : ClientClass}
    {obj current : Dict String Val}
    (hcurrent : cls.mungeResponse obj = .ok current) :
    current.isEmpty = false ↔
      ∃ key, cls.IsAttr key ∧ cls.cleanedAt obj key ≠ none := by
  rw [Dict.isEmpty_eq_false_iff]
  constructor
  · rintro ⟨key, val, hval⟩
    have hattr := isAttr_of_lookup_mungeResponse hcurrent hval
    rw [lookup_mungeResponse hcurrent, if_neg hattr.2] at hval
    exact ⟨key, hattr, by simp [hval]⟩
  · rintro ⟨key, hattr, hval⟩
    obtain ⟨val, hval⟩ := Option.ne_none_iff_exists'.mp hval
    exact ⟨key, val, by
      rw [lookup_mungeResponse hcurrent, if_neg hattr.2, hval]⟩

/-- A find that succeeds for a removal, on an object the client can read. -/
theorem Task.KeysOnly.find_isOk {cl : Client} {t : Task}
    (hkeys : t.KeysOnly cl) (hcert : cl ≠ .cert) (huser : cl ≠ .user)
    (hservice : cl ≠ .service) {reply : FindReply} {obj : Dict String Val}
    (hobj : cl.findResult (cl.cls.ansibleModule t) reply = .ok obj)
    (hreadable : cl.cls.Readable (cl.apiAttributes obj)) :
    ∃ found, cl.find (cl.cls.ansibleModule t) reply = .ok found := by
  have hstate : (cl.cls.ansibleModule t).state = .absent := hkeys.state
  obtain ⟨item, hclean⟩ := hkeys.clean_isOk hcert huser hservice
  obtain ⟨desired, hdesired⟩ := Client.mungeModuleParams_isOk hcert hclean
  obtain ⟨request, hrequest⟩ : ∃ request,
      cl.findRequest (cl.cls.ansibleModule t) = .ok request := by
    refine Client.findRequest_isOk hcert hclean fun key hkey => ?_
    obtain ⟨s, hs⟩ := hkeys.keys key hkey
    refine ⟨.str s, ?_⟩
    rw [ClientClass.lookup_clean hclean, ClientClass.cleanedAt,
      ClientClass.lookup_ansibleModule_params, hs, (kwArgs_spec hcert).1 key hkey]
    rfl
  obtain ⟨currentItem, hitem⟩ :=
    ClientClass.clean_isOk_of_readable hreadable
  have hcurrent : cl.mungeResponse (cl.cls.ansibleModule t) obj =
      .ok (cl.cls.mungePopRequestKeys currentItem) := by
    rw [Client.mungeResponse_eq hcert huser hservice]
    simp [ClientClass.mungeResponse, hitem]
  have hempty : ∀ key, desired.lookup key = none := by
    intro key
    have hkey : ¬cl.Overrides (cl.cls.ansibleModule t).state key := by
      simp [Client.Overrides, hstate, hcert]
    rw [Client.lookup_mungeModuleParams hdesired hkey]
    simp only [hstate, reduceCtorEq, if_false, Option.or_none,
      ite_eq_left_iff]
    intro hparam
    by_contra hval
    have hattr : cl.cls.IsAttr key := by
      obtain ⟨val, hval⟩ := Option.ne_none_iff_exists'.mp hval
      obtain ⟨raw, type, -, htype, -⟩ := ClientClass.cleanedAt_eq_some hval
      exact ⟨by simp [htype], hparam⟩
    rcases (hkeys.gives_attr_iff hcert).mp ⟨key, hattr, hval⟩ with h | h
    · exact huser h
    · exact hservice h
  have hmunged := hcurrent
  rw [Client.mungeResponse_eq hcert huser hservice] at hmunged
  obtain ⟨diffs, hdiffs⟩ :=
    ClientClass.computeChanges_isOk_of_readable hreadable hmunged hempty
  rw [← hstate] at hdiffs
  exact ⟨_, Client.find_of_steps hdesired hrequest hobj hcurrent
    (Client.computeChanges_of_class hdiffs hcert)⟩

/-- A removal deletes the object it finds exactly when the client has no
default for its attributes and the object keeps one when it is cleaned. -/
theorem removal_deletes_iff {cl : Client} (hcert : cl ≠ .cert) {t : Task}
    (hkeys : t.KeysOnly cl) (reply : FindReply) :
    (∃ found q entry, cl.find (cl.cls.ansibleModule t) reply = .ok found ∧
      cl.queueRequests (cl.cls.ansibleModule t) found = .ok q ∧
      q.entries = [entry] ∧ entry.request.method = cl.method .rem) ↔
    cl ≠ .user ∧ cl ≠ .service ∧ ∃ obj,
      cl.findResult (cl.cls.ansibleModule t) reply = .ok obj ∧
      cl.cls.Readable (cl.apiAttributes obj) ∧
      ∃ key, cl.cls.IsAttr key ∧
        cl.cls.cleanedAt (cl.apiAttributes obj) key ≠ none := by
  have hstate : (cl.cls.ansibleModule t).state = .absent := hkeys.state
  have hreal : (cl.cls.ansibleModule t).checkMode = false := hkeys.real
  constructor
  · rintro ⟨found, q, entry, hfind, hqueue, hentries, hrem⟩
    obtain ⟨obj, steps⟩ := Client.find_steps hfind
    have hends := remEnds_of_remMethod hqueue
      (hentries ▸ List.mem_singleton.mpr rfl) hrem
    have hparam : ¬cl.isRemParamRequest found = true := by
      simpa [Client.remEnds, hstate] using hends
    rw [steps.isRemParamRequest_iff hcert hstate,
      hkeys.gives_attr_iff hcert, not_or] at hparam
    obtain ⟨huser, hservice⟩ := hparam
    have hcurrent := steps.current
    rw [Client.mungeResponse_eq hcert huser hservice] at hcurrent
    have hdiffs := Client.computeChanges_eq steps.diffs (by simp [hcert])
    rw [hstate] at hdiffs
    refine ⟨huser, hservice, obj, steps.selected,
      ClientClass.readable_of_computeChanges hcurrent hdiffs, ?_⟩
    rw [← ClientClass.isEmpty_mungeResponse_iff hcurrent]
    rw [queueRequests_of_remEnds hends, Client.remQueue] at hqueue
    split_ifs at hqueue with hnothing
    · rw [← Except.ok.inj hqueue] at hentries
      simp [Queue.initial] at hentries
    · simpa [Found.isAbsent, hreal] using hnothing
  · rintro ⟨huser, hservice, obj, hobj, hreadable, hattr⟩
    obtain ⟨found, hfind⟩ :=
      hkeys.find_isOk hcert huser hservice hobj hreadable
    obtain ⟨obj', steps⟩ := Client.find_steps hfind
    obtain rfl := Except.ok.inj (hobj.symm.trans steps.selected)
    obtain ⟨request, hrequest⟩ := steps.request
    obtain ⟨name, hname⟩ := modRequestParams_isOk hcert hrequest
    have hparam : cl.isRemParamRequest found = false := by
      rw [Bool.eq_false_iff, ne_eq, steps.isRemParamRequest_iff hcert hstate,
        hkeys.gives_attr_iff hcert]
      simp [huser, hservice]
    have hends : cl.remEnds (cl.cls.ansibleModule t) found = true := by
      simp [Client.remEnds, hstate, hparam]
    have hcurrent := steps.current
    rw [Client.mungeResponse_eq hcert huser hservice] at hcurrent
    have hpresent : found.isAbsent = false :=
      (ClientClass.isEmpty_mungeResponse_iff hcurrent).mpr hattr
    have hremName : cl.remRequestParams (cl.cls.ansibleModule t) found =
        .ok name := by
      cases cl <;> first | exact hname | contradiction
    obtain ⟨item, hitem⟩ : ∃ item, cl.remRequestItem found = .ok item := by
      cases cl <;> first | exact ⟨_, rfl⟩ | contradiction
    let entry : QueueEntry := {
      name := "rem"
      request := { method := cl.method .rem, name, item } }
    refine ⟨found, ⟨[entry], false⟩, entry, hfind, ?_, rfl, rfl⟩
    rw [queueRequests_of_remEnds hends, Client.remQueue]
    simp [hpresent, hreal, hremName, hitem, Queue.push, Queue.initial, entry]

/-- The removal of the object with the given name. -/
def removalOf (key name : String) : Task where
  given := (∅ : Dict String Val).insert key (.str name)
  state := .absent

theorem removalOf_keysOnly {cl : Client} {key : String}
    (hkey : cl.cls.paramKeys = [key]) (name : String) :
    (removalOf key name).KeysOnly cl where
  state := rfl
  real := rfl
  keys := by
    intro key' hkey'
    obtain rfl : key' = key := by simpa [hkey] using hkey'
    exact ⟨name, AList.lookup_insert _⟩
  only := by
    intro key' hattr
    have hne : key' ≠ key := by
      rintro rfl
      exact hattr.2 (by simp [hkey])
    rw [removalOf, AList.lookup_insert_ne hne, AList.lookup_empty]

/-- The removal of a user, as the documentation of `ipa_user` gives it. -/
def brainAbsent : Task := removalOf "uid" "brain"

/-- The reply with the user. -/
def brainReply : FindReply :=
  .ofList [Dict.ofList
    [("uid", .list [.str "brain"]), ("givenname", .list [.str "Brain"]),
     ("sn", .list [.str "Brain"]), ("nsaccountlock", .bool false)]]

/-- The user is not deleted. -/
theorem brainAbsent_not_deleted :
    ¬∀ (cl : Client) (t : Task) (reply : FindReply), cl ≠ .cert →
      t.KeysOnly cl → reply.result ≠ [] →
      ∃ found q entry, cl.find (cl.cls.ansibleModule t) reply = .ok found ∧
        cl.queueRequests (cl.cls.ansibleModule t) found = .ok q ∧
        q.entries = [entry] ∧ entry.request.method = cl.method .rem := by
  intro hdeletes
  obtain ⟨found, q, entry, hfind, hqueue, hentries, -⟩ :=
    hdeletes .user brainAbsent brainReply (by decide)
      (removalOf_keysOnly rfl "brain") (by simp [brainReply])
  have hnothing : (do
      let found ← Client.user.find (userClass.ansibleModule brainAbsent)
        brainReply
      let q ← Client.user.queueRequests (userClass.ansibleModule brainAbsent)
        found
      Except.ok (ε := Failure) q.entries.length) = .ok 0 := rfl
  change Client.user.find (userClass.ansibleModule brainAbsent) brainReply =
    _ at hfind
  change Client.user.queueRequests (userClass.ansibleModule brainAbsent)
    found = _ at hqueue
  simp [hfind, hqueue, hentries] at hnothing

/-- The removal of a group. -/
def sysopsAbsent : Task := removalOf "cn" "sysops"

/-- The reply with the group. -/
def sysopsReply : FindReply :=
  .ofList [Dict.ofList
    [("cn", .list [.str "sysops"]),
     ("description", .list [.str "System operators"])]]

theorem sysopsAbsent_deletes_iff :
    (∃ found q entry,
      Client.group.find (groupClass.ansibleModule sysopsAbsent) sysopsReply =
        .ok found ∧
      Client.group.queueRequests (groupClass.ansibleModule sysopsAbsent)
        found = .ok q ∧
      q.entries = [entry] ∧
      entry.request.method = Client.group.method .rem) ↔
    Client.group ≠ .user ∧ Client.group ≠ .service ∧ ∃ obj,
      Client.group.findResult (groupClass.ansibleModule sysopsAbsent)
        sysopsReply = .ok obj ∧
      groupClass.Readable (Client.group.apiAttributes obj) ∧
      ∃ key, groupClass.IsAttr key ∧
        groupClass.cleanedAt (Client.group.apiAttributes obj) key ≠ none :=
  removal_deletes_iff (by decide)
    (removalOf_keysOnly rfl "sysops") sysopsReply

end FreeipaProv
