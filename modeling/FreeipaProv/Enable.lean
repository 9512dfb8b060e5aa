import FreeipaProv.ApiForm
import FreeipaProv.Frame

/-!
# Enabling and disabling

States `enabled` and `disabled` ask for a flag.  On an object that exists the
flag is compared and, where it differs, set by its own request.  An object
that is created is left as the server creates it, which is enabled; so a task
that asks for a missing object to be disabled has to be run twice.
-/

namespace FreeipaProv

open Fallible

/-- The request sets the enable flag like any other attribute. -/
def Client.SetsFlag (cl : Client) (r : Request) : Prop :=
  ∃ change ∈ cl.decode r, cl.cls.enablekey = some change.key

/-- A server with the object a task is about: whether it exists, and whether
it is enabled.  An object is created enabled, the enable and disable requests
set the flag, and the reply to the find request reports it. -/
structure FlagServer (cl : Client) (m : AnsibleModule) (σ : Type) where
  post : Post σ
  find : σ → FindReply
  flag : σ → Option Bool
  created : ∀ {server server' : σ} {r : Request} {response : Val},
    post server r = .ok (response, server') → r.method = cl.method .add →
    r.name = cl.cls.modRequestParams m → ¬cl.SetsFlag r →
    flag server' = some true
  enabled : ∀ {server server' : σ} {r : Request} {response : Val},
    post server r = .ok (response, server') → r.method = cl.method .enabled →
    r.name = cl.cls.modRequestParams m → flag server' = some true
  disabled : ∀ {server server' : σ} {r : Request} {response : Val},
    post server r = .ok (response, server') → r.method = cl.method .disabled →
    r.name = cl.cls.modRequestParams m → flag server' = some false
  other : ∀ {server server' : σ} {r : Request} {response : Val},
    post server r = .ok (response, server') →
    r.method ∉ [MethodRole.add, .rem, .enabled, .disabled].map cl.method →
    ¬cl.SetsFlag r → flag server' = flag server
  missing : ∀ {server : σ}, flag server = none → (find server).result = []
  reported : ∀ {server : σ} {enabled : Bool} {key : String},
    flag server = some enabled → cl.cls.enablekey = some key →
    ∃ obj raw, (find server).result.getLast? = some obj ∧ cl.ApiNamed obj ∧
      obj.lookup key = some raw ∧
      ApiScalar .bool (.bool (enabled != cl.cls.enablekeySenseInverted)) raw

/-- The clients with an enable flag. -/
theorem enablekey_spec (cl : Client) : ∀ key ∈ cl.cls.enablekey,
    cl ≠ .cert ∧ cl ≠ .dnsrecord ∧ key ∈ cl.cls.kwArgs.keys ∧
      key ∉ cl.cls.paramKeys ∧ cl.cls.paramType key = some .bool ∧
      cl.apiName key = key ∧ key ≠ "usercertificate" ∧
      key ≠ "krbprincipalname" := by
  cases cl <;> decide

theorem findResult_eq {cl : Client} (hcert : cl ≠ .cert)
    (hrecord : cl ≠ .dnsrecord) (m : AnsibleModule) (reply : FindReply) :
    cl.findResult m reply = .ok (reply.result.getLast?.getD ∅) := by
  have hkeep : ∀ items : List (Dict String Val),
      Fallible.filter (ε := Failure) (fun _ => .ok true) items =
        .ok items := by
    intro items
    induction items with
    | nil => rfl
    | cons item rest ih => simp [Fallible.filter, ih]
  have hfilter : cl.findFilter m = fun _ => .ok true := by
    funext obj
    cases cl <;> first | rfl | contradiction
  rw [Client.findResult, hfilter, hkeep]
  rfl

section Flag

variable {cl : Client} {m : AnsibleModule} {σ : Type}
  {srv : FlagServer cl m σ} {server : σ} {found : Found}
  {obj : Dict String Val} {key : String}

theorem FindSteps.desired_flag {reply : FindReply}
    (steps : FindSteps cl m reply found obj)
    (hflag : cl.cls.enablekey = some key)
    (hstate : m.state = .enabled ∨ m.state = .disabled) :
    found.canonParams.lookup key = some
      (.bool (decide (m.state = .enabled) != cl.cls.enablekeySenseInverted)) := by
  have hparams : cl.cls.mungeEnableParams m = .ok found.canonParams := by
    have hdesired := steps.desired
    cases cl with
    | user | caacl | dnszone => exact hdesired
    | group | service | dnsrecord | ca | cert => contradiction
  obtain ⟨hon, hoff⟩ := lookup_mungeEnableParams_flag hparams hflag
  rcases hstate with hstate | hstate
  · rw [hon hstate]
    simp [hstate]
  · rw [hoff hstate]
    simp [hstate]

theorem FlagServer.current_flag {enabled : Bool}
    (steps : FindSteps cl m (srv.find server) found obj)
    (hflag : cl.cls.enablekey = some key)
    (hexists : srv.flag server = some enabled) :
    found.responseCleaned.lookup key =
      some (.bool (enabled != cl.cls.enablekeySenseInverted)) := by
  obtain ⟨hcert, hrecord, hdeclared, hparam, htype, hname, hne, hne'⟩ :=
    enablekey_spec cl key hflag
  obtain ⟨obj', raw, hlast, hnamed, hraw, hscalar⟩ := srv.reported hexists hflag
  have hobj := steps.selected
  rw [findResult_eq hcert hrecord, hlast, Option.getD_some] at hobj
  obtain rfl := Except.ok.inj hobj
  rw [Client.lookup_mungeResponse hcert steps.current hne hne',
    if_neg hparam, ClientClass.cleanedAt, lookup_apiAttributes hnamed hdeclared,
    hname, hraw, htype]
  simp [hscalar.cleanValue, Dict.stepValue]

/-- A missing object is absent, an existing one is not. -/
theorem FlagServer.isAbsent_iff
    (steps : FindSteps cl m (srv.find server) found obj)
    (hflag : cl.cls.enablekey = some key) :
    found.isAbsent = true ↔ srv.flag server = none := by
  constructor
  · intro habsent
    cases hexists : srv.flag server with
    | none => rfl
    | some enabled =>
        have hcurrent := srv.current_flag steps hflag hexists
        rw [Found.isAbsent_iff.mp habsent key] at hcurrent
        contradiction
  · intro hmissing
    obtain ⟨hcert, hrecord, -⟩ := enablekey_spec cl key hflag
    have hobj := steps.selected
    rw [findResult_eq hcert hrecord, srv.missing hmissing] at hobj
    have hcurrent := steps.current
    rw [← Except.ok.inj hobj, List.getLast?_nil, Option.getD_none,
      Client.mungeResponse_empty] at hcurrent
    rw [Found.isAbsent, ← Except.ok.inj hcurrent]
    rfl

/-- The flag is changed exactly when the object has the other one. -/
theorem FlagServer.flagChange_eq
    (steps : FindSteps cl m (srv.find server) found obj)
    (hflag : cl.cls.enablekey = some key)
    (hstate : m.state = .enabled ∨ m.state = .disabled) :
    cl.flagChange m found =
      if srv.flag server = some !decide (m.state = .enabled) then
        some (.bool (decide (m.state = .enabled) !=
          cl.cls.enablekeySenseInverted))
      else none := by
  have hguard : (!(decide (m.state = .enabled) ||
      decide (m.state = .disabled))) = false := by
    rcases hstate with hstate | hstate <;> simp [hstate]
  have hnotAbsent : m.state ≠ .absent := by
    rcases hstate with hstate | hstate <;> simp [hstate]
  rw [Client.flagChange, hguard, Bool.or_false]
  cases hexists : srv.flag server with
  | none =>
      rw [if_pos ((srv.isAbsent_iff steps hflag).mpr hexists)]
      simp
  | some enabled =>
      have hpresent : ¬found.isAbsent = true := by
        rw [srv.isAbsent_iff steps hflag, hexists]
        simp
      obtain ⟨-, -, -, -, htype, -⟩ := enablekey_spec cl key hflag
      have hscalar : ∀ params : Dict String Val,
          cl.cls.scalar params key = params.lookup key := by
        intro params
        rw [ClientClass.scalar_eq, if_neg (by simp [htype])]
      have hdiffs := Client.computeChanges_eq steps.diffs (by simp [hnotAbsent])
      rw [if_neg hpresent, hflag, Option.bind_some,
        ClientClass.lookup_scalars hnotAbsent hdiffs, hscalar, hscalar,
        steps.desired_flag hflag hstate,
        srv.current_flag steps hflag hexists]
      cases enabled <;> cases decide (m.state = .enabled) <;>
        cases cl.cls.enablekeySenseInverted <;> rfl

/-- Mod requests and dedicated methods neither create nor delete the object
and set no flag. -/
theorem otherMethods_spec {cl : Client} (hcert : cl ≠ .cert) :
    cl.method .mod ∉ [MethodRole.add, .rem, .enabled, .disabled].map cl.method ∧
      ∀ method ∈ cl.routes.map fun route => route.2.method,
        method ∉ [MethodRole.add, .rem, .enabled, .disabled].map cl.method := by
  cases cl <;> first | decide | contradiction

theorem modRequestParams_of_flag (hflag : cl.cls.enablekey = some key) :
    cl.modRequestParams m = .ok (cl.cls.modRequestParams m) := by
  obtain ⟨hcert, hrecord, -⟩ := enablekey_spec cl key hflag
  cases cl <;> first | rfl | contradiction

/-- No request sets the flag like any other attribute. -/
theorem FindSteps.not_setsFlag {reply : FindReply}
    (steps : FindSteps cl m reply found obj) {q : Queue}
    (hends : cl.remEnds m found = false)
    (hqueue : cl.queueRequests m found = .ok q) {entry : QueueEntry}
    (hentry : entry ∈ q.entries) : ¬cl.SetsFlag entry.request := by
  rintro ⟨change, hchange, hkey⟩
  have hmem := steps.mem_managedChanges hends hqueue hentry hchange
  exact (Client.diff_of_mem_managedChanges hmem).1.2 hkey

theorem FlagServer.flag_runAll {entries : List QueueEntry} {server' : σ}
    (hother : ∀ entry ∈ entries, entry.request.method ∉
      [MethodRole.add, .rem, .enabled, .disabled].map cl.method ∧
        ¬cl.SetsFlag entry.request)
    (hrun : runAll (postEntry srv.post) server entries = .ok server') :
    srv.flag server' = srv.flag server := by
  refine runAll_invariant (fun s => srv.flag s = srv.flag server)
    (fun entry hentry s s' hinv hstep => ?_) rfl hrun
  obtain ⟨hmethod, hsets⟩ := hother entry hentry
  obtain ⟨response, hpost⟩ := postEntry_eq_ok hstep
  rw [srv.other hpost hmethod hsets, hinv]

theorem runAll_singleton {post : Post σ} {entry : QueueEntry} {server' : σ}
    (hrun : runAll (postEntry post) server [entry] = .ok server') :
    ∃ response, post server entry.request = .ok (response, server') := by
  obtain ⟨server'', hstep, hrun⟩ := bind_eq_ok_iff.mp hrun
  obtain rfl := Except.ok.inj hrun
  exact postEntry_eq_ok hstep

/-- The base request creates a missing object, enabled, and leaves the flag
of an existing one. -/
theorem FlagServer.flag_base (steps : FindSteps cl m (srv.find server) found obj)
    (hflag : cl.cls.enablekey = some key) {base : List QueueEntry}
    (hbase : cl.baseEntries m found = .ok base)
    (hsets : ∀ entry ∈ base, ¬cl.SetsFlag entry.request) {server' : σ}
    (hrun : runAll (postEntry srv.post) server base = .ok server') :
    srv.flag server' = some ((srv.flag server).getD true) := by
  obtain ⟨hcert, -⟩ := enablekey_spec cl key hflag
  have hname := modRequestParams_of_flag (m := m) hflag
  have hrequest : ∀ entry ∈ base, entry.request.method =
      (if found.isAbsent then cl.method .add else cl.method .mod) ∧
        entry.request.name = cl.cls.modRequestParams m := by
    intro entry hentry
    unfold Client.baseEntries at hbase
    split_ifs at hbase
    · obtain ⟨request, hrequest, hbase⟩ := bind_eq_ok_iff.mp hbase
      obtain ⟨name, hname', rfl⟩ := Client.baseRequest_eq_ok hrequest
      obtain rfl := Except.ok.inj (hname.symm.trans hname')
      rw [← Except.ok.inj hbase, List.mem_singleton] at hentry
      rw [hentry]
      exact ⟨rfl, rfl⟩
    · rw [← Except.ok.inj hbase] at hentry
      simp at hentry
  cases hexists : srv.flag server with
  | none =>
      have habsent := (srv.isAbsent_iff steps hflag).mpr hexists
      have hqueues : cl.queuesBase found = true := by
        have hnone := FindReply.objectExists_eq_false_iff.mpr
          (srv.missing hexists)
        simp [Client.queuesBase, steps.objectExists, hnone]
      have hone : ∃ entry, base = [entry] := by
        unfold Client.baseEntries at hbase
        rw [if_pos hqueues] at hbase
        obtain ⟨request, -, hbase⟩ := bind_eq_ok_iff.mp hbase
        exact ⟨_, (Except.ok.inj hbase).symm⟩
      obtain ⟨entry, rfl⟩ := hone
      obtain ⟨hmethod, hname⟩ := hrequest entry (List.mem_singleton.mpr rfl)
      rw [if_pos habsent] at hmethod
      obtain ⟨response, hpost⟩ := runAll_singleton hrun
      exact srv.created hpost hmethod hname
        (hsets entry (List.mem_singleton.mpr rfl))
  | some enabled =>
      have hpresent : ¬found.isAbsent = true := by
        rw [srv.isAbsent_iff steps hflag, hexists]
        simp
      have hsame := srv.flag_runAll (fun entry hentry => ⟨?_, hsets entry hentry⟩)
        hrun
      · rw [hsame, hexists]
        rfl
      · rw [(hrequest entry hentry).1, if_neg hpresent]
        exact (otherMethods_spec hcert).1

/-- The enable or disable request sets the requested flag. -/
theorem FlagServer.flag_flagEntries
    (steps : FindSteps cl m (srv.find server) found obj)
    (hflag : cl.cls.enablekey = some key)
    (hstate : m.state = .enabled ∨ m.state = .disabled) {mid server' : σ}
    (hmid : srv.flag mid = some ((srv.flag server).getD true))
    (hrun : runAll (postEntry srv.post) mid (cl.flagEntries m found) =
      .ok server') :
    srv.flag server' =
      some (if srv.flag server = none then true
        else decide (m.state = .enabled)) := by
  have hchange := srv.flagChange_eq steps hflag hstate
  rw [Client.flagEntries, hchange] at hrun
  split at hrun
  · rename_i hother
    rw [Option.map_some, Option.toList_some] at hrun
    obtain ⟨response, hpost⟩ := runAll_singleton hrun
    rw [hother, if_neg (by simp)]
    cases hrequested : decide (m.state = .enabled) with
    | true =>
        refine srv.enabled hpost ?_ rfl
        cases hsense : cl.cls.enablekeySenseInverted <;>
          simp [hrequested, Val.truthy]
    | false =>
        refine srv.disabled hpost ?_ rfl
        cases hsense : cl.cls.enablekeySenseInverted <;>
          simp [hrequested, Val.truthy]
  · rename_i hsame
    obtain rfl := Except.ok.inj hrun
    rw [hmid]
    cases hexists : srv.flag server with
    | none => simp
    | some enabled =>
        rw [hexists] at hsame
        cases enabled <;> cases hrequested : decide (m.state = .enabled) <;>
          simp [hrequested] at hsame ⊢

theorem FlagServer.flag_run (steps : FindSteps cl m (srv.find server) found obj)
    (hflag : cl.cls.enablekey = some key)
    (hstate : m.state = .enabled ∨ m.state = .disabled)
    (hreal : m.checkMode = false) {q : Queue}
    (hqueue : cl.queueRequests m found = .ok q) {server' : σ}
    (hrun : runAll (postEntry srv.post) server q.entries = .ok server') :
    srv.flag server' =
      some (if srv.flag server = none then true
        else decide (m.state = .enabled)) := by
  obtain ⟨hcert, -⟩ := enablekey_spec cl key hflag
  have hends : cl.remEnds m found = false := by
    rcases hstate with hstate | hstate <;> simp [Client.remEnds, hstate]
  have hsets : ∀ entry ∈ q.entries, ¬cl.SetsFlag entry.request :=
    fun entry hentry => steps.not_setsFlag hends hqueue hentry
  obtain ⟨base, hbase, hentries, -⟩ := queue_parts hreal hends hqueue
  rw [hentries, runAll_append] at hrun
  obtain ⟨mid, hfirst, hrun⟩ := hrun
  obtain ⟨mid', hsecond, hthird⟩ := runAll_append.mp hrun
  have hmid := srv.flag_base steps hflag hbase (fun entry hentry =>
    hsets entry (hentries ▸ List.mem_append_left _ hentry)) hfirst
  have hmid' := srv.flag_flagEntries steps hflag hstate hmid hsecond
  rw [← hmid']
  refine srv.flag_runAll (fun entry hentry => ⟨?_, ?_⟩) hthird
  · exact (otherMethods_spec hcert).2 _ (method_of_mem_routeEntries hentry)
  · exact hsets entry (hentries ▸ List.mem_append_right _
      (List.mem_append_right _ hentry))

/-- After a successful run in state `enabled` or `disabled` the object has
the requested flag, and a second run leaves it alone, unless the run had to
create an object that is to be disabled. -/
theorem enable_reaches_flag_iff (hflag : cl.cls.enablekey = some key)
    (hstate : m.state = .enabled ∨ m.state = .disabled)
    (hreal : m.checkMode = false) (srv : FlagServer cl m σ) {server : σ}
    {run : Val × Bool × σ}
    (hensure : cl.ensure m (srv.find server) srv.post server = .ok run) :
    (srv.flag run.2.2 = some (decide (m.state = .enabled)) ∧
      ∀ found q, cl.find m (srv.find run.2.2) = .ok found →
        cl.queueRequests m found = .ok q → ∀ entry ∈ q.entries,
          entry.request.method ≠ cl.method .enabled ∧
            entry.request.method ≠ cl.method .disabled) ↔
    ¬(m.state = .disabled ∧ srv.flag server = none) := by
  obtain ⟨found, q, hfind, hqueue, hrun⟩ := ensure_runAll hreal hensure
  obtain ⟨obj, steps⟩ := Client.find_steps hfind
  have hafter := srv.flag_run steps hflag hstate hreal hqueue hrun
  constructor
  · rintro ⟨hreached, -⟩ ⟨hdisabled, hmissing⟩
    rw [hreached, hdisabled, if_pos hmissing] at hafter
    simp at hafter
  · intro hcond
    have hreached : srv.flag run.2.2 = some (decide (m.state = .enabled)) := by
      rw [hafter]
      split
      · rename_i hmissing
        rcases hstate with hstate | hstate
        · simp [hstate]
        · exact absurd ⟨hstate, hmissing⟩ hcond
      · rfl
    refine ⟨hreached, ?_⟩
    intro found' q' hfind' hqueue' entry hentry
    obtain ⟨obj', steps'⟩ := Client.find_steps hfind'
    have hends : cl.remEnds m found' = false := by
      rcases hstate with hstate | hstate <;> simp [Client.remEnds, hstate]
    have hnochange := srv.flagChange_eq steps' hflag hstate
    rw [hreached, if_neg (by simp)] at hnochange
    rw [← not_or]
    intro hmethod
    have hmem := mem_flagEntries_of_method hends hqueue' hentry hmethod
    simp [Client.flagEntries, hnochange] at hmem

end Flag

/-- A DNS zone as a reply reports it. -/
def zoneObject (enabled : Bool) : Dict String Val :=
  Dict.ofList
    [("idnsname", .list [.str "zapme.example.com."]),
     ("idnszoneactive", .list [.str (if enabled then "TRUE" else "FALSE")])]
    (by simp)

/-- A server that keeps the flag of one DNS zone. -/
def zoneServer (m : AnsibleModule) : FlagServer .dnszone m (Option Bool) where
  post server r :=
    if r.method = "dnszone_add" then
      if server = none then .ok (.dict [], some true)
      else .error (.failJson "already exists")
    else if server = none then .error (.failJson "not found")
    else if r.method = "dnszone_enable" then .ok (.dict [], some true)
    else if r.method = "dnszone_disable" then .ok (.dict [], some false)
    else .ok (.dict [], server)
  find
    | none => .ofList []
    | some enabled => .ofList [zoneObject enabled]
  flag := id
  created := by
    intro server server' r response hpost hmethod _ _
    have hadd : r.method = "dnszone_add" := hmethod
    rw [if_pos hadd] at hpost
    split_ifs at hpost
    exact (Prod.mk.inj (Except.ok.inj hpost)).2.symm
  enabled := by
    intro server server' r response hpost hmethod _
    have henable : r.method = "dnszone_enable" := hmethod
    simp only [henable, String.reduceEq, if_false, if_true] at hpost
    split_ifs at hpost
    exact (Prod.mk.inj (Except.ok.inj hpost)).2.symm
  disabled := by
    intro server server' r response hpost hmethod _
    have hdisable : r.method = "dnszone_disable" := hmethod
    simp only [hdisable, String.reduceEq, if_false, if_true] at hpost
    split_ifs at hpost
    exact (Prod.mk.inj (Except.ok.inj hpost)).2.symm
  other := by
    intro server server' r response hpost hmethod _
    simp only [List.map_cons, List.map_nil, List.mem_cons,
      List.not_mem_nil, or_false, not_or] at hmethod
    have hne : r.method ≠ "dnszone_add" ∧ r.method ≠ "dnszone_enable" ∧
        r.method ≠ "dnszone_disable" := ⟨hmethod.1, hmethod.2.2⟩
    simp only [hne.1, hne.2.1, hne.2.2, if_false] at hpost
    split_ifs at hpost
    exact (Prod.mk.inj (Except.ok.inj hpost)).2.symm
  missing := by
    rintro server rfl
    rfl
  reported := by
    rintro server enabled key rfl hkey
    obtain rfl : "idnszoneactive" = key := Option.some.inj hkey
    refine ⟨zoneObject enabled, _, rfl, by simp [Client.ApiNamed], rfl, ?_⟩
    have hsense : Client.dnszone.cls.enablekeySenseInverted = false := rfl
    rw [hsense, Bool.bne_false]
    exact .upper enabled

/-- A DNS zone that is to be disabled. -/
def zoneDisabled : AnsibleModule :=
  dnszoneClass.ansibleModule {
    given := Dict.ofList [("idnsname", .str "zapme.example.com.")]
    state := .disabled }

/-- A zone that does not exist yet is left enabled. -/
theorem zoneDisabled_left_enabled :
    ¬∀ (cl : Client) (m : AnsibleModule) (key : String) (σ : Type)
      (srv : FlagServer cl m σ) (server : σ) (run : Val × Bool × σ),
      cl.cls.enablekey = some key →
      m.state = .enabled ∨ m.state = .disabled → m.checkMode = false →
      cl.ensure m (srv.find server) srv.post server = .ok run →
      srv.flag run.2.2 = some (decide (m.state = .enabled)) := by
  intro hreaches
  have hrun : ∃ run, Client.dnszone.ensure zoneDisabled
      ((zoneServer zoneDisabled).find none) (zoneServer zoneDisabled).post
      none = .ok run ∧ run.2.2 = some true := ⟨_, rfl, rfl⟩
  obtain ⟨run, hensure, hflag⟩ := hrun
  have hreached := hreaches .dnszone zoneDisabled "idnszoneactive" _
    (zoneServer zoneDisabled) none run rfl (Or.inr rfl) rfl hensure
  have hrequested : decide (zoneDisabled.state = .enabled) = false := rfl
  rw [hflag, hrequested] at hreached
  exact absurd hreached (by simp [zoneServer])

theorem zoneDisabled_reaches_flag_iff :
    ∃ run, Client.dnszone.ensure zoneDisabled
      ((zoneServer zoneDisabled).find (some true))
      (zoneServer zoneDisabled).post (some true) = .ok run ∧
    (((zoneServer zoneDisabled).flag run.2.2 =
        some (decide (zoneDisabled.state = .enabled)) ∧
      ∀ found q, Client.dnszone.find zoneDisabled
        ((zoneServer zoneDisabled).find run.2.2) = .ok found →
        Client.dnszone.queueRequests zoneDisabled found = .ok q →
        ∀ entry ∈ q.entries,
          entry.request.method ≠ Client.dnszone.method .enabled ∧
            entry.request.method ≠ Client.dnszone.method .disabled) ↔
    ¬(zoneDisabled.state = .disabled ∧
      (zoneServer zoneDisabled).flag (some true) = none)) := by
  have hflag : Client.dnszone.cls.enablekey = some "idnszoneactive" := rfl
  have hrun : ∃ run, Client.dnszone.ensure zoneDisabled
      ((zoneServer zoneDisabled).find (some true))
      (zoneServer zoneDisabled).post (some true) = .ok run := ⟨_, rfl⟩
  obtain ⟨run, hensure⟩ := hrun
  exact ⟨run, hensure, enable_reaches_flag_iff hflag (Or.inr rfl) rfl
    (zoneServer zoneDisabled) hensure⟩

end FreeipaProv
