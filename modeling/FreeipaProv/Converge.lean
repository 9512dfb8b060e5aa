import FreeipaProv.Server

/-!
# Runs of CA ACL and DNS zone tasks

A run in state `present` or `exact` sends the edits its object needs, spread
over the base request and the requests of the dedicated methods.  After all
of them the object is the goal of the task, and another run finds nothing to
do.  A run that stops after some of its requests leaves an object with the
same goal, so the next run ends where the first one would have.
-/

namespace FreeipaProv

open Fallible Reconcile

/-- The methods that change an object that exists. -/
def Client.updateMethods (cl : Client) : List String :=
  cl.method .mod :: cl.routes.map fun route => route.2.method

/-- A server with the attributes of the object a task is about.  A request
that adds the object or changes it has its edits carried out, and the reply
to the find request reports all attributes and the enable flag. -/
structure AttrServer (cl : Client) (m : AnsibleModule) (σ : Type) where
  post : Post σ
  find : σ → FindReply
  view : σ → Option ObjState
  created : ∀ {server server' : σ} {r : Request} {response : Val},
    post server r = .ok (response, server') → r.method = cl.method .add →
    r.name = cl.cls.modRequestParams m → cl.Understood r →
    view server = none →
    view server' = some (Store.blank.applyAll (cl.edits r))
  updated : ∀ {server server' : σ} {r : Request} {response : Val}
    {obj : ObjState}, post server r = .ok (response, server') →
    r.method ∈ cl.updateMethods → r.name = cl.cls.modRequestParams m →
    cl.Understood r → view server = some obj →
    view server' = some (obj.applyAll (cl.edits r))
  missing : ∀ {server : σ}, view server = none → (find server).result = []
  reported : ∀ {server : σ} {obj : ObjState}, view server = some obj →
    ∃ item, (find server).result.getLast? = some item ∧
      cl.Reports obj item ∧ ∀ key, cl.cls.enablekey = some key →
        ∃ b raw, item.lookup key = some raw ∧ ApiScalar .bool (.bool b) raw

/-- The object, or the one an add request starts from. -/
def AttrServer.object {cl : Client} {m : AnsibleModule} {σ : Type}
    (srv : AttrServer cl m σ) (server : σ) : ObjState :=
  (srv.view server).getD Store.blank

/-! ## The find reply -/

section Find

variable {cl : Client} {m : AnsibleModule} {σ : Type}
  {srv : AttrServer cl m σ} {server : σ} {found : Found}
  {item : Dict String Val} {key : String}

theorem AttrServer.findResult (hflag : cl.cls.enablekey = some key)
    (srv : AttrServer cl m σ) (server : σ) :
    ∃ item, cl.findResult m (srv.find server) = .ok item ∧
      cl.Reports (srv.object server) item := by
  obtain ⟨hcert, hrecord, -⟩ := enablekey_spec cl key hflag
  rw [findResult_eq hcert hrecord]
  cases hview : srv.view server with
  | none =>
      refine ⟨∅, by rw [srv.missing hview]; rfl, ?_⟩
      rw [AttrServer.object, hview]
      exact cl.reports_blank
  | some obj =>
      obtain ⟨item, hlast, hreports, -⟩ := srv.reported hview
      refine ⟨item, by rw [hlast]; rfl, ?_⟩
      rw [AttrServer.object, hview]
      exact hreports

theorem AttrServer.objectExists_iff
    (steps : FindSteps cl m (srv.find server) found item) :
    found.objectExists = true ↔ srv.view server ≠ none := by
  rw [steps.objectExists, ← Bool.not_eq_false,
    FindReply.objectExists_eq_false_iff, not_iff_not]
  constructor
  · intro hnil
    by_contra hview
    obtain ⟨obj, hview⟩ := Option.ne_none_iff_exists'.mp hview
    obtain ⟨item', hlast, -⟩ := srv.reported hview
    rw [hnil] at hlast
    contradiction
  · exact fun hview => srv.missing hview

/-- The flag tells an existing object from a missing one. -/
theorem AttrServer.isAbsent_iff (huser : cl ≠ .user)
    (hservice : cl ≠ .service) (hflag : cl.cls.enablekey = some key)
    (steps : FindSteps cl m (srv.find server) found item) :
    found.isAbsent = true ↔ srv.view server = none := by
  obtain ⟨hcert, hrecord, -, hparam, htype, hname, -⟩ :=
    enablekey_spec cl key hflag
  have hitem := steps.selected
  rw [findResult_eq hcert hrecord] at hitem
  constructor
  · intro habsent
    by_contra hview
    obtain ⟨obj, hview⟩ := Option.ne_none_iff_exists'.mp hview
    obtain ⟨item', hlast, hreports, hflags⟩ := srv.reported hview
    obtain ⟨b, raw, hraw, hscalar⟩ := hflags key hflag
    rw [hlast, Option.getD_some] at hitem
    obtain rfl := Except.ok.inj hitem
    have hcurrent := hreports.lookup_current hcert huser hservice
      steps.current htype hparam
    rw [Found.isAbsent_iff.mp habsent, hname, hraw, Option.bind_some,
      hscalar.cleanValue] at hcurrent
    contradiction
  · intro hview
    rw [srv.missing hview] at hitem
    have hcurrent := steps.current
    rw [← Except.ok.inj hitem, List.getLast?_nil, Option.getD_none,
      Client.mungeResponse_empty] at hcurrent
    rw [Found.isAbsent, ← Except.ok.inj hcurrent]
    rfl

end Find

/-! ## Posting requests -/

/-- The request names the object and asks for nothing but edits of it. -/
def Client.Addresses (cl : Client) (m : AnsibleModule) (r : Request) : Prop :=
  r.name = cl.cls.modRequestParams m ∧ cl.Understood r

/-- The edits the requests of some queue entries ask for. -/
def Client.entryEdits (cl : Client) (entries : List QueueEntry) :
    List (Edit String String Atom) :=
  entries.flatMap fun entry => cl.edits entry.request

theorem AttrServer.view_updates {cl : Client} {m : AnsibleModule} {σ : Type}
    {srv : AttrServer cl m σ} {entries : List QueueEntry}
    {server server' : σ} {obj : ObjState}
    (hentries : ∀ entry ∈ entries, entry.request.method ∈ cl.updateMethods ∧
      cl.Addresses m entry.request)
    (hview : srv.view server = some obj)
    (hrun : runAll (postEntry srv.post) server entries = .ok server') :
    srv.view server' = some (obj.applyAll (cl.entryEdits entries)) := by
  refine applyAll_of_posts (p := fun s obj => srv.view s = some obj)
    (fun entry hentry s s' response obj hpost hbefore => ?_) hrun hview
  obtain ⟨hmethod, hname, hunderstood⟩ := hentries entry hentry
  exact srv.updated hpost hmethod hname hunderstood hbefore

section Queue

variable {cl : Client} {t : TypedTask cl} {σ : Type}
  {srv : AttrServer cl t.ansibleModule σ} {server : σ} {found : Found}
  {item : Dict String Val} {q : Queue} {key : String}

theorem TypedTask.flagEntries_eq_nil (t : TypedTask cl)
    (hstate : t.state = .present ∨ t.state = .exact) (found : Found) :
    cl.flagEntries t.ansibleModule found = [] := by
  have hguard : (!(decide (t.ansibleModule.state = .enabled) ||
      decide (t.ansibleModule.state = .disabled))) = true := by
    change (!(decide (t.state = .enabled) ||
      decide (t.state = .disabled))) = true
    rcases hstate with hstate | hstate <;> simp [hstate]
  simp [Client.flagEntries, Client.flagChange, hguard]

/-- The queue of a run in state `present` or `exact`. -/
theorem TypedTask.queue_parts (t : TypedTask cl)
    (hstate : t.state = .present ∨ t.state = .exact)
    (hreal : t.checkMode = false)
    (hqueue : cl.queueRequests t.ansibleModule found = .ok q) :
    ∃ base, cl.baseEntries t.ansibleModule found = .ok base ∧
      q.entries = base ++ cl.routeEntries t.ansibleModule found ∧
      q.changed = cl.marksChanged found := by
  obtain ⟨base, hbase, hentries, hchanged⟩ :=
    FreeipaProv.queue_parts hreal (t.remEnds_eq_false hstate found) hqueue
  refine ⟨base, hbase, ?_, hchanged⟩
  rw [hentries, t.flagEntries_eq_nil hstate, List.nil_append]

/-- The clients with an enable flag, apart from users. -/
theorem plain_of_flag (huser : cl ≠ .user)
    (hflag : cl.cls.enablekey = some key) :
    cl ≠ .cert ∧ cl ≠ .service ∧ cl ≠ .dnsrecord ∧ cl ≠ .ca := by
  cases cl <;> simp_all [Client.cls, groupClass, serviceClass, dnsrecordClass,
    caClass, certClass]

theorem AttrServer.compares (huser : cl ≠ .user)
    (hflag : cl.cls.enablekey = some key)
    (hstate : t.state = .present ∨ t.state = .exact)
    (steps : FindSteps cl t.ansibleModule (srv.find server) found item) :
    t.Compares (srv.object server) found.canonParams
      found.responseCleaned := by
  obtain ⟨hcert, hservice, -, -⟩ := plain_of_flag huser hflag
  obtain ⟨item', hitem', hreports⟩ := srv.findResult hflag server
  obtain rfl := Except.ok.inj (steps.selected.symm.trans hitem')
  exact TypedTask.compares hcert huser hservice hstate steps hreports

theorem AttrServer.computeChanges (huser : cl ≠ .user)
    (hflag : cl.cls.enablekey = some key)
    (steps : FindSteps cl t.ansibleModule (srv.find server) found item) :
    cl.cls.computeChanges t.state found.canonParams found.responseCleaned =
      .ok found.diffs :=
  Client.computeChanges_eq steps.diffs fun hcert =>
    (plain_of_flag huser hflag).1 hcert.1

/-- The requests of a queue ask for exactly the edits the object needs. -/
theorem AttrServer.mem_entryEdits (huser : cl ≠ .user)
    (hflag : cl.cls.enablekey = some key)
    (hstate : t.state = .present ∨ t.state = .exact)
    (hreal : t.checkMode = false)
    (steps : FindSteps cl t.ansibleModule (srv.find server) found item)
    (hqueue : cl.queueRequests t.ansibleModule found = .ok q)
    {e : Edit String String Atom} :
    e ∈ cl.entryEdits q.entries ↔
      e.Needed (t.goal (srv.object server)) (srv.object server) := by
  have hdecode := steps.decode_queue hreal (t.remEnds_eq_false hstate found)
    hqueue
  have hedits : cl.entryEdits q.entries = (q.entries.flatMap fun entry =>
      cl.decode entry.request).filterMap Change.edit :=
    (List.filterMap_flatMap ..).symm
  rw [hedits, (hdecode.filterMap _).mem_iff]
  exact (srv.compares huser hflag hstate steps).mem_edits
    (srv.computeChanges huser hflag steps)

theorem AttrServer.addresses (huser : cl ≠ .user)
    (hflag : cl.cls.enablekey = some key)
    (hstate : t.state = .present ∨ t.state = .exact)
    (hreal : t.checkMode = false)
    (steps : FindSteps cl t.ansibleModule (srv.find server) found item)
    (hqueue : cl.queueRequests t.ansibleModule found = .ok q)
    {entry : QueueEntry} (hentry : entry ∈ q.entries) :
    cl.Addresses t.ansibleModule entry.request := by
  constructor
  · obtain ⟨base, hbase, hentries, -⟩ := t.queue_parts hstate hreal hqueue
    rw [hentries, List.mem_append] at hentry
    rcases hentry with hentry | hentry
    · unfold Client.baseEntries at hbase
      split_ifs at hbase
      · obtain ⟨request, hrequest, hbase⟩ := bind_eq_ok_iff.mp hbase
        obtain ⟨name, hname, rfl⟩ := Client.baseRequest_eq_ok hrequest
        rw [← Except.ok.inj hbase, List.mem_singleton] at hentry
        rw [modRequestParams_of_flag hflag] at hname
        rw [hentry]
        exact (Except.ok.inj hname).symm
      · rw [← Except.ok.inj hbase] at hentry
        contradiction
    · obtain ⟨marks, route, hroute, -, rfl⟩ :=
        Client.mem_routeEntries.mp hentry
      exact Route.request_name (routes_encoding huser _ hroute) _ _
  · intro change hchange
    exact (srv.compares huser hflag hstate steps).edit_ne_none
      (srv.computeChanges huser hflag steps)
      (steps.mem_managedChanges (t.remEnds_eq_false hstate found) hqueue hentry
        hchange)

/-- The methods of a queue: a missing object is added first. -/
theorem AttrServer.queue_methods (huser : cl ≠ .user)
    (hflag : cl.cls.enablekey = some key)
    (hstate : t.state = .present ∨ t.state = .exact)
    (hreal : t.checkMode = false)
    (steps : FindSteps cl t.ansibleModule (srv.find server) found item)
    (hqueue : cl.queueRequests t.ansibleModule found = .ok q) :
    (srv.view server = none → ∃ entry rest, q.entries = entry :: rest ∧
      entry.request.method = cl.method .add ∧
      ∀ entry' ∈ rest, entry'.request.method ∈ cl.updateMethods) ∧
    (srv.view server ≠ none →
      ∀ entry ∈ q.entries, entry.request.method ∈ cl.updateMethods) := by
  obtain ⟨hcert, hservice, hrecord, hca⟩ := plain_of_flag huser hflag
  obtain ⟨base, hbase, hentries, -⟩ := t.queue_parts hstate hreal hqueue
  have hroutes : ∀ entry ∈ cl.routeEntries t.ansibleModule found,
      entry.request.method ∈ cl.updateMethods := by
    intro entry hentry
    exact List.mem_cons_of_mem _ (method_of_mem_routeEntries hentry)
  have habsent := srv.isAbsent_iff huser hservice hflag steps
  constructor
  · intro hview
    have hexists : ¬found.objectExists = true := by
      rw [AttrServer.objectExists_iff steps]
      exact not_not_intro hview
    unfold Client.baseEntries at hbase
    rw [if_pos (by simp [Client.queuesBase, hexists])] at hbase
    obtain ⟨request, hrequest, hbase⟩ := bind_eq_ok_iff.mp hbase
    obtain ⟨name, -, rfl⟩ := Client.baseRequest_eq_ok hrequest
    rw [← Except.ok.inj hbase] at hentries
    exact ⟨_, _, hentries, if_pos (habsent.mpr hview), hroutes⟩
  · intro hview entry hentry
    rw [hentries, List.mem_append] at hentry
    rcases hentry with hentry | hentry
    · unfold Client.baseEntries at hbase
      split_ifs at hbase
      · obtain ⟨request, hrequest, hbase⟩ := bind_eq_ok_iff.mp hbase
        obtain ⟨name, -, rfl⟩ := Client.baseRequest_eq_ok hrequest
        rw [← Except.ok.inj hbase, List.mem_singleton] at hentry
        rw [hentry]
        dsimp only
        rw [if_neg (habsent.not.mpr hview)]
        exact List.mem_cons_self
      · rw [← Except.ok.inj hbase] at hentry
        contradiction
    · exact hroutes entry hentry

/-- The object after some of the requests of a queue. -/
theorem AttrServer.object_of_prefix (huser : cl ≠ .user)
    (hflag : cl.cls.enablekey = some key)
    (hstate : t.state = .present ∨ t.state = .exact)
    (hreal : t.checkMode = false)
    (steps : FindSteps cl t.ansibleModule (srv.find server) found item)
    (hqueue : cl.queueRequests t.ansibleModule found = .ok q)
    {before after : List QueueEntry} (hsplit : q.entries = before ++ after)
    {mid : σ} (hrun : runAll (postEntry srv.post) server before = .ok mid) :
    srv.object mid =
        (srv.object server).applyAll (cl.entryEdits before) ∧
      (srv.view mid = none → before = [] ∧ srv.view server = none) := by
  have haddresses : ∀ entry ∈ before,
      cl.Addresses t.ansibleModule entry.request := by
    intro entry hentry
    apply srv.addresses huser hflag hstate hreal steps hqueue
    rw [hsplit]
    exact List.mem_append_left after hentry
  obtain ⟨hmissing, hexisting⟩ :=
    srv.queue_methods huser hflag hstate hreal steps hqueue
  cases hview : srv.view server with
  | some obj =>
      have hmethods := hexisting (by simp [hview])
      have hmid := srv.view_updates (fun entry hentry =>
        ⟨hmethods entry (hsplit ▸ List.mem_append_left after hentry),
          haddresses entry hentry⟩) hview hrun
      simp [AttrServer.object, hview, hmid]
  | none =>
      cases before with
      | nil =>
          obtain rfl := Except.ok.inj hrun
          exact ⟨rfl, fun _ => ⟨rfl, rfl⟩⟩
      | cons first early =>
          obtain ⟨entry, rest, hentries, hadd, hupdates⟩ := hmissing hview
          rw [hentries, List.cons_append, List.cons.injEq] at hsplit
          obtain ⟨rfl, rfl⟩ := hsplit
          obtain ⟨next, hpost, hrun⟩ := bind_eq_ok_iff.mp hrun
          obtain ⟨response, hpost⟩ := postEntry_eq_ok hpost
          obtain ⟨hname, hunderstood⟩ :=
            haddresses entry List.mem_cons_self
          have hcreated := srv.created hpost hadd hname hunderstood hview
          have hmid := srv.view_updates (fun entry' hentry' =>
            ⟨hupdates entry' (List.mem_append_left after hentry'),
              haddresses entry' (List.mem_cons_of_mem entry hentry')⟩)
            hcreated hrun
          rw [← Store.applyAll_append] at hmid
          rw [AttrServer.object, AttrServer.object, hview, hmid]
          exact ⟨rfl, fun hnone => by contradiction⟩

/-- All requests together make the object the goal. -/
theorem AttrServer.view_run (huser : cl ≠ .user)
    (hflag : cl.cls.enablekey = some key)
    (hstate : t.state = .present ∨ t.state = .exact)
    (hreal : t.checkMode = false) {run : Val × Bool × σ}
    (hensure : cl.ensure t.ansibleModule (srv.find server) srv.post server =
      .ok run) :
    srv.view run.2.2 = some (t.goal (srv.object server)) := by
  obtain ⟨found, q, hfind, hqueue, hrun⟩ := ensure_runAll hreal hensure
  obtain ⟨item, steps⟩ := Client.find_steps hfind
  have hneeded : ∀ {e : Edit String String Atom}, e ∈ cl.entryEdits q.entries ↔
      e.Needed (t.goal (srv.object server)) (srv.object server) :=
    srv.mem_entryEdits huser hflag hstate hreal steps hqueue
  obtain ⟨hobject, hmissing⟩ := srv.object_of_prefix huser hflag hstate hreal
    steps hqueue (List.append_nil _).symm hrun
  rw [Store.applyAll_eq_goal (fun e he => (hneeded.mp he).agrees)
    (fun e he => hneeded.mpr he)] at hobject
  cases hview : srv.view run.2.2 with
  | none =>
      obtain ⟨hnil, hnone⟩ := hmissing hview
      obtain ⟨entry, rest, hentries, -⟩ := (srv.queue_methods huser hflag
        hstate hreal steps hqueue).1 hnone
      rw [hnil] at hentries
      contradiction
  | some obj =>
      rw [AttrServer.object, hview, Option.getD_some] at hobject
      rw [hobject]

end Queue

/-- A DNS zone with a name server in its SOA record and its NS records. -/
structure Zone where
  soamname : Option String
  nsrecord : List String
  deriving DecidableEq, Repr

def Zone.blank : Zone := ⟨none, []⟩

/-- The attributes this server knows; it rejects other changes. -/
def Zone.change (zone : Zone) : Change → Except Failure Zone
  | .add "nsrecord" (.str s) =>
      .ok { zone with nsrecord := s :: zone.nsrecord }
  | .del "nsrecord" (.str s) =>
      .ok { zone with nsrecord := zone.nsrecord.filter (· ≠ s) }
  | .set "idnssoamname" .none => .ok { zone with soamname := none }
  | .set "idnssoamname" (.str s) => .ok { zone with soamname := some s }
  | _ => .error (.failJson "invalid attribute")

def Zone.obj (zone : Zone) : ObjState where
  lists key := {s | key = "nsrecord" ∧ s ∈ zone.nsrecord}
  scalars key :=
    if key = "idnssoamname" then zone.soamname.map .str else none

def Zone.item (zone : Zone) : Dict String Val :=
  Dict.ofKeys ["idnsname", "idnszoneactive", "idnssoamname", "nsrecord"]
    fun key =>
      if key = "idnsname" then some (.list [.str "example.com."])
      else if key = "idnszoneactive" then some (.list [.str "TRUE"])
      else if key = "idnssoamname" then
        zone.soamname.map fun s => .list [.str s]
      else some (.list (zone.nsrecord.map .str))

theorem Zone.obj_change {zone zone' : Zone} {change : Change}
    (hok : zone.change change = .ok zone') :
    ∃ e, change.edit = some e ∧ zone'.obj = zone.obj.apply e := by
  unfold Zone.change at hok
  split at hok
  · rename_i s
    obtain rfl := Except.ok.inj hok
    refine ⟨_, rfl, Store.ext ?_ rfl⟩
    funext key
    ext s'
    rw [Store.mem_lists_apply]
    by_cases hkey : key = "nsrecord"
    · simp [Zone.obj, hkey, eq_comm]
    · simp [Zone.obj, hkey, Ne.symm hkey]
  · rename_i s
    obtain rfl := Except.ok.inj hok
    refine ⟨_, rfl, Store.ext ?_ rfl⟩
    funext key
    ext s'
    rw [Store.mem_lists_apply]
    by_cases hkey : key = "nsrecord"
    · simp [Zone.obj, hkey, @eq_comm _ s s']
    · simp [Zone.obj, hkey]
  · obtain rfl := Except.ok.inj hok
    refine ⟨_, rfl, Store.ext rfl ?_⟩
    funext key
    by_cases hkey : key = "idnssoamname" <;>
      simp [Zone.obj, Store.apply, hkey]
  · rename_i s
    obtain rfl := Except.ok.inj hok
    refine ⟨_, rfl, Store.ext rfl ?_⟩
    funext key
    by_cases hkey : key = "idnssoamname" <;>
      simp [Zone.obj, Store.apply, hkey]
  · contradiction

theorem Zone.obj_runAll {changes : List Change} {zone zone' : Zone}
    (hrun : runAll Zone.change zone changes = .ok zone') :
    zone'.obj = zone.obj.applyAll (changes.filterMap Change.edit) := by
  induction changes generalizing zone with
  | nil =>
      obtain rfl := Except.ok.inj hrun
      rfl
  | cons change rest ih =>
      obtain ⟨mid, hmid, hrest⟩ := bind_eq_ok_iff.mp hrun
      obtain ⟨e, he, hobj⟩ := Zone.obj_change hmid
      rw [ih hrest, hobj, List.filterMap_cons, he]
      rfl

/-- The attributes of DNS zones this server may report. -/
theorem dnszone_attrs : ∀ key ∈ dnszoneClass.kwArgs.keys,
    (Client.dnszone.ListAttr key → key = "nsrecord") ∧
      (Client.dnszone.ScalarAttr key →
        key ≠ "idnsname" ∧ key ≠ "idnszoneactive" ∧ key ≠ "nsrecord") := by
  decide +kernel

theorem Zone.item_reports (zone : Zone) :
    Client.dnszone.Reports zone.obj zone.item where
  named := by
    intro hcl
    contradiction
  lists := by
    intro key hkey
    obtain rfl := (dnszone_attrs key
      (ClientClass.mem_kwArgs_of_type hkey.2)).1 hkey
    change ApiList _ (zone.item.lookup "nsrecord")
    have hlookup : zone.item.lookup "nsrecord" =
        some (.list (zone.nsrecord.map .str)) := by
      simp [Zone.item]
    rw [hlookup]
    exact .listed fun s => by simp [Zone.obj]
  others := by
    intro key type raw htype hlist hraw
    change zone.item.lookup key = some raw at hraw
    rw [Zone.item, Dict.lookup_ofKeys] at hraw
    split_ifs at hraw with hkeys hname hflag hsoa
    · subst hname
      obtain rfl := Option.some.inj hraw
      obtain rfl : ParamType.str = type := Option.some.inj htype
      exact ⟨_, .text _⟩
    · subst hflag
      obtain rfl := Option.some.inj hraw
      obtain rfl : ParamType.bool = type := Option.some.inj htype
      exact ⟨_, .upper true⟩
    · subst hsoa
      obtain ⟨s, -, rfl⟩ := Option.map_eq_some_iff.mp hraw
      obtain rfl : ParamType.str = type := Option.some.inj htype
      exact ⟨_, .text s⟩
    · have hkey : key = "nsrecord" := by
        simpa [hname, hflag, hsoa] using hkeys
      subst hkey
      exact absurd (Option.some.inj htype).symm hlist
  scalars := by
    intro key type hkey htype
    obtain ⟨hname, hflag, hns⟩ := (dnszone_attrs key
      (ClientClass.mem_kwArgs_of_type htype)).2 hkey
    change ApiValue type (zone.obj.scalars key) (zone.item.lookup key)
    by_cases hsoa : key = "idnssoamname"
    · subst hsoa
      obtain rfl : ParamType.str = type := Option.some.inj htype
      cases hvalue : zone.soamname with
      | none =>
          have hlookup : zone.item.lookup "idnssoamname" = none := by
            simp [Zone.item, hvalue]
          have hobj : zone.obj.scalars "idnssoamname" = none := by
            simp [Zone.obj, hvalue]
          rw [hlookup, hobj]
          exact .omitted
      | some s =>
          have hlookup : zone.item.lookup "idnssoamname" =
              some (.list [.str s]) := by
            simp [Zone.item, hvalue]
          have hobj : zone.obj.scalars "idnssoamname" = some (.str s) := by
            simp [Zone.obj, hvalue]
          rw [hlookup, hobj]
          exact .reported (.text s)
    · have hlookup : zone.item.lookup key = none := by
        simp [Zone.item, hname, hflag, hsoa, hns]
      have hobj : zone.obj.scalars key = none := if_neg hsoa
      rw [hlookup, hobj]
      exact .omitted

/-- A server that keeps one DNS zone. -/
def zoneAttrServer (m : AnsibleModule) :
    AttrServer .dnszone m (Option Zone) where
  post server r :=
    match r.method, server with
    | "dnszone_add", none =>
        (runAll Zone.change Zone.blank (Client.dnszone.decode r)).map
          fun zone => (.dict [], some zone)
    | "dnszone_mod", some zone =>
        (runAll Zone.change zone (Client.dnszone.decode r)).map
          fun zone => (.dict [], some zone)
    | _, _ => .error (.failJson "not supported")
  find
    | none => .ofList []
    | some zone => .ofList [zone.item]
  view := Option.map Zone.obj
  created := by
    intro server server' r response hpost hmethod _ _ hview
    obtain rfl := Option.map_eq_none_iff.mp hview
    have hadd : r.method = "dnszone_add" := hmethod
    rw [hadd] at hpost
    cases hrun : runAll Zone.change Zone.blank (Client.dnszone.decode r) with
    | error err => simp [hrun, Except.map] at hpost
    | ok zone =>
        simp only [hrun, Except.map, Except.ok.injEq, Prod.mk.injEq] at hpost
        have hblank : Zone.blank.obj = Store.blank := by
          apply Store.ext
          · funext key
            simp [Zone.obj, Zone.blank, Store.blank]
          · funext key
            simp [Zone.obj, Zone.blank, Store.blank]
        rw [← hpost.2, Option.map_some, Zone.obj_runAll hrun, hblank]
        rfl
  updated := by
    intro server server' r response obj hpost hmethod _ _ hview
    obtain ⟨zone, rfl, rfl⟩ := Option.map_eq_some_iff.mp hview
    have hmod : r.method = "dnszone_mod" := List.mem_singleton.mp hmethod
    rw [hmod] at hpost
    cases hrun : runAll Zone.change zone (Client.dnszone.decode r) with
    | error err => simp [hrun, Except.map] at hpost
    | ok zone' =>
        simp only [hrun, Except.map, Except.ok.injEq, Prod.mk.injEq] at hpost
        rw [← hpost.2, Option.map_some, Zone.obj_runAll hrun]
        rfl
  missing := by
    intro server hview
    obtain rfl := Option.map_eq_none_iff.mp hview
    rfl
  reported := by
    intro server obj hview
    obtain ⟨zone, rfl, rfl⟩ := Option.map_eq_some_iff.mp hview
    refine ⟨zone.item, rfl, zone.item_reports, ?_⟩
    rintro key hkey
    obtain rfl : "idnszoneactive" = key := Option.some.inj hkey
    exact ⟨true, _, rfl, .upper true⟩

/-- A DNS zone that is to have exactly one NS record. -/
def zoneExact : TypedTask .dnszone where
  given := Dict.ofList
    [("idnsname", .str "example.com."),
     ("idnssoamname", .str "ns1.example.com."),
     ("nsrecord", .list [.str "ns1.example.com."])]
  state := .exact
  typed := by
    intro key raw type hraw htype
    replace hraw := Dict.mem_of_lookup_ofList hraw
    simp only [List.mem_cons, Prod.mk.injEq, List.not_mem_nil, or_false]
      at hraw
    rcases hraw with ⟨rfl, rfl⟩ | ⟨rfl, rfl⟩ | ⟨rfl, rfl⟩
    · obtain rfl : ParamType.str = type := Option.some.inj htype
      exact .text _
    · obtain rfl : ParamType.str = type := Option.some.inj htype
      exact .text _
    · obtain rfl : ParamType.list = type := Option.some.inj htype
      exact .listed ["ns1.example.com."]

def otherZone : Option Zone := some ⟨none, ["ns2.example.com."]⟩

end FreeipaProv
