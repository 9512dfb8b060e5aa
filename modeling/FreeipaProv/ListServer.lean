import FreeipaProv.Server

/-!
# A server that keeps lists as sets

The server keeps each list attribute of one object as a set of strings.  A
request that names the object adds and removes values, and a find reply
reports the values.  A run moves each list from what the server has to what
the task asks for in its state: the values of the task come on top, replace
the others, or are taken away.
-/

namespace FreeipaProv

open Fallible Reconcile

/-- The edit of a change of a list attribute, when the server writes a value
as `stored` says. -/
def Change.listEdit (stored : String → String → String) :
    Change → Option (Edit String String Atom)
  | .add key val => some (.add key (stored key val.pyStr))
  | .del key val => some (.del key (stored key val.pyStr))
  | _ => none

def Client.listEdits (cl : Client) (stored : String → String → String)
    (r : Request) : List (Edit String String Atom) :=
  (cl.decode r).filterMap (Change.listEdit stored)

/-- A list attribute that a reply reports as the server keeps it. -/
def Client.PlainList (cl : Client) (key : String) : Prop :=
  cl.ListAttr key ∧ key ≠ "usercertificate" ∧ key ≠ "krbprincipalname"

instance (cl : Client) : DecidablePred cl.PlainList := fun _ =>
  inferInstanceAs (Decidable (_ ∧ _))

/-- A server with the list attributes of the object of that name. -/
structure ListServer (cl : Client) (name : List Val) (σ : Type) where
  post : Post σ
  find : σ → FindReply
  view : σ → ObjState
  stored : String → String → String
  updated : ∀ {server server' : σ} {r : Request} {response : Val},
    post server r = .ok (response, server') → r.method ≠ cl.method .rem →
    name <+: r.name →
    view server' = (view server).applyAll (cl.listEdits stored r)
  reported : ∀ {m : AnsibleModule} {server : σ} {item : Dict String Val},
    cl.modRequestParams m = .ok name →
    cl.findResult m (find server) = .ok item →
    cl.ApiNamed item ∧ ∀ key, cl.PlainList key →
      ApiList ((view server).lists key) (item.lookup (cl.apiName key))

/-! ## The lists a run finds -/

/-- The current value of a list attribute has the strings of the reply. -/
theorem strsValue_current {cl : Client} {m : AnsibleModule}
    {item current : Dict String Val} {vals : Set String} {key : String}
    (hnamed : cl.ApiNamed item) (hkey : cl.PlainList key)
    (hlist : ApiList vals (item.lookup (cl.apiName key)))
    (hok : cl.mungeResponse m item = .ok current) :
    StrsValue (current.lookup key) vals := by
  rw [Client.lookup_mungeResponse hkey.1.ne_cert hok hkey.2.1 hkey.2.2,
    if_neg hkey.1.1.1.2, ClientClass.cleanedAt,
    lookup_apiAttributes hnamed (ClientClass.mem_kwArgs_of_type hkey.1.2),
    hkey.1.2]
  exact hlist.cleaned

theorem TypedTask.members_desired {cl : Client} {t : TypedTask cl}
    {desired : Dict String Val} {key : String} (hkey : cl.ListAttr key)
    (hok : cl.mungeModuleParams t.ansibleModule = .ok desired) (a : Atom) :
    a ∈ cl.cls.members desired key ↔ ∃ s ∈ t.wants.lists key, a = .str s :=
  (TypedTask.desired_listsAs hok).members key hkey a

/-! ## The requests of a queue -/

theorem Route.name_prefix (route : Route) (name : List Val)
    (diffs : Changes) : name <+: (route.request name diffs).name := by
  unfold Route.request
  dsimp only
  split
  · exact List.prefix_append _ _
  · exact List.prefix_rfl

section Queue

variable {cl : Client} {m : AnsibleModule} {found : Found} {q : Queue}
  {name : List Val}

/-- Only clients with the plain request name have later requests. -/
theorem modRequestParams_of_later
    (hlater : cl.cls.enablekey ≠ none ∨ cl.routes ≠ [])
    (m : AnsibleModule) :
    cl.modRequestParams m = .ok (cl.cls.modRequestParams m) := by
  cases cl with
  | dnsrecord | cert =>
      rcases hlater with hflag | hroutes
      · exact absurd rfl hflag
      · exact absurd rfl hroutes
  | user | group | service | caacl | dnszone | ca => rfl

theorem name_prefix_of_queue (hends : cl.remEnds m found = false)
    (hqueue : cl.queueRequests m found = .ok q)
    (hname : cl.modRequestParams m = .ok name) {entry : QueueEntry}
    (hentry : entry ∈ q.entries) : name <+: entry.request.name := by
  have hlaterName : cl.cls.enablekey ≠ none ∨ cl.routes ≠ [] →
      cl.cls.modRequestParams m = name := by
    intro hlater
    rw [modRequestParams_of_later hlater] at hname
    exact Except.ok.inj hname
  rcases queueEntry_cases hends hqueue hentry with
    ⟨-, hbase⟩ | ⟨-, hflag⟩ | ⟨-, hroute⟩
  · obtain ⟨name', hname', heq⟩ := Client.baseRequest_eq_ok hbase
    obtain rfl := Except.ok.inj (hname.symm.trans hname')
    rw [heq]
  · have hkey : cl.cls.enablekey ≠ none := by
      intro hnone
      rw [flagEntries_eq_nil cl hnone] at hflag
      contradiction
    rw [← hlaterName (Or.inl hkey)]
    obtain ⟨flag, -, rfl⟩ := Option.map_eq_some_iff.mp
      (Option.mem_toList.mp hflag)
    exact List.prefix_rfl
  · obtain ⟨marks, route, hmem, -, rfl⟩ := Client.mem_routeEntries.mp hroute
    rw [← hlaterName (Or.inr (List.ne_nil_of_mem hmem))]
    exact route.name_prefix _ _

theorem named_of_queue (hends : cl.remEnds m found = false)
    (hqueue : cl.queueRequests m found = .ok q)
    (hname : cl.modRequestParams m = .ok name) {entry : QueueEntry}
    (hentry : entry ∈ q.entries) :
    entry.request.method ≠ cl.method .rem ∧ name <+: entry.request.name := by
  constructor
  · intro hrem
    rw [remEnds_of_remMethod hqueue hentry hrem] at hends
    contradiction
  · exact name_prefix_of_queue hends hqueue hname hentry

/-- The list edits of some queue entries. -/
def Client.entryListEdits (cl : Client) (stored : String → String → String)
    (entries : List QueueEntry) : List (Edit String String Atom) :=
  entries.flatMap fun entry => cl.listEdits stored entry.request

theorem mem_entryListEdits {reply : FindReply} {item : Dict String Val}
    (steps : FindSteps cl m reply found item) (hreal : m.checkMode = false)
    (hends : cl.remEnds m found = false)
    (hqueue : cl.queueRequests m found = .ok q)
    {stored : String → String → String} {e : Edit String String Atom} :
    e ∈ cl.entryListEdits stored q.entries ↔
      e ∈ (cl.managedChanges found.diffs).filterMap
        (Change.listEdit stored) := by
  have hdecode := steps.decode_queue hreal hends hqueue
  have hedits : cl.entryListEdits stored q.entries =
      (q.entries.flatMap fun entry => cl.decode entry.request).filterMap
        (Change.listEdit stored) :=
    (List.filterMap_flatMap ..).symm
  rw [hedits, (hdecode.filterMap _).mem_iff]

theorem pyStr_wire (cl : Client) (key : String) (a : Atom) :
    (cl.wire key a).pyStr = a.pyStr := by
  unfold Client.wire
  split <;> rfl

def Side.edit : Side → String → String → Edit String String Atom
  | .add => .add
  | .del => .del

/-- The edits on one side of a diff. -/
theorem mem_sideEdits {diffs : Changes} {stored : String → String → String}
    {key val : String} (hkey : cl.Managed key) (side : Side) :
    side.edit key val ∈
        (cl.managedChanges diffs).filterMap (Change.listEdit stored) ↔
      ∃ a, (∃ vals, (diffs.side side).lookup key = some vals ∧ a ∈ vals) ∧
        stored key a.pyStr = val := by
  rw [List.mem_filterMap]
  constructor
  · rintro ⟨change, hchange, hedit⟩
    rcases Client.mem_managedChanges.mp hchange with
      ⟨side', key', a, -, ha, rfl⟩ | ⟨key', new, -, -, rfl⟩
    · cases side <;> cases side' <;>
        simp only [Side.change, Side.edit, Change.listEdit, Option.some.injEq,
          Edit.add.injEq, Edit.del.injEq, reduceCtorEq] at hedit
      all_goals
        obtain ⟨rfl, hval⟩ := hedit
        rw [pyStr_wire] at hval
        exact ⟨a, ha, hval⟩
    · contradiction
  · rintro ⟨a, ha, rfl⟩
    refine ⟨side.change key (cl.wire key a), ?_, ?_⟩
    · exact Client.mem_managedChanges.mpr
        (Or.inl ⟨side, key, a, hkey, ha, rfl⟩)
    · cases side <;> simp [Side.change, Side.edit, Change.listEdit, pyStr_wire]

end Queue

/-! ## A run -/

/-- What a view of the server becomes, where each request of a run has its
edits carried out on it. -/
theorem view_of_posts {σ : Type} {post : Post σ} {view : σ → ObjState}
    {edits : Request → List (Edit String String Atom)}
    {entries : List QueueEntry} {server server' : σ}
    (hposts : ∀ entry ∈ entries, ∀ (s s' : σ) (response : Val),
      post s entry.request = .ok (response, s') →
        view s' = (view s).applyAll (edits entry.request))
    (hrun : runAll (postEntry post) server entries = .ok server') :
    view server' = (view server).applyAll
      (entries.flatMap fun entry => edits entry.request) := by
  refine applyAll_of_posts (p := fun s obj => view s = obj)
    (fun entry hentry s s' response obj hpost hbefore => ?_) hrun rfl
  rw [← hbefore]
  exact hposts entry hentry s s' response hpost

section Run

variable {cl : Client} {name : List Val} {σ : Type}
  {srv : ListServer cl name σ}

theorem ListServer.view_run {entries : List QueueEntry} {server server' : σ}
    (hentries : ∀ entry ∈ entries, entry.request.method ≠ cl.method .rem ∧
      name <+: entry.request.name)
    (hrun : runAll (postEntry srv.post) server entries = .ok server') :
    srv.view server' = (srv.view server).applyAll
      (cl.entryListEdits srv.stored entries) := by
  refine view_of_posts (fun entry hentry s s' response hpost => ?_) hrun
  obtain ⟨hmethod, hname⟩ := hentries entry hentry
  exact srv.updated hpost hmethod hname

/-- What a task makes of the values of a list. -/
def TypedTask.listGoal (t : TypedTask cl) (key : String) (vals : Set String) :
    Set String :=
  match t.state with
  | .exact => t.wants.lists key
  | .absent => vals \ t.wants.lists key
  | _ => vals ∪ t.wants.lists key

variable {t : TypedTask cl} {server : σ} {found : Found} {q : Queue}
  {item : Dict String Val} {key : String}

/-- The current values of a list attribute are those the server has. -/
theorem ListServer.members_current
    (hname : cl.modRequestParams t.ansibleModule = .ok name)
    (steps : FindSteps cl t.ansibleModule (srv.find server) found item)
    (hkey : cl.PlainList key) (a : Atom) :
    a ∈ cl.cls.members found.responseCleaned key ↔
      ∃ s ∈ (srv.view server).lists key, a = .str s := by
  obtain ⟨hnamed, hlists⟩ := srv.reported hname steps.selected
  exact Client.members_of_strs hkey.1.2
    (strsValue_current hnamed hkey (hlists key hkey) steps.current) a

theorem FindSteps.mem_diff_side {reply : FindReply} {has : Set String}
    (steps : FindSteps cl t.ansibleModule reply found item)
    (hkey : cl.ListAttr key)
    (hcurrent : ∀ a, a ∈ cl.cls.members found.responseCleaned key ↔
      ∃ s ∈ has, a = .str s) (a : Atom) :
    ((∃ vals, found.diffs.listAdd.lookup key = some vals ∧ a ∈ vals) ↔
      t.state ≠ .absent ∧ ∃ s, a = .str s ∧ s ∈ t.wants.lists key ∧
        s ∉ has) ∧
    ((∃ vals, found.diffs.listDel.lookup key = some vals ∧ a ∈ vals) ↔
      ∃ s, a = .str s ∧ s ∈ has ∧
        ((t.state = .exact ∧ s ∉ t.wants.lists key) ∨
          (t.state = .absent ∧ s ∈ t.wants.lists key))) := by
  have hdesired := TypedTask.members_desired hkey steps.desired
  have hdiffs := Client.computeChanges_eq steps.diffs
    fun hcert => hkey.ne_cert hcert.1
  rw [ClientClass.lookup_listAdd hdiffs, ClientClass.lookup_listDel hdiffs,
    mem_nonempty, mem_nonempty]
  exact ⟨mem_listAddValues_strs hdesired hcurrent,
    mem_listDelValues_strs hdesired hcurrent⟩

/-- The edits of a list in the queue of a run that does not delete the
object. -/
theorem FindSteps.mem_queueListEdits {reply : FindReply} {has : Set String}
    (steps : FindSteps cl t.ansibleModule reply found item)
    (hreal : t.checkMode = false) (hkey : cl.ListAttr key)
    (hcurrent : ∀ a, a ∈ cl.cls.members found.responseCleaned key ↔
      ∃ s ∈ has, a = .str s)
    (hends : cl.remEnds t.ansibleModule found = false)
    (hqueue : cl.queueRequests t.ansibleModule found = .ok q)
    (stored : String → String → String) (val : String) :
    (.add key val ∈ cl.entryListEdits stored q.entries ↔
      t.state ≠ .absent ∧ ∃ s ∈ t.wants.lists key, s ∉ has ∧
        stored key s = val) ∧
    (.del key val ∈ cl.entryListEdits stored q.entries ↔
      ∃ s ∈ has, ((t.state = .exact ∧ s ∉ t.wants.lists key) ∨
          (t.state = .absent ∧ s ∈ t.wants.lists key)) ∧
        stored key s = val) := by
  have hdiff := steps.mem_diff_side hkey hcurrent
  rw [mem_entryListEdits steps hreal hends hqueue,
    mem_entryListEdits steps hreal hends hqueue]
  constructor
  · refine (mem_sideEdits hkey.1 .add).trans ?_
    simp only [Changes.side, (hdiff _).1]
    constructor
    · rintro ⟨-, ⟨hstate, s, rfl, hs, hnot⟩, hval⟩
      exact ⟨hstate, s, hs, hnot, hval⟩
    · rintro ⟨hstate, s, hs, hnot, hval⟩
      exact ⟨.str s, ⟨hstate, s, rfl, hs, hnot⟩, hval⟩
  · refine (mem_sideEdits hkey.1 .del).trans ?_
    simp only [Changes.side, (hdiff _).2]
    constructor
    · rintro ⟨-, ⟨s, rfl, hs, hstate⟩, hval⟩
      exact ⟨s, hs, hstate, hval⟩
    · rintro ⟨s, hs, hstate, hval⟩
      exact ⟨.str s, ⟨s, rfl, hs, hstate⟩, hval⟩

/-- The values of a list after the edits of a run that does not delete the
object, where the server does not write an added value like one that is
there. -/
theorem FindSteps.mem_lists_edited {reply : FindReply} {has : Set String}
    (steps : FindSteps cl t.ansibleModule reply found item)
    (hreal : t.checkMode = false) (hkey : cl.ListAttr key)
    (hcurrent : ∀ a, a ∈ cl.cls.members found.responseCleaned key ↔
      ∃ s ∈ has, a = .str s)
    (hends : cl.remEnds t.ansibleModule found = false)
    (hqueue : cl.queueRequests t.ansibleModule found = .ok q)
    {stored : String → String → String}
    (hdistinct : ∀ s s', s ∈ t.wants.lists key → s ∉ has → s' ∈ has →
      stored key s ≠ stored key s') (obj : ObjState) (val : String) :
    val ∈ (obj.applyAll (cl.entryListEdits stored q.entries)).lists key ↔
      (t.state ≠ .absent ∧ ∃ s ∈ t.wants.lists key, s ∉ has ∧
        stored key s = val) ∨
      (val ∈ obj.lists key ∧
        ¬∃ s ∈ has, ((t.state = .exact ∧ s ∉ t.wants.lists key) ∨
            (t.state = .absent ∧ s ∈ t.wants.lists key)) ∧
          stored key s = val) := by
  obtain ⟨hadd, hdel⟩ := steps.mem_queueListEdits hreal hkey hcurrent hends
    hqueue stored val
  rw [Store.mem_lists_applyAll, hadd, hdel]
  rw [hadd, hdel]
  rintro ⟨-, s, hs, hnot, hval⟩ ⟨s', hs', -, hval'⟩
  exact hdistinct s s' hs hnot hs' (hval.trans hval'.symm)

/-- A run that does not delete the object makes of each list what the task
asks for. -/
theorem ListServer.lists_run (hreal : t.checkMode = false)
    (hname : cl.modRequestParams t.ansibleModule = .ok name)
    (hstored : ∀ s, srv.stored key s = s) (hkey : cl.PlainList key)
    (steps : FindSteps cl t.ansibleModule (srv.find server) found item)
    (hends : cl.remEnds t.ansibleModule found = false)
    (hqueue : cl.queueRequests t.ansibleModule found = .ok q) {server' : σ}
    (hrun : runAll (postEntry srv.post) server q.entries = .ok server') :
    (srv.view server').lists key =
      t.listGoal key ((srv.view server).lists key) := by
  have hdistinct : ∀ s s', s ∈ t.wants.lists key →
      s ∉ (srv.view server).lists key → s' ∈ (srv.view server).lists key →
      srv.stored key s ≠ srv.stored key s' := by
    intro s s' _ hnot hs' heq
    rw [hstored, hstored] at heq
    exact hnot (heq ▸ hs')
  have hview := srv.view_run (fun entry hentry =>
    named_of_queue hends hqueue hname hentry) hrun
  ext val
  rw [hview, steps.mem_lists_edited hreal hkey.1
    (srv.members_current hname steps hkey) hends hqueue hdistinct]
  simp only [hstored, exists_eq_right_right]
  unfold TypedTask.listGoal
  cases t.state with
  | exact =>
      simp only [ne_eq, reduceCtorEq, not_false_eq_true, true_and,
        false_and, or_false]
      tauto
  | absent =>
      simp only [ne_eq, not_true_eq_false, false_and, reduceCtorEq, true_and,
        false_or, Set.mem_sdiff]
      tauto
  | present | enabled | disabled =>
      simp only [ne_eq, reduceCtorEq, not_false_eq_true, true_and, false_and,
        or_false, and_false, Set.mem_union]
      tauto

end Run

/-! ## A server of groups -/

/-- The values of an object under each list attribute. -/
abbrev ListValues := String → List String

def ListValues.edit (values : ListValues) :
    Edit String String Atom → ListValues
  | .add key s => Function.update values key ((values key).insert s)
  | .del key s => Function.update values key ((values key).filter (· ≠ s))
  | .set _ _ => values

def ListValues.view (values : ListValues) : ObjState where
  lists key := {s | s ∈ values key}
  scalars _ := none

theorem ListValues.view_edit {stored : String → String → String}
    {change : Change} {e : Edit String String Atom}
    (hedit : change.listEdit stored = some e) (values : ListValues) :
    (values.edit e).view = values.view.apply e := by
  have hview : ∀ (key : String) (ss : List String) (vals : Set String),
      (∀ s, s ∈ ss ↔ s ∈ vals) →
      ListValues.view (Function.update values key ss) =
        { values.view with
          lists := Function.update values.view.lists key vals } := by
    intro key ss vals hmem
    apply Store.ext
    · funext key'
      by_cases hkey : key' = key
      · subst hkey
        simp [ListValues.view, hmem]
      · simp [ListValues.view, hkey]
    · rfl
  cases change with
  | add key val =>
      obtain rfl := Option.some.inj hedit
      apply hview
      intro s
      simp [ListValues.view]
  | del key val =>
      obtain rfl := Option.some.inj hedit
      apply hview
      intro s
      simp [ListValues.view]
  | set | other => contradiction

theorem ListValues.view_edits {stored : String → String → String}
    (changes : List Change) (values : ListValues) :
    ((changes.filterMap (Change.listEdit stored)).foldl ListValues.edit
      values).view =
    values.view.applyAll (changes.filterMap (Change.listEdit stored)) := by
  induction changes generalizing values with
  | nil => rfl
  | cons change rest ih =>
      cases hedit : change.listEdit stored with
      | none => simpa [hedit] using ih values
      | some e =>
          rw [List.filterMap_cons_some hedit, List.foldl_cons, ih,
            ListValues.view_edit hedit]
          rfl

/-- The group in a find reply. -/
def ListValues.groupItem (members : ListValues) : Dict String Val :=
  Dict.ofList
    [("cn", .str "ops"), ("gidnumber", .str "1205"),
     ("member_user", .list ((members "member_user").map .str)),
     ("member_group", .list ((members "member_group").map .str))]
    (by simp)

/-- A server with one group. -/
def groupServer (name : List Val) :
    ListServer .group name ListValues where
  post members r :=
    if r.method = "group_add" ∨ r.method = "group_del" then
      .error (.failJson "group_add: already exists")
    else
      .ok (.dict [], (Client.group.listEdits (fun _ s => s) r).foldl
        ListValues.edit members)
  find members := .ofList [members.groupItem]
  view := ListValues.view
  stored _ s := s
  updated := by
    intro members members' r response hpost _ _
    split_ifs at hpost
    rw [Except.ok.injEq, Prod.mk.injEq] at hpost
    rw [← hpost.2]
    exact ListValues.view_edits _ members
  reported := by
    intro m members item _ hitem
    rw [findResult_eq (by decide) (by decide)] at hitem
    obtain rfl : members.groupItem = item := Except.ok.inj hitem
    refine ⟨fun hcl => by contradiction, fun key hkey => ?_⟩
    have hkeys : ∀ key ∈ groupClass.kwArgs.keys, Client.group.ListAttr key →
        key = "member_user" ∨ key = "member_group" := by decide +kernel
    rcases hkeys key (ClientClass.mem_kwArgs_of_type hkey.1.2) hkey.1 with
      rfl | rfl
    · exact .listed fun s => Iff.rfl
    · exact .listed fun s => Iff.rfl

/-- A group with these users. -/
def opsMembers (users : List String) : ListValues :=
  fun key => if key = "member_user" then users else []

/-- A group that is to have these users. -/
def opsUsers (users : List String) : TypedTask .group where
  given := Dict.ofList
    [("cn", .str "ops"), ("member_user", .list (users.map .str))] (by simp)
  state := .present
  typed := by
    intro key raw type hraw htype
    replace hraw := Dict.mem_of_lookup_ofList hraw
    simp only [List.mem_cons, Prod.mk.injEq, List.not_mem_nil, or_false]
      at hraw
    rcases hraw with ⟨rfl, rfl⟩ | ⟨rfl, rfl⟩
    · obtain rfl : ParamType.str = type := Option.some.inj htype
      exact .text _
    · obtain rfl : ParamType.list = type := Option.some.inj htype
      exact .listed users

end FreeipaProv
