import FreeipaProv.Run

/-!
# The shape of the queue

A run either ends in `rem`, with at most the delete request queued, or queues
the base request, the enable or disable request and the requests of the
dedicated methods, in this order.  In check mode only the base request is
queued, and the handlers that mark the object changed still do so.
-/

namespace FreeipaProv

open Fallible

/-- Whether `rem` signals that the queue is done. -/
def Client.remEnds (cl : Client) (m : AnsibleModule) (found : Found) : Bool :=
  m.state = .absent && !cl.isRemParamRequest found

/-- The handlers of dedicated methods, as whether they mark the object
changed, with their routes. -/
def Client.routes : Client → List (Bool × Route)
  | .user => certRoutes.map (true, ·) ++ principalRoutes.map (false, ·)
  | .group => memberRoutes.map (true, ·)
  | .service =>
      managedbyHostRoutes.map (false, ·) ++ keytabRoutes.map (false, ·)
  | .caacl => caaclRoutes.map (true, ·)
  | _ => []

def Route.hasChanges (route : Route) (diffs : Changes) : Bool :=
  !(route.changedArgs diffs).isEmpty

def Client.marksChanged (cl : Client) (found : Found) : Bool :=
  cl.routes.any fun entry => entry.1 && entry.2.hasChanges found.diffs

/-- The entry of a route with changes. -/
def Client.routeEntry (cl : Client) (m : AnsibleModule) (found : Found)
    (route : Route) : QueueEntry where
  name := route.entryName
  request := route.request (cl.cls.modRequestParams m) found.diffs

def Client.routeEntries (cl : Client) (m : AnsibleModule) (found : Found) :
    List QueueEntry :=
  ((cl.routes.map Prod.snd).filter fun route =>
    route.hasChanges found.diffs).map (cl.routeEntry m found)

/-- The flag whose change `enable_or_disable` effects. -/
def Client.flagChange (cl : Client) (m : AnsibleModule) (found : Found) :
    Option Val :=
  if found.isAbsent || !(m.state = .enabled || m.state = .disabled) then none
  else cl.cls.enablekey.bind found.diffs.scalars.lookup

/-- The enable or disable request. -/
def Client.flagEntries (cl : Client) (m : AnsibleModule) (found : Found) :
    List QueueEntry :=
  ((cl.flagChange m found).map fun flag => {
    name := "enable_or_disable"
    request := {
      method :=
        if flag.truthy != cl.cls.enablekeySenseInverted then
          cl.method .enabled
        else cl.method .disabled
      name := cl.cls.modRequestParams m
      item := ∅ } }).toList

/-- Whether `add_or_mod` queues a request. -/
def Client.queuesBase (cl : Client) (found : Found) : Bool :=
  !((cl.baseItem found.diffs).isEmpty && found.objectExists)

/-- The base request, where one is queued. -/
def Client.baseEntries (cl : Client) (m : AnsibleModule) (found : Found) :
    Except Failure (List QueueEntry) :=
  if cl.queuesBase found then do
    let request ← cl.baseRequest m found
    .ok [{ name := "add_or_mod", request }]
  else .ok []

/-- The queue after a `rem` that ends it. -/
def Client.remQueue (cl : Client) (m : AnsibleModule) (found : Found) :
    Except Failure Queue :=
  if found.isAbsent || m.checkMode then .ok Queue.initial
  else do
    let name ← cl.remRequestParams m found
    let item ← cl.remRequestItem found
    .ok (Queue.initial.push {
      name := "rem"
      request := { method := cl.method .rem, name, item } })

theorem baseEntries_ne_nil_iff {cl : Client} {m : AnsibleModule}
    {found : Found} {base : List QueueEntry}
    (hbase : cl.baseEntries m found = .ok base) :
    base ≠ [] ↔ cl.queuesBase found = true := by
  unfold Client.baseEntries at hbase
  split_ifs at hbase with hqueues
  · obtain ⟨request, -, hbase⟩ := bind_eq_ok_iff.mp hbase
    simp [← Except.ok.inj hbase, hqueues]
  · simp [← Except.ok.inj hbase, hqueues]

theorem addOrMod_eq (cl : Client) (m : AnsibleModule) (found : Found)
    (q : Queue) :
    cl.addOrMod m found q =
      (cl.baseEntries m found).map fun entries =>
        { q with entries := q.entries ++ entries } := by
  unfold Client.addOrMod Client.baseEntries Client.queuesBase
  cases hnoop : (cl.baseItem found.diffs).isEmpty && found.objectExists with
  | true => simp [Except.map]
  | false =>
      cases hrequest : cl.baseRequest m found with
      | error err => simp [Except.map]
      | ok request => simp [Except.map, Queue.push]

theorem enableOrDisable_eq (cl : Client) {m : AnsibleModule}
    (hname : cl.modRequestParams m = .ok (cl.cls.modRequestParams m))
    (found : Found) (q : Queue) :
    cl.enableOrDisable m found q = .ok { q with
      entries := q.entries ++
        if m.checkMode then [] else cl.flagEntries m found } := by
  unfold Client.enableOrDisable Client.flagEntries Client.flagChange
  cases hflag : cl.cls.enablekey.bind found.diffs.scalars.lookup with
  | none => simp
  | some flag =>
      cases hguard :
          found.isAbsent || !(m.state = .enabled || m.state = .disabled) with
      | true => simp
      | false =>
          cases hmode : m.checkMode <;> simp [hname, Queue.push]

/-- The enable and disable functions of a client without an enable flag do
nothing. -/
theorem flagEntries_eq_nil (cl : Client) (hflag : cl.cls.enablekey = none)
    (m : AnsibleModule) (found : Found) : cl.flagEntries m found = [] := by
  simp [Client.flagEntries, Client.flagChange, hflag]

theorem runRoutes_eq (cl : Client) {m : AnsibleModule}
    (hname : cl.modRequestParams m = .ok (cl.cls.modRequestParams m))
    (found : Found) (marks : Bool) (routes : List Route) (q : Queue) :
    cl.runRoutes m found marks routes q = .ok {
      entries := q.entries ++
        if m.checkMode then []
        else (routes.filter fun route => route.hasChanges found.diffs).map
          (cl.routeEntry m found)
      changed := q.changed ||
        (marks && routes.any fun route => route.hasChanges found.diffs) } := by
  unfold Client.runRoutes
  induction routes generalizing q with
  | nil => simp [pure, Except.pure]
  | cons route rest ih =>
      have hstep : cl.runRoute m found marks q route = .ok {
          entries := q.entries ++
            if m.checkMode || !route.hasChanges found.diffs then []
            else [cl.routeEntry m found route]
          changed := q.changed ||
            (marks && route.hasChanges found.diffs) } := by
        unfold Client.runRoute Route.hasChanges
        cases hargs : (route.changedArgs found.diffs).isEmpty <;>
          cases hmode : m.checkMode <;> cases marks <;>
            simp [hname, Queue.push, Client.routeEntry]
      rw [List.foldlM_cons, hstep, ok_bind, ih]
      cases hchanges : route.hasChanges found.diffs <;>
        cases hmode : m.checkMode <;> cases marks <;>
          simp [hchanges]

theorem rem_eq (cl : Client) (m : AnsibleModule) (found : Found) :
    cl.rem m found Queue.initial =
      if cl.remEnds m found then (cl.remQueue m found).map (·, true)
      else .ok (Queue.initial, false) := by
  unfold Client.rem Client.remEnds Client.remQueue
  by_cases hstate : m.state = .absent
  · cases hparam : cl.isRemParamRequest found with
    | true => simp [hstate]
    | false =>
        cases habsent : found.isAbsent <;> cases hmode : m.checkMode <;>
          simp only [hstate, ne_eq, not_true_eq_false, if_false, if_true,
            Bool.false_eq_true, Bool.or_false, Bool.or_true, decide_true,
            Bool.not_false, Bool.and_self, Except.map]
        cases hname : cl.remRequestParams m found with
        | error err => simp
        | ok name =>
            cases hitem : cl.remRequestItem found <;> simp
  · simp [hstate]

theorem queueRequests_of_remEnds {cl : Client} {m : AnsibleModule}
    {found : Found} (hends : cl.remEnds m found = true) :
    cl.queueRequests m found = cl.remQueue m found := by
  have hrem := rem_eq cl m found
  rw [if_pos hends] at hrem
  cases cl <;>
    simp only [Client.queueRequests, Client.changeFunctions,
      Client.queueFrom, Client.change, hrem] <;>
    cases Client.remQueue _ m found <;> simp [Except.map]

/-- The change functions after `add_or_mod`. -/
def Client.laterFunctions (cl : Client) : List ChangeFunction :=
  cl.changeFunctions.drop 2

theorem queueFrom_laterFunctions (cl : Client) (m : AnsibleModule)
    (found : Found) (base : List QueueEntry) :
    cl.queueFrom m found cl.laterFunctions ⟨base, false⟩ = .ok {
      entries := base ++
        if m.checkMode then []
        else cl.flagEntries m found ++ cl.routeEntries m found
      changed := cl.marksChanged found } := by
  cases cl with
  | user =>
      simp only [Client.laterFunctions, Client.changeFunctions, List.drop,
        Client.queueFrom, Client.change, Client.handleCert,
        Client.handlePrincipal, enableOrDisable_eq .user rfl,
        runRoutes_eq .user rfl, Except.map, ok_bind]
      cases hmode : m.checkMode <;>
        simp [Client.routeEntries, Client.routes, Client.marksChanged,
          Function.comp_def]
  | group =>
      simp only [Client.laterFunctions, Client.changeFunctions, List.drop,
        Client.queueFrom, Client.change, Client.handleMembers,
        runRoutes_eq .group rfl, Except.map, ok_bind]
      cases hmode : m.checkMode <;>
        simp [Client.routeEntries, Client.routes, Client.marksChanged,
          Function.comp_def, flagEntries_eq_nil .group rfl]
  | service =>
      simp only [Client.laterFunctions, Client.changeFunctions, List.drop,
        Client.queueFrom, Client.change, Client.handleManagedbyHost,
        Client.handleAllowKeytab, runRoutes_eq .service rfl,
        Except.map, ok_bind]
      cases hmode : m.checkMode <;>
        simp [Client.routeEntries, Client.routes, Client.marksChanged,
          Function.comp_def, flagEntries_eq_nil .service rfl]
  | caacl =>
      simp only [Client.laterFunctions, Client.changeFunctions, List.drop,
        Client.queueFrom, Client.change, Client.addRemoveListItems,
        enableOrDisable_eq .caacl rfl,
        runRoutes_eq .caacl rfl, Except.map, ok_bind]
      cases hmode : m.checkMode <;>
        simp [Client.routeEntries, Client.routes, Client.marksChanged,
          Function.comp_def]
  | dnszone =>
      simp only [Client.laterFunctions, Client.changeFunctions, List.drop,
        Client.queueFrom, Client.change,
        enableOrDisable_eq .dnszone rfl, Except.map, ok_bind]
      cases hmode : m.checkMode <;>
        simp [Client.routeEntries, Client.routes, Client.marksChanged]
  | dnsrecord | ca | cert =>
      simp [Client.laterFunctions, Client.changeFunctions, Client.queueFrom,
        Client.routeEntries, Client.routes, Client.marksChanged,
        flagEntries_eq_nil .dnsrecord rfl,
        flagEntries_eq_nil .ca rfl,
        flagEntries_eq_nil .cert rfl]

/-- A run that `rem` does not end queues the base request, the enable or
disable request and the requests of the dedicated methods. -/
theorem queueRequests_of_not_remEnds {cl : Client} {m : AnsibleModule}
    {found : Found} (hends : cl.remEnds m found = false) :
    cl.queueRequests m found = (cl.baseEntries m found).map fun base => {
      entries := base ++
        if m.checkMode then []
        else cl.flagEntries m found ++ cl.routeEntries m found
      changed := cl.marksChanged found } := by
  have hrem := rem_eq cl m found
  rw [if_neg (by simp [hends])] at hrem
  have hfunctions : cl.changeFunctions =
      .rem :: .addOrMod :: cl.laterFunctions := by
    cases cl <;> rfl
  rw [Client.queueRequests, hfunctions]
  simp only [Client.queueFrom, Client.change, hrem, addOrMod_eq, ok_bind,
    Bool.false_eq_true, if_false]
  cases hbase : cl.baseEntries m found with
  | error err => simp [Except.map]
  | ok base =>
      have hlater := queueFrom_laterFunctions cl m found base
      simpa [Except.map, Queue.initial] using hlater

/-! ## Processing a queue -/

/-- A text without the letter `g` does not contain `message`. -/
theorem fail_eq (msg : String) {e : String} (he : 'g' ∉ e.toList) :
    fail msg e = .failJson (msg ++ ": " ++ e) := by
  have hg : 'g' ∈ "message".toList := by simp
  exact if_neg fun hsub => he (hsub.subset hg)

/-- Processing marks the object changed exactly when there is a request to
process, in check mode and outside. -/
theorem processQueue_changed {σ : Type} {m : AnsibleModule} {post : Post σ}
    {entries : List QueueEntry} {run run' : Val × Bool × σ}
    (hok : processQueue m post entries run = .ok run') :
    run'.2.1 = (run.2.1 || !entries.isEmpty) := by
  induction entries generalizing run with
  | nil =>
      obtain rfl := Except.ok.inj hok
      simp
  | cons entry rest ih =>
      obtain ⟨response, changed, server⟩ := run
      rw [processQueue] at hok
      split_ifs at hok with hmode
      · simpa using ih hok
      · obtain ⟨⟨response', server'⟩, -, hok⟩ := bind_eq_ok_iff.mp hok
        simpa using ih hok

/-- In check mode no request is posted. -/
theorem processQueue_checkMode {σ : Type} {m : AnsibleModule}
    (hmode : m.checkMode = true) (post : Post σ) (entries : List QueueEntry)
    (run : Val × Bool × σ) : ∃ response, processQueue m post entries run =
      .ok (response, run.2.1 || !entries.isEmpty, run.2.2) := by
  induction entries generalizing run with
  | nil => exact ⟨run.1, by simp [processQueue]⟩
  | cons entry rest ih =>
      obtain ⟨response, changed, server⟩ := run
      obtain ⟨response', hrest⟩ := ih (.dict [], true, server)
      exact ⟨response', by simp [processQueue, hmode, hrest]⟩

/-- The server after a request. -/
def postEntry {σ : Type} (post : Post σ) (server : σ) (entry : QueueEntry) :
    Except Failure σ :=
  (post server entry.request).map Prod.snd

theorem postEntry_eq_ok {σ : Type} {post : Post σ} {server server' : σ}
    {entry : QueueEntry} (hok : postEntry post server entry = .ok server') :
    ∃ response, post server entry.request = .ok (response, server') := by
  unfold postEntry at hok
  cases hpost : post server entry.request with
  | error err => simp [hpost, Except.map] at hok
  | ok result =>
      rw [hpost] at hok
      exact ⟨result.1, by rw [← Except.ok.inj hok]⟩

/-- Outside check mode the requests are posted one after the other. -/
theorem runAll_of_processQueue {σ : Type} {m : AnsibleModule} {post : Post σ}
    {entries : List QueueEntry} {run run' : Val × Bool × σ}
    (hreal : m.checkMode = false)
    (hok : processQueue m post entries run = .ok run') :
    runAll (postEntry post) run.2.2 entries = .ok run'.2.2 := by
  induction entries generalizing run with
  | nil => rw [← Except.ok.inj hok, runAll]
  | cons entry rest ih =>
      obtain ⟨response, changed, server⟩ := run
      simp only [processQueue, hreal, Bool.false_eq_true, if_false] at hok
      obtain ⟨⟨response', server'⟩, hpost, hok⟩ := bind_eq_ok_iff.mp hok
      rw [runAll, postEntry, hpost]
      exact ih hok

theorem ensure_runAll {σ : Type} {cl : Client} {m : AnsibleModule}
    {reply : FindReply} {post : Post σ} {server : σ} {run : Val × Bool × σ}
    (hreal : m.checkMode = false)
    (hensure : cl.ensure m reply post server = .ok run) :
    ∃ found q, cl.find m reply = .ok found ∧
      cl.queueRequests m found = .ok q ∧
      runAll (postEntry post) server q.entries = .ok run.2.2 := by
  obtain ⟨found, hfind, hensure⟩ := bind_eq_ok_iff.mp hensure
  obtain ⟨q, hqueue, hensure⟩ := bind_eq_ok_iff.mp hensure
  exact ⟨found, q, hfind, hqueue, runAll_of_processQueue hreal hensure⟩

end FreeipaProv
