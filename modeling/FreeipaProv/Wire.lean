import FreeipaProv.Exchange

/-!
# What a run does to the server behind the wire

The dialogue of a run with a server that answers API requests is the run
`ensure` describes.  Over HTTP, where requests and replies may get lost, a run
that succeeds is still such a run, and one that fails has had the server
carry out some of the first requests of the queue.
-/

namespace FreeipaProv

open Fallible Dialogue

/-! ## A server behind an API -/

/-- A server that lists the objects a find request asks for, and carries out
the other requests. -/
structure ApiServer (σ : Type) where
  find : σ → FindReply
  api : σ → Request → Except Failure (Reply × σ)

section Serve

variable {σ : Type} (cl : Client) (m : AnsibleModule) (srv : ApiServer σ)

def ApiServer.post : Post σ := fun server request =>
  (srv.api server request).map fun out => (out.1.result, out.2)

/-- What `_post_json` returns of the server's answer, and the server
afterwards. -/
def Client.serve (server : σ) (request : Request) :
    Except Failure Reply × σ :=
  if request.method = cl.method .find then
    ((cl.findResult m (srv.find server)).map fun obj =>
      ⟨(srv.find server).toVal, .dict obj.items⟩, server)
  else
    match srv.api server request with
    | .ok (reply, server') => (.ok reply, server')
    | .error failure => (.error failure, server)

/-- `ensure` against the server. -/
def Client.ensureAt (server : σ) : Except Failure (Val × Bool × σ) :=
  cl.ensure m (srv.find server) srv.post server

end Serve

/-! ## The methods of the requests -/

theorem findMethod_ne (cl : Client) :
    cl.method .add ≠ cl.method .find ∧ cl.method .mod ≠ cl.method .find ∧
      cl.method .rem ≠ cl.method .find ∧
      cl.method .enabled ≠ cl.method .find ∧
      cl.method .disabled ≠ cl.method .find ∧
      ∀ method ∈ cl.routes.map fun route => route.2.method,
        method ≠ cl.method .find := by
  cases cl <;> decide

section Queue

variable {σ : Type} {cl : Client} {m : AnsibleModule}
  {srv : ApiServer σ}

theorem findRequest_method {request : Request}
    (hok : cl.findRequest m = .ok request) :
    request.method = cl.method .find := by
  cases cl with
  | dnsrecord =>
      obtain ⟨name, -, hok⟩ := bind_eq_ok_iff.mp hok
      obtain ⟨item, -, hok⟩ := bind_eq_ok_iff.mp hok
      rw [← Except.ok.inj hok]
  | cert =>
      obtain ⟨item, -, hok⟩ := bind_eq_ok_iff.mp hok
      rw [← Except.ok.inj hok]
  | _ => rw [← Except.ok.inj hok]

/-- No queued request looks for objects. -/
theorem queue_method_ne_find {found : Found} {q : Queue}
    (hqueue : cl.queueRequests m found = .ok q) {entry : QueueEntry}
    (hentry : entry ∈ q.entries) :
    entry.request.method ≠ cl.method .find := by
  obtain ⟨hadd, hmod, hrem, hon, hoff, hroutes⟩ := findMethod_ne cl
  cases hends : cl.remEnds m found with
  | true =>
      rw [method_of_remEnds hends hqueue hentry]
      exact hrem
  | false =>
      rcases queueEntry_cases hends hqueue hentry with
        ⟨-, hbase⟩ | ⟨-, hflag⟩ | ⟨-, hroute⟩
      · obtain ⟨name, -, heq⟩ := Client.baseRequest_eq_ok hbase
        rw [heq]
        dsimp only
        split
        · exact hadd
        · exact hmod
      · rcases method_of_mem_flagEntries hflag with h | h
        · rw [h]
          exact hon
        · rw [h]
          exact hoff
      · exact hroutes _ (method_of_mem_routeEntries hroute)

/-! ## Processing the queue -/

theorem serve_post {server : σ} {request : Request}
    (hmethod : request.method ≠ cl.method .find) :
    cl.serve m srv server request =
      match srv.api server request with
      | .ok (reply, server') => (.ok reply, server')
      | .error failure => (.error failure, server) := by
  rw [Client.serve, if_neg hmethod]

/-- The dialogue that processes a queue is `process_queue`. -/
theorem run_processTalk {entries : List QueueEntry}
    (hmethods : ∀ entry ∈ entries,
      entry.request.method ≠ cl.method .find)
    (run : Bool × Val) (server : σ) :
    ((m.processTalk entries run).run (cl.serve m srv) server).1 =
        (processQueue m srv.post entries (run.2, run.1, server)).map
          (fun out => (out.2.1, out.1)) ∧
      ∀ out, processQueue m srv.post entries (run.2, run.1, server) = .ok out →
        ((m.processTalk entries run).run (cl.serve m srv) server).2 =
          out.2.2 := by
  induction entries generalizing run server with
  | nil =>
      constructor
      · rfl
      · intro out hout
        rw [← Except.ok.inj hout]
        rfl
  | cons entry rest ih =>
      have hrest := fun entry' hentry' =>
        hmethods entry' (List.mem_cons_of_mem entry hentry')
      rw [AnsibleModule.processTalk, processQueue]
      split_ifs with hmode
      · exact ih hrest (true, .dict []) server
      · rw [Talk.run, serve_post (hmethods entry List.mem_cons_self),
          ApiServer.post]
        cases srv.api server entry.request with
        | error failure =>
            constructor
            · rfl
            · intro out hout
              contradiction
        | ok out =>
            exact ih hrest (true, out.1.result) out.2

/-! ## Ensuring the object -/

theorem serve_find {server : σ} {start : Dict String Val × Request}
    (hstart : cl.findStart m = .ok start) :
    cl.serve m srv server start.2 =
      ((cl.findResult m (srv.find server)).map fun obj =>
        ⟨(srv.find server).toVal, .dict obj.items⟩, server) := by
  rw [Client.serve, if_pos (findRequest_method (findStart_eq_ok hstart).2)]

theorem find_of_findStart_error {failure : Failure}
    (hstart : cl.findStart m = .error failure) (found : FindReply) :
    cl.find m found = .error failure := by
  unfold Client.findStart at hstart
  unfold Client.find
  cases hcanon : cl.mungeModuleParams m with
  | error err =>
      rw [hcanon, error_bind] at hstart
      rw [error_bind, Except.error.inj hstart]
  | ok canonParams =>
      rw [hcanon, ok_bind] at hstart
      rw [ok_bind]
      cases hrequest : cl.findRequest m with
      | error err =>
          rw [hrequest, error_bind] at hstart
          rw [error_bind, Except.error.inj hstart]
      | ok request =>
          rw [hrequest] at hstart
          contradiction

theorem find_of_findResult_error {failure : Failure}
    {start : Dict String Val × Request} {found : FindReply}
    (hstart : cl.findStart m = .ok start)
    (hresult : cl.findResult m found = .error failure) :
    cl.find m found = .error failure := by
  obtain ⟨hcanon, hrequest⟩ := findStart_eq_ok hstart
  unfold Client.find
  rw [hcanon, ok_bind, hrequest, ok_bind, hresult, error_bind]

/-- The dialogue of a run is `ensure`. -/
theorem run_ensureTalk (cl : Client) (m : AnsibleModule)
    (srv : ApiServer σ) (server : σ) :
    ((cl.ensureTalk m).run (cl.serve m srv) server).1 =
        (cl.ensureAt m srv server).map (fun out => (out.2.1, out.1)) ∧
      ∀ out, cl.ensureAt m srv server = .ok out →
        ((cl.ensureTalk m).run (cl.serve m srv) server).2 = out.2.2 := by
  unfold Client.ensureTalk Client.ensureAt Client.ensure
  cases hstart : cl.findStart m with
  | error failure =>
      rw [find_of_findStart_error hstart]
      constructor
      · rfl
      · intro out hout
        contradiction
  | ok start =>
      rw [Talk.attempt_ok, Talk.run, serve_find hstart]
      cases hresult : cl.findResult m (srv.find server) with
      | error failure =>
          rw [find_of_findResult_error hstart hresult]
          constructor
          · rfl
          · intro out hout
            contradiction
      | ok obj =>
          dsimp only [Except.map]
          rw [Talk.attempt_ok, findRest_toVal hstart hresult]
          cases cl.find m (srv.find server) with
          | error failure =>
              constructor
              · rfl
              · intro out hout
                contradiction
          | ok found =>
              cases hqueue : cl.queueRequests m found with
              | error failure =>
                  simp only [ok_bind, hqueue]
                  constructor
                  · rfl
                  · intro out hout
                    contradiction
              | ok q =>
                  simp only [ok_bind, hqueue]
                  exact run_processTalk
                    (fun entry hentry => queue_method_ne_find hqueue hentry)
                    (q.changed, .dict found.response.items) server

/-! ## Stopping at the first failure -/

theorem processTalk_givesUp (m : AnsibleModule) (entries : List QueueEntry)
    (run : Bool × Val) : (m.processTalk entries run).GivesUp := by
  induction entries generalizing run with
  | nil => trivial
  | cons entry rest ih =>
      rw [AnsibleModule.processTalk]
      split_ifs
      · exact ih _
      · constructor
        · intro err
          exact ⟨err, rfl⟩
        · intro answer
          exact Talk.GivesUp.attempt fun reply => ih _

theorem ensureTalk_givesUp (cl : Client) (m : AnsibleModule) :
    (cl.ensureTalk m).GivesUp := by
  apply Talk.GivesUp.attempt
  intro start
  constructor
  · intro err
    exact ⟨err, rfl⟩
  · intro answer
    apply Talk.GivesUp.attempt
    intro reply
    apply Talk.GivesUp.attempt
    intro plan
    exact processTalk_givesUp m plan.2.entries _

/-! ## The requests a run sends -/

section Asked

variable {τ : Type} {serve : τ → Request → Except Failure Reply × τ} {t : τ}

theorem asked_processTalk_checkMode (hmode : m.checkMode = true)
    {entries : List QueueEntry} {run : Bool × Val} :
    (m.processTalk entries run).asked serve t = [] := by
  induction entries generalizing run with
  | nil => rfl
  | cons entry rest ih =>
      rw [AnsibleModule.processTalk, if_pos hmode]
      exact ih

theorem asked_processTalk_prefix {entries : List QueueEntry}
    {run : Bool × Val} :
    (m.processTalk entries run).asked serve t <+:
      entries.map QueueEntry.request := by
  induction entries generalizing run t with
  | nil => exact List.nil_prefix
  | cons entry rest ih =>
      rw [AnsibleModule.processTalk]
      split_ifs with hmode
      · rw [asked_processTalk_checkMode hmode]
        exact List.nil_prefix
      · rw [Talk.asked, List.map_cons, List.cons_prefix_cons]
        constructor
        · rfl
        · cases (serve t entry.request).1 with
          | error failure => exact List.nil_prefix
          | ok reply => exact ih

theorem asked_processTalk_of_ok (hreal : m.checkMode = false)
    {entries : List QueueEntry} {run out : Bool × Val}
    (hok : ((m.processTalk entries run).run serve t).1 = .ok out) :
    (m.processTalk entries run).asked serve t =
      entries.map QueueEntry.request := by
  induction entries generalizing run t with
  | nil => rfl
  | cons entry rest ih =>
      rw [AnsibleModule.processTalk, if_neg (by simp [hreal])] at hok ⊢
      rw [Talk.run] at hok
      rw [Talk.asked, List.map_cons, List.cons.injEq]
      constructor
      · rfl
      · cases hanswer : (serve t entry.request).1 with
        | error failure =>
            rw [hanswer] at hok
            contradiction
        | ok reply =>
            rw [hanswer] at hok
            exact ih hok

/-- A run asks for the object first, and then sends requests of the queue, in
their order and out of check mode only. -/
theorem asked_ensureTalk (cl : Client) (m : AnsibleModule)
    (serve : τ → Request → Except Failure Reply × τ) (t : τ) :
    (cl.ensureTalk m).asked serve t = [] ∨
      ∃ start sent, cl.findStart m = .ok start ∧
        (cl.ensureTalk m).asked serve t = start.2 :: sent ∧
        (sent ≠ [] → m.checkMode = false ∧ ∃ reply plan,
          (serve t start.2).1 = .ok reply ∧
          cl.findRest m start.1 reply = .ok plan ∧
          sent <+: plan.2.entries.map QueueEntry.request) := by
  unfold Client.ensureTalk
  cases cl.findStart m with
  | error failure => exact Or.inl rfl
  | ok start =>
      right
      refine ⟨start, _, rfl, rfl, ?_⟩
      intro hsent
      cases hanswer : (serve t start.2).1 with
      | error failure =>
          rw [hanswer] at hsent
          contradiction
      | ok reply =>
          rw [hanswer] at hsent
          simp only [Talk.attempt_ok] at hsent ⊢
          cases hplan : cl.findRest m start.1 reply with
          | error failure =>
              rw [hplan] at hsent
              contradiction
          | ok plan =>
              rw [hplan] at hsent
              simp only [Talk.attempt_ok] at hsent ⊢
              constructor
              · by_contra hmode
                rw [Bool.not_eq_false] at hmode
                exact hsent (asked_processTalk_checkMode hmode)
              · exact ⟨reply, plan, rfl, hplan, asked_processTalk_prefix⟩

theorem asked_ensureTalk_of_ok {serve : τ → Request → Except Failure Reply × τ}
    {t : τ} {out : Bool × Val}
    (hok : ((cl.ensureTalk m).run serve t).1 = .ok out) :
    ∃ start reply plan, cl.findStart m = .ok start ∧
      (serve t start.2).1 = .ok reply ∧
      cl.findRest m start.1 reply = .ok plan ∧
      (cl.ensureTalk m).asked serve t = start.2 ::
        if m.checkMode then [] else plan.2.entries.map QueueEntry.request := by
  unfold Client.ensureTalk at hok ⊢
  cases hstart : cl.findStart m with
  | error failure =>
      rw [hstart] at hok
      contradiction
  | ok start =>
      rw [hstart, Talk.attempt_ok, Talk.run] at hok
      rw [Talk.attempt_ok, Talk.asked]
      cases hanswer : (serve t start.2).1 with
      | error failure =>
          rw [hanswer] at hok
          contradiction
      | ok reply =>
          rw [hanswer] at hok
          simp only [Talk.attempt_ok] at hok ⊢
          cases hplan : cl.findRest m start.1 reply with
          | error failure =>
              rw [hplan] at hok
              contradiction
          | ok plan =>
              rw [hplan] at hok
              simp only [Talk.attempt_ok] at hok ⊢
              refine ⟨start, reply, plan, rfl, hanswer, hplan, ?_⟩
              rw [List.cons.injEq]
              constructor
              · rfl
              · split_ifs with hmode
                · exact asked_processTalk_checkMode hmode
                · rw [Bool.not_eq_true] at hmode
                  exact asked_processTalk_of_ok hmode hok

end Asked

/-- The server after some of the first requests of a queue. -/
theorem after_processTalk {entries : List QueueEntry}
    (hmethods : ∀ entry ∈ entries,
      entry.request.method ≠ cl.method .find)
    {run : Bool × Val} {server : σ} {sent : List Request}
    (hsent : sent <+:
      (m.processTalk entries run).asked (cl.serve m srv) server) :
    ∃ before later, entries = before ++ later ∧
      runAll (postEntry srv.post) server before =
        .ok (Talk.after (cl.serve m srv) server sent) := by
  induction entries generalizing run server sent with
  | nil =>
      obtain rfl := List.prefix_nil.mp hsent
      exact ⟨[], [], rfl, rfl⟩
  | cons entry rest ih =>
      have hrest := fun entry' hentry' =>
        hmethods entry' (List.mem_cons_of_mem entry hentry')
      have hserve : cl.serve m srv server entry.request = _ :=
        serve_post (hmethods entry List.mem_cons_self)
      rw [AnsibleModule.processTalk] at hsent
      cases sent with
      | nil => exact ⟨[], entry :: rest, rfl, rfl⟩
      | cons request sent =>
          split_ifs at hsent with hmode
          · -- in check mode nothing is sent
            rw [asked_processTalk_checkMode hmode] at hsent
            exact absurd (List.prefix_nil.mp hsent) (List.cons_ne_nil _ _)
          · rw [Talk.asked, List.cons_prefix_cons] at hsent
            obtain ⟨rfl, hsent⟩ := hsent
            rw [Talk.after, List.foldl_cons]
            rw [hserve] at hsent ⊢
            cases hpost : srv.api server entry.request with
            | error failure =>
                rw [hpost] at hsent
                obtain rfl := List.prefix_nil.mp hsent
                exact ⟨[], entry :: rest, rfl, rfl⟩
            | ok out =>
                rw [hpost] at hsent
                obtain ⟨before, later, hsplit, hrun⟩ := ih hrest hsent
                refine ⟨entry :: before, later, by rw [hsplit]; rfl, ?_⟩
                rw [runAll, postEntry, ApiServer.post, hpost]
                exact hrun

/-- The server after some of the first requests of a run has carried out some
of the first requests of its queue. -/
theorem after_ensureTalk {server : σ} {sent : List Request}
    (hsent : sent <+: (cl.ensureTalk m).asked (cl.serve m srv) server) :
    Talk.after (cl.serve m srv) server sent = server ∨
      ∃ found q before later, cl.find m (srv.find server) = .ok found ∧
        cl.queueRequests m found = .ok q ∧ q.entries = before ++ later ∧
        runAll (postEntry srv.post) server before =
          .ok (Talk.after (cl.serve m srv) server sent) := by
  cases sent with
  | nil => exact Or.inl rfl
  | cons request sent =>
      unfold Client.ensureTalk at hsent
      cases hstart : cl.findStart m with
      | error failure =>
          rw [hstart] at hsent
          exact absurd (List.prefix_nil.mp hsent) (List.cons_ne_nil _ _)
      | ok start =>
          rw [hstart, Talk.attempt_ok, Talk.asked,
            List.cons_prefix_cons] at hsent
          obtain ⟨rfl, hsent⟩ := hsent
          rw [Talk.after, List.foldl_cons]
          rw [serve_find hstart] at hsent ⊢
          dsimp only at hsent ⊢
          cases hresult : cl.findResult m (srv.find server) with
          | error failure =>
              rw [hresult] at hsent
              obtain rfl := List.prefix_nil.mp hsent
              exact Or.inl rfl
          | ok obj =>
              rw [hresult] at hsent
              dsimp only [Except.map] at hsent
              rw [Talk.attempt_ok, findRest_toVal hstart hresult] at hsent
              cases hfind : cl.find m (srv.find server) with
              | error failure =>
                  rw [hfind] at hsent
                  obtain rfl := List.prefix_nil.mp hsent
                  exact Or.inl rfl
              | ok found =>
                  rw [hfind, ok_bind] at hsent
                  cases hqueue : cl.queueRequests m found with
                  | error failure =>
                      rw [hqueue] at hsent
                      obtain rfl := List.prefix_nil.mp hsent
                      exact Or.inl rfl
                  | ok q =>
                      rw [hqueue, ok_bind, Talk.attempt_ok] at hsent
                      obtain ⟨before, later, hsplit, hrun⟩ :=
                        after_processTalk (fun entry hentry =>
                          queue_method_ne_find hqueue hentry) hsent
                      exact Or.inr ⟨found, q, before, later, rfl, hqueue,
                        hsplit, hrun⟩

end Queue

/-! ## The requests on the wire -/

section Sends

variable {τ : Type} (reprAtom : Atom → String) (cl : Client)
  (m : AnsibleModule) (s : Session) (serve : τ → HttpRequest → HttpAnswer × τ)
  (t : τ)

/-- What `_post_json` makes of the answer to the find request. -/
def Client.findAnswer (headers : List (String × Val)) (request : Request) :
    Except Failure Reply :=
  cl.replyOf reprAtom m s headers request
    (serve (serve t s.loginRequest).2
      (cl.postRequest s headers request)).1

/-- The requests of a run: the login, then in its session the find request
and then, out of check mode, requests of the queue in their order.  A run
that succeeds has sent the whole queue. -/
theorem main_sends : ∃ later,
    (cl.mainTalk reprAtom m s).asked serve t = s.loginRequest :: later ∧
    (later ≠ [] → ∃ headers start sent,
      s.login (fun _ => (serve t s.loginRequest).1) = .ok headers ∧
      cl.findStart m = .ok start ∧
      later = (start.2 :: sent).map (cl.postRequest s headers) ∧
      (sent ≠ [] → m.checkMode = false ∧ ∃ reply plan,
        cl.findAnswer reprAtom m s serve t headers start.2 = .ok reply ∧
        cl.findRest m start.1 reply = .ok plan ∧
        sent <+: plan.2.entries.map QueueEntry.request)) ∧
    ∀ out, ((cl.mainTalk reprAtom m s).run serve t).1 = .ok out →
      ∃ headers start reply plan,
        s.login (fun _ => (serve t s.loginRequest).1) = .ok headers ∧
        cl.findStart m = .ok start ∧
        cl.findAnswer reprAtom m s serve t headers start.2 = .ok reply ∧
        cl.findRest m start.1 reply = .ok plan ∧
        later = (start.2 ::
          if m.checkMode then []
          else plan.2.entries.map QueueEntry.request).map
            (cl.postRequest s headers) := by
  unfold Client.mainTalk
  refine ⟨_, rfl, ?_⟩
  rw [Talk.run]
  dsimp only
  cases hlogin : s.login (fun _ => (serve t s.loginRequest).1) with
  | error failure =>
      constructor
      · intro hlater
        contradiction
      · intro out hok
        contradiction
  | ok headers =>
      simp only [Talk.attempt_ok]
      rw [Talk.run_through, Talk.asked_through serve (fun _ _ => rfl)]
      constructor
      · intro hlater
        rcases asked_ensureTalk cl m
          (Talk.served serve (cl.postTalk reprAtom m s headers))
          (serve t s.loginRequest).2 with hnone | ⟨start, sent, hstart, hasked,
            hsent⟩
        · rw [hnone] at hlater
          contradiction
        · exact ⟨headers, start, sent, rfl, hstart, by rw [hasked], hsent⟩
      · intro out hok
        obtain ⟨start, reply, plan, hstart, hanswer, hplan, hasked⟩ :=
          asked_ensureTalk_of_ok hok
        exact ⟨headers, start, reply, plan, rfl, hstart, hanswer, hplan,
          by rw [hasked]⟩

end Sends

/-! ## A server behind HTTP -/

/-- An HTTP server in front of a server that answers API requests.  A login
that succeeds opens a session; within it each request is answered by the
server behind, unless it or its reply is lost. -/
structure Front {σ : Type} (reprAtom : Atom → String) (cl : Client)
    (m : AnsibleModule) (s : Session) (srv : ApiServer σ) (τ : Type) where
  serve : τ → HttpRequest → HttpAnswer × τ
  abs : τ → σ
  InSession : List (String × Val) → τ → Prop
  login_abs : ∀ t, abs (serve t s.loginRequest).2 = abs t
  login_session : ∀ t headers,
    s.login (fun _ => (serve t s.loginRequest).1) = .ok headers →
      InSession headers (serve t s.loginRequest).2
  post_loses : ∀ headers, Talk.Loses (InSession headers) abs
    (Talk.served serve (cl.postTalk reprAtom m s headers)) (cl.serve m srv)

section Front

variable {σ τ : Type} {reprAtom : Atom → String} {cl : Client}
  {m : AnsibleModule} {s : Session} {srv : ApiServer σ}

/-- A run of the module: its outcome and the server afterwards. -/
def Front.main (front : Front reprAtom cl m s srv τ) (t : τ) :
    Except Failure (Bool × Val) × τ :=
  (cl.mainTalk reprAtom m s).run front.serve t

theorem Front.main_of_login (front : Front reprAtom cl m s srv τ) {t : τ}
    {headers : List (String × Val)}
    (hlogin : s.login (fun _ => (front.serve t s.loginRequest).1) =
      .ok headers) :
    front.main t = (cl.ensureTalk m).run
      (Talk.served front.serve (cl.postTalk reprAtom m s headers))
      (front.serve t s.loginRequest).2 := by
  rw [Front.main, Client.mainTalk, Talk.run, hlogin, Talk.attempt_ok,
    Talk.run_through]

/-- A run that succeeds has ensured the object.  A run that fails, at
whatever point, has left the server as it was or with some of the first
requests of the queue carried out, each of them once. -/
theorem Front.main_outcome (front : Front reprAtom cl m s srv τ) (t : τ) :
    (∀ changed obj, (front.main t).1 = .ok (changed, obj) →
      cl.ensureAt m srv (front.abs t) =
        .ok (obj, changed, front.abs (front.main t).2)) ∧
    ∀ failure, (front.main t).1 = .error failure →
      front.abs (front.main t).2 = front.abs t ∨
        ∃ found q before later,
          cl.find m (srv.find (front.abs t)) = .ok found ∧
          cl.queueRequests m found = .ok q ∧ q.entries = before ++ later ∧
          runAll (postEntry srv.post) (front.abs t) before =
            .ok (front.abs (front.main t).2) := by
  cases hlogin : s.login (fun _ => (front.serve t s.loginRequest).1) with
  | error failure =>
      have hmain : front.main t =
          (.error failure, (front.serve t s.loginRequest).2) := by
        rw [Front.main, Client.mainTalk, Talk.run, hlogin,
          Talk.attempt_error, Talk.run_done]
      rw [hmain]
      constructor
      · intro changed obj hok
        contradiction
      · intro _ _
        exact Or.inl (front.login_abs t)
  | ok headers =>
      obtain ⟨hok, herror⟩ := (ensureTalk_givesUp cl m).run_channel
        (front.post_loses headers) (front.login_session t headers hlogin)
      rw [← front.main_of_login hlogin, front.login_abs] at hok herror
      constructor
      · intro changed obj hmain
        have hrun := hok (changed, obj) hmain
        obtain ⟨hresult, hserver⟩ := run_ensureTalk cl m srv (front.abs t)
        rw [hrun] at hresult hserver
        cases hensure : cl.ensureAt m srv (front.abs t) with
        | error failure =>
            rw [hensure] at hresult
            contradiction
        | ok out =>
            have hsame := hserver out hensure
            rw [hensure] at hresult
            have hpair := Except.ok.inj hresult
            rw [Prod.mk.injEq] at hpair
            dsimp only at hsame
            rw [hsame, hpair.1, hpair.2]
      · intro failure hmain
        obtain ⟨sent, hsent, hafter⟩ := herror failure hmain
        rw [hafter]
        exact after_ensureTalk hsent

end Front

end FreeipaProv
