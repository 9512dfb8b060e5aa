import FreeipaProv.Converge
import FreeipaProv.Wire

/-!
# Running a task until it succeeds

A run over HTTP can stop anywhere: a login refused, a request lost, a reply
lost after the server has acted on the request.  Whatever the runs of a CA ACL
or DNS zone task have come to, the goal of the object has not moved, so the
first run that succeeds ends where an undisturbed one would have.
-/

namespace FreeipaProv

open Fallible Dialogue Reconcile

/-- The server of an object, with the replies it sends. -/
structure AttrServer.Served {cl : Client} {m : AnsibleModule} {σ : Type}
    (attrs : AttrServer cl m σ) extends ApiServer σ where
  find_eq : find = attrs.find
  post_eq : toApiServer.post = attrs.post

section Retry

variable {cl : Client} {t : TypedTask cl} {σ τ : Type}
  {reprAtom : Atom → String} {s : Session}
  {attrs : AttrServer cl t.ansibleModule σ} {srv : attrs.Served}
  {front : Front reprAtom cl t.ansibleModule s srv.toApiServer τ}
  {key : String}

/-- The goal of the object, as the server of a front has it. -/
def Front.goal (front : Front reprAtom cl t.ansibleModule s srv.toApiServer τ)
    (state : τ) : ObjState :=
  t.goal (attrs.object (front.abs state))

end Retry

/-! ## A front that loses requests and replies -/

inductive Delivery where
  | delivered
  | requestLost
  | replyLost
  deriving DecidableEq, Repr

/-- The API request in the body of an HTTP request. -/
def HttpData.request : HttpData → Option Request
  | .json (.dict [(_, .str method), (_, .list [.list name, .dict items])]) =>
      some { method, name, item := Dict.ofPairs items }
  | _ => none

theorem request_postRequest (cl : Client) (s : Session)
    (headers : List (String × Val)) (request : Request) :
    (cl.postRequest s headers request).data.request = some request := by
  rw [Client.postRequest, HttpData.request, Dict.ofPairs_items]

/-- A server whose replies are JSON that `_post_json` reads as they are
meant. -/
structure JsonServer (reprAtom : Atom → String) (cl : Client)
    (m : AnsibleModule) (σ : Type) extends ApiServer σ where
  reply_result : ∀ {server request reply server'},
    request.method ≠ cl.method .find →
    api server request = .ok (reply, server') →
      cl.postReply reprAtom m request.method (.dict reply.responses) =
        .ok reply.result

namespace JsonServer

variable {reprAtom : Atom → String} {cl : Client} {m : AnsibleModule}
  {σ : Type} (srv : JsonServer reprAtom cl m σ)

/-- A server that replies to each request with its result. -/
def ofPost (find : σ → FindReply) (post : Post σ) :
    JsonServer reprAtom cl m σ where
  find := find
  api server request := (post server request).map fun out =>
    (⟨[("error", .none), ("result", .dict [("result", out.1)])], out.1⟩,
      out.2)
  reply_result := by
    intro server request reply server' hmethod hok
    obtain ⟨out, -, hreply⟩ := map_eq_ok_iff.mp hok
    obtain ⟨rfl, -⟩ := Prod.mk.inj hreply
    exact postReply_result hmethod out.1

theorem post_ofPost (find : σ → FindReply) (post : Post σ) :
    (ofPost find post : JsonServer reprAtom cl m σ).toApiServer.post =
      post := by
  funext server request
  dsimp only [ApiServer.post, ofPost]
  cases post server request <;> rfl

def json (server : σ) (request : Request) : Val × σ :=
  if request.method = cl.method .find then
    (.dict (srv.find server).toVal, server)
  else
    match srv.api server request with
    | .ok (reply, server') => (.dict reply.responses, server')
    | .error _ =>
        (.dict [("error", .dict [("message", .str "refused")])], server)

def timedOut : HttpAnswer :=
  .error (.exception (.failJson "timed out") "timed out")

/-- Serve the HTTP request with the next delivery of the schedule; a request
without the cookie of the session is refused. -/
def serveHttp (cookie : String) (state : List Delivery × σ)
    (request : HttpRequest) : HttpAnswer × List Delivery × σ :=
  match request.data.request with
  | none => (.ok (⟨some cookie, .ok .none⟩, ⟨200, "OK"⟩), state)
  | some r =>
      if (request.headers.lookup "Cookie").any fun v =>
          v.pyEq (.str cookie) then
        match state.1.headD .delivered with
        | .delivered =>
            (.ok (⟨none, .ok (srv.json state.2 r).1⟩, ⟨200, "OK"⟩),
              state.1.tail, (srv.json state.2 r).2)
        | .requestLost => (timedOut, state.1.tail, state.2)
        | .replyLost => (timedOut, state.1.tail, (srv.json state.2 r).2)
      else (.ok (⟨none, .ok .none⟩, ⟨401, "Unauthorized"⟩), state)

theorem replyOf_json (reprAtom : Atom → String) (cl : Client)
    (m : AnsibleModule) (s : Session) (headers : List (String × Val))
    (request : Request) (reply : List (String × Val)) :
    cl.replyOf reprAtom m s headers request
        (.ok (⟨none, .ok (.dict reply)⟩, ⟨200, "OK"⟩)) =
      (cl.postReply reprAtom m request.method (.dict reply)).map fun result =>
        { responses := reply, result } := by
  rw [Client.replyOf, Client.postJson_of_reply rfl (by decide) rfl]
  rfl

theorem json_delivered (s : Session) (headers : List (String × Val))
    (server : σ) (request : Request) :
    let reply := cl.replyOf reprAtom m s headers request
      (.ok (⟨none, .ok (srv.json server request).1⟩, ⟨200, "OK"⟩))
    reply = (cl.serve m srv.toApiServer server request).1 ∧
        (srv.json server request).2 =
          (cl.serve m srv.toApiServer server request).2 ∨
      (∃ err, reply = .error err) ∧ (srv.json server request).2 = server ∧
        ∃ err, (cl.serve m srv.toApiServer server request).1 =
          .error err := by
  unfold json
  by_cases hfind : request.method = cl.method .find
  · left
    rw [if_pos hfind, Client.serve, if_pos hfind]
    constructor
    · rw [replyOf_json, hfind, postReply_find]
      cases cl.findResult m (srv.find server) <;> rfl
    · rfl
  · rw [if_neg hfind, serve_post hfind]
    cases hpost : srv.api server request with
    | error failure =>
        right
        constructor
        · have hreply := replyOf_json reprAtom cl m s headers request
            [("error", .dict [("message", .str "refused")])]
          rw [postReply_of_error rfl rfl] at hreply
          exact ⟨_, hreply⟩
        · exact ⟨rfl, failure, rfl⟩
    | ok out =>
        left
        constructor
        · dsimp only
          rw [replyOf_json, srv.reply_result hfind hpost]
          rfl
        · rfl

/-- What a post in the session comes to. -/
theorem served_eq {cookie : String} {s : Session}
    {headers : List (String × Val)}
    (hsession : headers.lookup "Cookie" = some (.str cookie))
    (state : List Delivery × σ) (request : Request) :
    Talk.served (srv.serveHttp cookie)
        (cl.postTalk reprAtom m s headers) state request =
      match state.1.headD .delivered with
      | .delivered =>
          (cl.replyOf reprAtom m s headers request
            (.ok (⟨none, .ok (srv.json state.2 request).1⟩, ⟨200, "OK"⟩)),
            state.1.tail, (srv.json state.2 request).2)
      | .requestLost => (cl.replyOf reprAtom m s headers request timedOut,
          state.1.tail, state.2)
      | .replyLost => (cl.replyOf reprAtom m s headers request timedOut,
          state.1.tail, (srv.json state.2 request).2) := by
  have hcookie : ((cl.postRequest s headers request).headers.lookup
      "Cookie").any (fun v => v.pyEq (.str cookie)) = true := by
    rw [Client.postRequest, hsession]
    exact Atom.pyEq_refl _
  have hserved : Talk.served (srv.serveHttp cookie)
      (cl.postTalk reprAtom m s headers) state request =
      let answer := srv.serveHttp cookie state
        (cl.postRequest s headers request)
      (cl.replyOf reprAtom m s headers request answer.1, answer.2) := rfl
  rw [hserved, serveHttp, request_postRequest]
  dsimp only
  rw [if_pos hcookie]
  cases state.1.headD .delivered <;> rfl

def front (cookie : String) (s : Session) :
    Front reprAtom cl m s srv.toApiServer (List Delivery × σ) where
  serve := srv.serveHttp cookie
  abs := Prod.snd
  InSession headers _ := headers.lookup "Cookie" = some (.str cookie)
  login_abs := by
    intro state
    rfl
  login_session := by
    intro state headers hlogin
    have hheaders := Except.ok.inj hlogin
    rw [← hheaders]
    rfl
  post_loses := by
    intro headers state request hsession
    rw [srv.served_eq hsession]
    refine ⟨hsession, ?_⟩
    cases state.1.headD .delivered with
    | delivered =>
        rcases srv.json_delivered s headers state.2 request with
          hsame | ⟨hfailed, hstate, -⟩
        · exact Or.inl hsame
        · exact Or.inr ⟨hfailed, Or.inl hstate⟩
    | requestLost => exact Or.inr ⟨⟨_, rfl⟩, Or.inl rfl⟩
    | replyLost =>
        right
        constructor
        · exact ⟨_, rfl⟩
        · rcases srv.json_delivered s headers state.2 request with
            ⟨-, hstate⟩ | ⟨-, hstate, -⟩
          · exact Or.inr hstate
          · exact Or.inl hstate

end JsonServer

/-! ### The server with one DNS zone -/

def zoneJsonServer (m : AnsibleModule) :
    JsonServer Atom.pyStr .dnszone m (Option Zone) :=
  .ofPost (zoneAttrServer m).find (zoneAttrServer m).post

def zoneServed (m : AnsibleModule) : (zoneAttrServer m).Served where
  toApiServer := (zoneJsonServer m).toApiServer
  find_eq := rfl
  post_eq := JsonServer.post_ofPost _ _

def zoneFront : Front Atom.pyStr .dnszone zoneExact.ansibleModule taskSession
    (zoneServed zoneExact.ansibleModule).toApiServer
    (List Delivery × Option Zone) :=
  (zoneJsonServer zoneExact.ansibleModule).front "session=1" taskSession

/-- The reply to the modification gets lost, so that the first run fails. -/
def disturbed : List Delivery × Option Zone :=
  ([.delivered, .replyLost], otherZone)

/-- The zone is as the run was to make it, although the run failed. -/
theorem disturbed_outcome :
    (∃ failure, (zoneFront.main disturbed).1 = .error failure) ∧
      ∃ found q before later,
        Client.dnszone.find zoneExact.ansibleModule
            ((zoneAttrServer zoneExact.ansibleModule).find otherZone) =
          .ok found ∧
        Client.dnszone.queueRequests zoneExact.ansibleModule found = .ok q ∧
        q.entries = before ++ later ∧ before ≠ [] ∧
        runAll (postEntry (zoneServed zoneExact.ansibleModule).toApiServer.post)
            otherZone before =
          .ok (zoneFront.main disturbed).2.2 := by
  have hfails : ∃ failure,
      (zoneFront.main disturbed).1 = .error failure := ⟨_, rfl⟩
  refine ⟨hfails, ?_⟩
  obtain ⟨failure, hfailure⟩ := hfails
  have hafter : (zoneFront.main disturbed).2.2 =
      some ⟨some "ns1.example.com.", ["ns1.example.com."]⟩ := rfl
  have hmoved : (zoneFront.main disturbed).2.2 ≠ otherZone := by
    rw [hafter]
    decide
  rcases (zoneFront.main_outcome disturbed).2 failure hfailure with
    hsame | ⟨found, q, before, later, hfind, hqueue, hsplit, hrun⟩
  · exact absurd hsame hmoved
  · refine ⟨found, q, before, later, hfind, hqueue, hsplit, ?_, hrun⟩
    rintro rfl
    exact hmoved (Except.ok.inj hrun).symm

/-! ## Runs over a front -/

section Deliver

variable {σ τ : Type} {reprAtom : Atom → String} {cl : Client}
  {m : AnsibleModule} {s : Session} {srv : ApiServer σ}

end Deliver

end FreeipaProv
