import FreeipaProv.Lib.Dialogue
import FreeipaProv.AddOrMod
import FreeipaProv.Session

/-!
# A run of a module over the wire

`main` logs in and then ensures the object: it posts the find request and
afterwards the queue, each request in the session the login opened.  The run
is a dialogue, first of API requests and then, with `_post_json` between
them, of HTTP requests.
-/

namespace FreeipaProv

open Fallible Dialogue

/-! ## Replies -/

/-- What a post leaves: `self.responses[method]`, and what `_post_json`
returns. -/
structure Reply where
  responses : List (String × Val)
  result : Val

/-- `val > 0` where numbers come before all other values but `None`. -/
def Val.positive : Val → Bool
  | .none => false
  | .bool b => b
  | .int i => 0 < i
  | _ => true

/-- `exists`. -/
def Reply.objectExists (reply : Reply) : Except Failure Bool :=
  match (reply.responses.lookup "result").getD (.dict []) with
  | .dict es => .ok ((es.lookup "count").getD (.int 0)).positive
  | _ => .error .attributeError

/-- `response.copy()`: only dictionaries have the items `clean` reads. -/
def Val.asDict : Val → Except Failure (Dict String Val)
  | .dict es => .ok (Dict.ofPairs es)
  | _ => .error .attributeError

section Ensure

variable (cl : Client) (m : AnsibleModule)

/-- The part of `find` before its request. -/
def Client.findStart : Except Failure (Dict String Val × Request) := do
  let canonParams ← cl.mungeModuleParams m
  let request ← cl.findRequest m
  .ok (canonParams, request)

/-- Whether `add_or_mod` is reached and asks whether the object exists. -/
def Client.asksExists (found : Found) : Bool :=
  !cl.remEnds m found && (cl.baseItem found.diffs).isEmpty

def Client.existsIfAsked (found : Found) (reply : Reply) :
    Except Failure Bool :=
  if cl.asksExists m found then reply.objectExists else .ok false

/-- The part of `find` after its request, and `queue_requests`: the object
found and the queue. -/
def Client.findRest (canonParams : Dict String Val) (reply : Reply) :
    Except Failure (Dict String Val × Queue) := do
  let response ← reply.result.asDict
  let responseCleaned ← cl.mungeResponse m response
  let diffs ← cl.computeChanges m.state canonParams responseCleaned
  let found : Found := {
    canonParams
    objectExists := false
    response := cl.responseAfterMunge response
    responseCleaned
    diffs }
  let objectExists ← cl.existsIfAsked m found reply
  let q ← cl.queueRequests m { found with objectExists }
  .ok (found.response, q)

/-! ## The run as a dialogue -/

/-- The replies to API requests. -/
abbrev ApiTalk (R : Type) := Talk Request (Except Failure Reply)
  (Except Failure R)

/-- `process_queue`, with `self.changed` and the last response. -/
def AnsibleModule.processTalk :
    List QueueEntry → Bool × Val → ApiTalk (Bool × Val)
  | [], run => .done (.ok run)
  | entry :: entries, _ =>
      if m.checkMode then processTalk entries (true, .dict [])
      else .ask entry.request fun answer =>
        .attempt answer fun reply => processTalk entries (true, reply.result)

/-- `ensure`: whether the object changed, and the last response. -/
def Client.ensureTalk : ApiTalk (Bool × Val) :=
  .attempt (cl.findStart m) fun start =>
    .ask start.2 fun answer =>
      .attempt answer fun reply =>
        .attempt (cl.findRest m start.1 reply) fun plan =>
          m.processTalk plan.2.entries
            (plan.2.changed, .dict plan.1.items)

end Ensure

/-- What `fetch_url` gives. -/
abbrev HttpAnswer := Except Raised (FetchResponse × FetchInfo)

/-- The dictionary `json.loads` gives. -/
def responsesOf : HttpAnswer → List (String × Val)
  | .ok ({ json := .ok (.dict resp), .. }, _) => resp
  | _ => []

section Main

variable (reprAtom : Atom → String) (cl : Client) (m : AnsibleModule)
  (s : Session)

def Client.replyOf (headers : List (String × Val)) (request : Request)
    (answer : HttpAnswer) : Except Failure Reply :=
  (cl.postJson (fun _ => answer) reprAtom m s headers request).map fun result =>
    { responses := responsesOf answer, result }

/-- `_post_json` as a dialogue. -/
def Client.postTalk (headers : List (String × Val)) (request : Request) :
    Talk HttpRequest HttpAnswer (Except Failure Reply) :=
  .ask (cl.postRequest s headers request) fun answer =>
    .done (cl.replyOf reprAtom m s headers request answer)

/-- `main`: the arguments of `exit_json`, or the failure that `fail_json`
reports. -/
def Client.mainTalk : Talk HttpRequest HttpAnswer
    (Except Failure (Bool × Val)) :=
  .ask s.loginRequest fun answer =>
    .attempt (s.login fun _ => answer) fun headers =>
      (cl.ensureTalk m).through (cl.postTalk reprAtom m s headers)

end Main

/-! ## What the run makes of a find reply -/

section FindRest

variable {cl : Client} {m : AnsibleModule}

theorem Val.asDict_items (obj : Dict String Val) :
    (Val.dict obj.items).asDict = .ok obj := by
  rw [Val.asDict, Dict.ofPairs_items]

theorem FindReply.objectExists_toVal (found : FindReply) (result : Val) :
    Reply.objectExists ⟨found.toVal, result⟩ = .ok found.objectExists := by
  have hcount : (found.toVal.lookup "result").getD (.dict []) =
      .dict [("count", .int found.count),
        ("result", .list (found.result.map fun obj => .dict obj.items))] := by
    rfl
  rw [Reply.objectExists, hcount]
  change Except.ok (decide ((0 : ℤ) < found.count)) = _
  rw [FindReply.objectExists]
  simp

/-- Only `add_or_mod` looks at whether the object exists, and only where it
has nothing to send. -/
theorem queueRequests_exists (cl : Client) (m : AnsibleModule) (found : Found)
    (hasks : cl.asksExists m found = false) (b : Bool) :
    cl.queueRequests m { found with objectExists := b } =
      cl.queueRequests m found := by
  cases hends : cl.remEnds m found with
  | true =>
      have hends' : cl.remEnds m { found with objectExists := b } = true :=
        hends
      rw [queueRequests_of_remEnds hends, queueRequests_of_remEnds hends']
      rfl
  | false =>
      have hitem : (cl.baseItem found.diffs).isEmpty = false := by
        simpa [Client.asksExists, hends] using hasks
      have hchange : ∀ func q,
          cl.change m { found with objectExists := b } q func =
            cl.change m found q func := by
        intro func q
        cases func with
        | addOrMod =>
            simp only [Client.change, Client.addOrMod, hitem,
              Bool.false_and]
            rfl
        | _ => rfl
      have hfrom : ∀ funcs q,
          cl.queueFrom m { found with objectExists := b } funcs q =
            cl.queueFrom m found funcs q := by
        intro funcs
        induction funcs with
        | nil => exact fun _ => rfl
        | cons func rest ih =>
            intro q
            simp only [Client.queueFrom, hchange, ih]
      exact hfrom _ _

theorem findStart_eq_ok {start : Dict String Val × Request}
    (hstart : cl.findStart m = .ok start) :
    cl.mungeModuleParams m = .ok start.1 ∧ cl.findRequest m = .ok start.2 := by
  obtain ⟨canonParams, hcanon, hstart⟩ := bind_eq_ok_iff.mp hstart
  obtain ⟨request, hrequest, hstart⟩ := bind_eq_ok_iff.mp hstart
  obtain rfl := Except.ok.inj hstart
  exact ⟨hcanon, hrequest⟩

/-- On the reply to its find request a run goes on with what `find` and
`queue_requests` make of the objects listed. -/
theorem findRest_toVal {start : Dict String Val × Request}
    {found : FindReply} {obj : Dict String Val}
    (hstart : cl.findStart m = .ok start)
    (hobj : cl.findResult m found = .ok obj) :
    cl.findRest m start.1 ⟨found.toVal, .dict obj.items⟩ = (do
      let f ← cl.find m found
      let q ← cl.queueRequests m f
      .ok (f.response, q)) := by
  obtain ⟨hcanon, hrequest⟩ := findStart_eq_ok hstart
  unfold Client.findRest Client.find
  simp only [Val.asDict_items, hcanon, hrequest, hobj, ok_bind]
  cases cl.mungeResponse m obj with
  | error err => rfl
  | ok current =>
      simp only [ok_bind]
      cases cl.computeChanges m.state start.1 current with
      | error err => rfl
      | ok diffs =>
          simp only [ok_bind, Client.existsIfAsked,
            FindReply.objectExists_toVal]
          split_ifs with hasks
          · rfl
          · rw [Bool.not_eq_true] at hasks
            have hqueue := queueRequests_exists cl m _ hasks
            simp only [ok_bind, hqueue]

end FindRest

end FreeipaProv
