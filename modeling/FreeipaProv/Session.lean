import FreeipaProv.Lib.SymbolCode
import FreeipaProv.Run

/-!
# Talking to the server

`login` opens the session and `_post_json` posts one API method; both report
what goes wrong through `_fail`.  What `fetch_url` does is a parameter.
-/

namespace FreeipaProv

open Fallible
open SymbolCode

/-! ## Failures inside a `try` block -/

/-- What leaves a block early: the exit `fail_json` makes, or an exception
with its text. -/
inductive Raised where
  | exit (msg : String)
  | exception (kind : Failure) (text : String)
  deriving DecidableEq, Repr

/-- What the failure is where nothing catches it. -/
def Raised.toFailure : Raised → Failure
  | .exit msg => .failJson msg
  | .exception kind _ => kind

/-- The text of the exception that `e.get` raises for a string `e`. -/
def strHasNoGet : String := "'str' object has no attribute 'get'"

/-- `_fail(msg, e)` for a string `e`. -/
def raiseFail (msg e : String) : Raised :=
  if "message".toList <:+: e.toList then
    .exception .attributeError strHasNoGet
  else
    .exit (msg ++ ": " ++ e)

theorem toFailure_raiseFail (msg e : String) :
    (raiseFail msg e).toFailure = fail msg e := by
  unfold raiseFail fail
  by_cases hmessage : "message".toList <:+: e.toList
  · rw [if_pos hmessage, if_pos hmessage]
    rfl
  · rw [if_neg hmessage, if_neg hmessage]
    rfl

/-- `except Exception`: the exit of `fail_json` is not an `Exception`. -/
def exceptException {α : Type} (body : Except Raised α)
    (handler : String → Failure) : Except Failure α :=
  match body with
  | .ok result => .ok result
  | .error (.exit msg) => .error (.failJson msg)
  | .error (.exception _ text) => .error (handler text)

/-! ## Formatting a value -/

section Format

-- `repr` of a scalar, which differs between Python 2 and 3
variable (reprAtom : Atom → String)

mutual

def Val.pyRepr : Val → String
  | .atom a => reprAtom a
  | .list vs => "[" ++ Val.pyReprList vs ++ "]"
  | .dict es => "\x7b" ++ Val.pyReprDict es ++ "\x7d"

def Val.pyReprList : List Val → String
  | [] => ""
  | [v] => v.pyRepr
  | v :: vs => v.pyRepr ++ ", " ++ Val.pyReprList vs

def Val.pyReprDict : List (String × Val) → String
  | [] => ""
  | [(key, v)] => reprAtom (.str key) ++ ": " ++ v.pyRepr
  | (key, v) :: es =>
      reprAtom (.str key) ++ ": " ++ v.pyRepr ++ ", " ++ Val.pyReprDict es

end

/-- `"%s" % val`. -/
def Val.pyStr : Val → String
  | .atom a => a.pyStr
  | v => v.pyRepr reprAtom

/-- `_fail(msg, e)`. -/
def failVal (msg : String) : Val → Failure
  | .str e => fail msg e
  | .dict es =>
      match es.lookup "message" with
      | some entry => .failJson (msg ++ ": " ++ entry.pyStr reprAtom)
      | none => .failJson (msg ++ ": " ++ (Val.dict es).pyStr reprAtom)
  | .list vs =>
      if vs.any fun v => v.pyEq (.str "message") then .attributeError
      else .failJson (msg ++ ": " ++ (Val.list vs).pyStr reprAtom)
  -- no `in` for numbers and `None`
  | .atom _ => .typeError

end Format

/-! ## Requests -/

/-- What `init_module` reads from the parameters. -/
structure Session where
  protocol : String
  host : String
  username : String
  password : String

def Session.getBaseUrl (s : Session) : String :=
  s.protocol ++ "://" ++ s.host ++ "/ipa"

/-- The `data` of a request, before it is turned into bytes. -/
inductive HttpData where
  | form (text : String)
  | json (val : Val)

structure HttpRequest where
  url : String
  data : HttpData
  headers : List (String × Val)
  timeout : ℕ

/-- `info` of `fetch_url`. -/
structure FetchInfo where
  status : ℤ
  msg : String

/-- `resp` of `fetch_url`: its `Set-Cookie` header, and what reading,
decoding and parsing its body gives. -/
structure FetchResponse where
  setCookie : Option String
  json : Except Failure Val

/-- `quote(text, safe='')`. -/
def quote (text : String) : String :=
  String.ofList (text.toUTF8.toList.flatMap fun byte =>
    let c := Char.ofNat byte.toNat
    if c.isAlphanum ∨ c = '_' ∨ c = '.' ∨ c = '-' then [c]
    else ['%', (Nat.digitChar (byte.toNat / 16)).toUpper,
      (Nat.digitChar (byte.toNat % 16)).toUpper])

def Session.loginRequest (s : Session) : HttpRequest where
  url := s.getBaseUrl ++ "/session/login_password"
  data := .form ("user=" ++ quote s.username ++ "&password=" ++
    quote s.password)
  headers := [("referer", .str s.getBaseUrl),
    ("Content-Type", .str "application/x-www-form-urlencoded"),
    ("Accept", .str "text/plain")]
  -- the default of `fetch_url`
  timeout := 10

/-- `fetch_url_timeout`. -/
def Client.fetchUrlTimeout : Client → ℕ
  | .ca | .cert => 60
  | _ => 10

def Client.postRequest (cl : Client) (s : Session)
    (headers : List (String × Val)) (request : Request) : HttpRequest where
  url := s.getBaseUrl ++ "/session/json"
  data := .json (.dict [("method", .str request.method),
    ("params", .list [.list request.name, .dict request.item.items])])
  headers := headers
  timeout := cl.fetchUrlTimeout

/-- The check of the status. -/
def checkStatus (msg : String) (info : FetchInfo) : Except Raised Unit :=
  if info.status ∈ [200, 201, 204] then .ok ()
  else .error (raiseFail msg info.msg)

/-! ## Logging in and posting -/

section Post

variable (fetchUrl : HttpRequest → Except Raised (FetchResponse × FetchInfo))

/-- `login`, with the headers it leaves for later requests. -/
def Session.login (s : Session) : Except Failure (List (String × Val)) :=
  exceptException (do
      let (resp, info) ← fetchUrl s.loginRequest
      checkStatus "login" info
      return [("referer", .str s.getBaseUrl),
        ("Content-Type", .str "application/json"),
        ("Accept", .str "application/json"),
        ("Cookie", (resp.setCookie.map Val.str).getD .none)])
    (fail "login")

/-- `find_filter` on what a reply lists. -/
def Client.findFilterVal (cl : Client) (m : AnsibleModule) :
    Val → Except Failure Bool
  | .dict es => cl.findFilter m (Dict.ofPairs es)
  | _ =>
      match cl with
      | .dnsrecord => do
          let isOrigin ← dnsrecordIsOrigin m
          if isOrigin then .error .typeError else .ok true
      | .cert => .error .typeError
      | _ => .ok true

/-- `result['result']` of a result that has one. -/
def innerResult : Val → Except Failure Val
  | .dict es => .ok ((es.lookup "result").getD (.dict es))
  | .list vs =>
      if vs.any fun v => v.pyEq (.str "result") then .error .attributeError
      else .ok (.list vs)
  | .str text =>
      if "result".toList <:+: text.toList then .error .attributeError
      else .ok (.str text)
  | _ => .error .typeError

/-- The part of `_post_json` after the error check. -/
def Client.postResult (cl : Client) (m : AnsibleModule) (method : String)
    (resp : List (String × Val)) : Except Failure Val :=
  match resp.lookup "result" with
  | none => .ok .none
  | some result => do
      match ← innerResult result with
      | .list vs =>
          if method = cl.method .find then do
            let vs ← Fallible.filter (cl.findFilterVal m) vs
            .ok (vs.getLast?.getD (.dict []))
          else .ok (.list vs)
      | result => .ok result

/-- The part of `_post_json` after the request. -/
def Client.postReply (reprAtom : Atom → String) (cl : Client)
    (m : AnsibleModule) (method : String) : Val → Except Failure Val
  | .dict resp =>
      match (resp.lookup "error").getD .none with
      | .none => cl.postResult m method resp
      | err => .error (failVal reprAtom ("response " ++ method) err)
  -- only dictionaries have `get`
  | _ => .error .attributeError

/-- `_post_json`. -/
def Client.postJson (reprAtom : Atom → String) (cl : Client)
    (m : AnsibleModule) (s : Session) (headers : List (String × Val))
    (request : Request) : Except Failure Val := do
  let resp ← exceptException (do
      let (resp, info) ← fetchUrl (cl.postRequest s headers request)
      checkStatus request.method info
      return resp)
    (fail ("post " ++ request.method))
  let reply ← resp.json
  cl.postReply reprAtom m request.method reply

end Post

/-! ## What is reported -/

/-- The run ends in `fail_json` with a message that contains the text. -/
def Reports {α : Type} (outcome : Except Failure α) (text : String) : Prop :=
  ∃ msg, outcome = .error (.failJson msg) ∧ text.toList <:+: msg.toList

section Reports

variable {α : Type} {msg again e : String}

@[simp] theorem reports_error_iff {failure : Failure} {text : String} :
    Reports (.error failure : Except Failure α) text ↔
      ∃ msg, failure = .failJson msg ∧ text.toList <:+: msg.toList := by
  simp [Reports]

theorem reports_failJson_iff {text : String} :
    Reports (.error (.failJson msg) : Except Failure α) text ↔
      text.toList <:+: msg.toList := by
  simp

/-- What comes after a failure does not change what is reported. -/
theorem reports_bind_iff {β : Type} {failure : Failure}
    {outcome : Except Failure α} {next : α → Except Failure β} {text : String}
    (houtcome : outcome = .error failure) :
    Reports (outcome >>= next) text ↔ Reports outcome text := by
  rw [houtcome, error_bind, reports_error_iff, reports_error_iff]

theorem isPart_append (before text : String) :
    text.toList <:+: (before ++ text).toList := by
  rw [String.toList_append]
  exact (List.suffix_append _ _).isInfix

theorem not_message_strHasNoGet :
    ¬ "message".toList <:+: strHasNoGet.toList := by decide

theorem not_message_login :
    ¬ "message".toList <:+: ("login" ++ ": " ++ strHasNoGet).toList := by
  decide

theorem fail_of_not_message (he : ¬ "message".toList <:+: e.toList) :
    fail msg e = .failJson (msg ++ ": " ++ e) := by
  unfold fail
  rw [if_neg he]

/-- A text with `message` in it raises the exception that the handler then
reports in its place. -/
theorem exceptException_of_message (he : "message".toList <:+: e.toList) :
    exceptException (.error (raiseFail msg e) : Except Raised α) (fail again) =
      .error (.failJson (again ++ ": " ++ strHasNoGet)) := by
  have hraise : raiseFail msg e =
      .exception .attributeError strHasNoGet := by
    unfold raiseFail
    rw [if_pos he]
  rw [hraise, exceptException, fail_of_not_message not_message_strHasNoGet]

theorem exceptException_of_not_message
    (he : ¬ "message".toList <:+: e.toList) :
    exceptException (.error (raiseFail msg e) : Except Raised α) (fail again) =
      .error (.failJson (msg ++ ": " ++ e)) := by
  have hraise : raiseFail msg e = .exit (msg ++ ": " ++ e) := by
    unfold raiseFail
    rw [if_neg he]
  rw [hraise, exceptException]

theorem exists_exceptException_raiseFail (msg again e : String) :
    ∃ failure, exceptException (.error (raiseFail msg e) : Except Raised α)
      (fail again) = .error failure := by
  by_cases he : "message".toList <:+: e.toList
  · exact ⟨_, exceptException_of_message he⟩
  · exact ⟨_, exceptException_of_not_message he⟩

theorem reports_raiseFail_iff :
    Reports (exceptException (.error (raiseFail msg e) : Except Raised α)
        (fail again)) e ↔
      ¬ "message".toList <:+: e.toList ∨
        e.toList <:+: (again ++ ": " ++ strHasNoGet).toList := by
  by_cases he : "message".toList <:+: e.toList
  · rw [exceptException_of_message he, reports_failJson_iff]
    constructor
    · exact Or.inr
    · rintro (hnot | hpart)
      · exact absurd he hnot
      · exact hpart
  · rw [exceptException_of_not_message he, reports_failJson_iff]
    constructor
    · intro _
      exact Or.inl he
    · intro _
      exact isPart_append _ _

theorem checkStatus_of_not_mem {info : FetchInfo}
    (hstatus : info.status ∉ [200, 201, 204]) :
    checkStatus msg info = .error (raiseFail msg info.msg) := by
  rw [checkStatus, if_neg hstatus]

end Reports

section Fetch

variable {fetchUrl : HttpRequest → Except Raised (FetchResponse × FetchInfo)}
  {s : Session} {cl : Client} {m : AnsibleModule}
  {headers : List (String × Val)} {request : Request}
  {reprAtom : Atom → String} {resp : FetchResponse} {info : FetchInfo}

theorem Session.login_of_status (s : Session)
    (hfetch : fetchUrl s.loginRequest = .ok (resp, info))
    (hstatus : info.status ∉ [200, 201, 204]) :
    s.login fetchUrl =
      exceptException (.error (raiseFail "login" info.msg)) (fail "login") := by
  rw [Session.login, hfetch]
  dsimp only [ok_bind]
  rw [checkStatus_of_not_mem hstatus]
  rfl

theorem Client.postJson_of_status
    (hfetch : fetchUrl (cl.postRequest s headers request) = .ok (resp, info))
    (hstatus : info.status ∉ [200, 201, 204]) :
    Reports (cl.postJson fetchUrl reprAtom m s headers request) info.msg ↔
      ¬ "message".toList <:+: info.msg.toList ∨
        info.msg.toList <:+:
          ("post " ++ request.method ++ ": " ++ strHasNoGet).toList := by
  have hreport : Reports
      (exceptException
        (.error (raiseFail request.method info.msg) : Except Raised FetchResponse)
        (fail ("post " ++ request.method))) info.msg ↔ _ :=
    reports_raiseFail_iff
  obtain ⟨failure, hfailure⟩ :=
    exists_exceptException_raiseFail request.method
      ("post " ++ request.method) info.msg
  rw [← hreport, Client.postJson, hfetch]
  dsimp only [ok_bind]
  rw [checkStatus_of_not_mem hstatus]
  exact reports_bind_iff hfailure

theorem not_message_post {method : String}
    (hmethod : ¬ "message".toList <:+: method.toList) :
    ¬ "message".toList <:+:
      ("post " ++ method ++ ": " ++ strHasNoGet).toList := by
  have htext : ("post " ++ method ++ ": " ++ strHasNoGet).toList =
      "post".toList ++ ' ' :: (method.toList ++ ':' ::
        ' ' :: strHasNoGet.toList) := by
    have hpost : "post ".toList = "post".toList ++ [' '] := by decide
    have hcolon : ": ".toList = [':', ' '] := by decide
    rw [String.toList_append, String.toList_append, String.toList_append,
      hpost, hcolon]
    simp only [List.append_assoc, List.cons_append, List.nil_append]
  rw [htext]
  intro hpart
  rcases isInfix_append_cons (by decide) hpart with hpost | hpart
  · exact absurd hpost (by decide)
  · rcases isInfix_append_cons (by decide) hpart with hin | hrest
    · exact hmethod hin
    · exact absurd hrest (by decide)

/-- For a method without `message` in its name the text decides alone. -/
theorem Client.postJson_of_not_message
    (hfetch : fetchUrl (cl.postRequest s headers request) = .ok (resp, info))
    (hstatus : info.status ∉ [200, 201, 204])
    (hmethod : ¬ "message".toList <:+: request.method.toList) :
    Reports (cl.postJson fetchUrl reprAtom m s headers request) info.msg ↔
      ¬ "message".toList <:+: info.msg.toList := by
  rw [Client.postJson_of_status hfetch hstatus]
  constructor
  · rintro (hnot | hpart)
    · exact hnot
    · intro hmessage
      exact not_message_post hmethod (hmessage.trans hpart)
  · exact Or.inl

/-- With a good status the reply is what counts. -/
theorem Client.postJson_of_reply {reply : Val}
    (hfetch : fetchUrl (cl.postRequest s headers request) = .ok (resp, info))
    (hstatus : info.status ∈ [200, 201, 204])
    (hreply : resp.json = .ok reply) :
    cl.postJson fetchUrl reprAtom m s headers request =
      cl.postReply reprAtom m request.method reply := by
  rw [Client.postJson, hfetch]
  dsimp only [ok_bind]
  rw [checkStatus, if_pos hstatus]
  change (resp.json >>= cl.postReply reprAtom m request.method) = _
  rw [hreply, ok_bind]

end Fetch

section Reply

variable {reprAtom : Atom → String} {cl : Client} {m : AnsibleModule}
  {method : String} {reply err : List (String × Val)} {entry : Val}

/-- A reply with an error object ends in `fail_json` with the object's
message. -/
theorem postReply_of_error (herror : reply.lookup "error" = some (.dict err))
    (hentry : err.lookup "message" = some entry) :
    cl.postReply reprAtom m method (.dict reply) =
      .error (.failJson
        ("response " ++ method ++ ": " ++ entry.pyStr reprAtom)) := by
  simp only [Client.postReply, herror, Option.getD_some, failVal, hentry]

/-- What the server replies to a find request. -/
def FindReply.toVal (found : FindReply) : List (String × Val) :=
  [("error", .none),
   ("result", .dict [("count", .int found.count),
     ("result", .list (found.result.map fun obj => .dict obj.items))])]

theorem filter_findFilterVal (cl : Client) (m : AnsibleModule)
    (objs : List (Dict String Val)) :
    Fallible.filter (cl.findFilterVal m)
        (objs.map fun obj => .dict obj.items) =
      (Fallible.filter (cl.findFilter m) objs).map
        fun kept => kept.map fun obj => .dict obj.items := by
  have hkeep : (cl.findFilterVal m ∘ fun obj => .dict obj.items) =
      cl.findFilter m := by
    funext obj
    rw [Function.comp_apply, Client.findFilterVal, Dict.ofPairs_items]
  rw [Fallible.filter_map, hkeep]

/-- On the reply to a find request `_post_json` returns what `find` goes on
with. -/
theorem postReply_find (found : FindReply) :
    cl.postReply reprAtom m (cl.method .find) (.dict found.toVal) =
      (cl.findResult m found).map fun obj => .dict obj.items := by
  have hresult : found.toVal.lookup "result" =
      some (.dict [("count", .int found.count),
        ("result", .list (found.result.map fun obj => .dict obj.items))]) := by
    rfl
  have hinner : innerResult (.dict [("count", .int found.count),
      ("result", .list (found.result.map fun obj => .dict obj.items))]) =
      .ok (.list (found.result.map fun obj => .dict obj.items)) := by
    rfl
  have herror : found.toVal.lookup "error" = some .none := by rfl
  simp only [Client.postReply, herror, Option.getD_some, Client.postResult,
    hresult, hinner, ok_bind, if_true, filter_findFilterVal,
    Client.findResult]
  cases Fallible.filter (cl.findFilter m) found.result with
  | error failure => rfl
  | ok kept =>
      dsimp only [Except.map, ok_bind]
      rw [List.getLast?_map]
      cases kept.getLast? <;> rfl

/-- The result of any other request is returned as it is. -/
theorem postReply_result (hmethod : method ≠ cl.method .find) (result : Val) :
    cl.postReply reprAtom m method
      (.dict [("error", .none), ("result", .dict [("result", result)])]) =
        .ok result := by
  have hinner : innerResult (.dict [("result", result)]) = .ok result := by
    rfl
  have herror : [("error", Val.none),
      ("result", .dict [("result", result)])].lookup "error" =
        some .none := by rfl
  have hresult : [("error", Val.none),
      ("result", .dict [("result", result)])].lookup "result" =
        some (.dict [("result", result)]) := by rfl
  simp only [Client.postReply, herror, Option.getD_some, Client.postResult,
    hresult, hinner, ok_bind]
  cases result with
  | list vs =>
      dsimp only
      rw [if_neg hmethod]
  | atom a => rfl
  | dict es => rfl

end Reply

theorem not_message_of_login {text : String}
    (hpart : text.toList <:+: ("login" ++ ": " ++ strHasNoGet).toList) :
    ¬ "message".toList <:+: text.toList := by
  intro hmessage
  exact not_message_login (hmessage.trans hpart)

/-- `login` and `_post_json` report the server's text exactly where `message`
does not occur in it, or where it happens to be part of what they report in
its place; an error object's message is always reported. -/
theorem login_postJson_reports_iff (s : Session) (cl : Client)
    (m : AnsibleModule) (headers : List (String × Val)) (request : Request) :
    (∀ (resp : FetchResponse) (info : FetchInfo),
      info.status ∉ [200, 201, 204] →
      (∀ fetchUrl, fetchUrl s.loginRequest = .ok (resp, info) →
        (Reports (s.login fetchUrl) info.msg ↔
          ¬ "message".toList <:+: info.msg.toList)) ∧
      ∀ fetchUrl reprAtom,
        fetchUrl (cl.postRequest s headers request) = .ok (resp, info) →
        (Reports (cl.postJson fetchUrl reprAtom m s headers request) info.msg ↔
          ¬ "message".toList <:+: info.msg.toList ∨
            info.msg.toList <:+:
              ("post " ++ request.method ++ ": " ++ strHasNoGet).toList)) ∧
    ∀ fetchUrl reprAtom (resp : FetchResponse) (info : FetchInfo)
      reply err entry,
      fetchUrl (cl.postRequest s headers request) = .ok (resp, info) →
      info.status ∈ [200, 201, 204] →
      resp.json = .ok (.dict reply) →
      reply.lookup "error" = some (.dict err) →
      err.lookup "message" = some entry →
      Reports (cl.postJson fetchUrl reprAtom m s headers request)
        (entry.pyStr reprAtom) := by
  refine ⟨fun resp info hstatus => ⟨?_, ?_⟩, ?_⟩
  · intro fetchUrl hfetch
    rw [s.login_of_status hfetch hstatus, reports_raiseFail_iff]
    constructor
    · rintro (hnot | hpart)
      · exact hnot
      · exact not_message_of_login hpart
    · exact Or.inl
  · intro fetchUrl reprAtom hfetch
    exact Client.postJson_of_status hfetch hstatus
  · intro fetchUrl reprAtom resp info reply err entry hfetch hok hreply
      herror hentry
    rw [Client.postJson_of_reply hfetch hok hreply,
      postReply_of_error herror hentry, reports_failJson_iff]
    exact isPart_append _ _

def taskSession : Session where
  protocol := "https"
  host := "ipa.example.com"
  username := "admin"
  password := "secret"

theorem login_postJson_reports_unauthorized :
    Reports
        (taskSession.login fun _ =>
          .ok (⟨none, .ok .none⟩, ⟨401, "HTTP Error 401: Unauthorized"⟩))
        "HTTP Error 401: Unauthorized" ∧
      Reports
        (Client.user.postJson
          (fun _ =>
            .ok (⟨none, .ok .none⟩, ⟨401, "HTTP Error 401: Unauthorized"⟩))
          Atom.pyStr ⟨∅, .present, false⟩ taskSession []
          ⟨"user_find", [], ∅⟩)
        "HTTP Error 401: Unauthorized" ∧
      Reports
        (Client.user.postJson
          (fun _ =>
            .ok (⟨none, .ok (.dict [("error",
              .dict [("code", .int 4001), ("message", .str "not found")])])⟩,
              ⟨200, "OK"⟩))
          Atom.pyStr ⟨∅, .present, false⟩ taskSession []
          ⟨"user_find", [], ∅⟩)
        "not found" := by
  have hreports := login_postJson_reports_iff taskSession .user
    ⟨∅, .present, false⟩ [] ⟨"user_find", [], ∅⟩
  obtain ⟨hlogin, hpost⟩ := hreports.1 ⟨none, .ok .none⟩
    ⟨401, "HTTP Error 401: Unauthorized"⟩ (by decide)
  refine ⟨(hlogin _ rfl).mpr (by decide),
    (hpost _ _ rfl).mpr (Or.inl (by decide)), ?_⟩
  exact hreports.2 _ Atom.pyStr _ _ _ _ (.str "not found") rfl (by decide)
    rfl rfl rfl

/-- What `fetch_url` makes of a reply with the reason `malformed message`. -/
def malformedMessage : String :=
  "HTTP Error 400: malformed message"

def malformedReply :
    HttpRequest → Except Raised (FetchResponse × FetchInfo) :=
  fun _ => .ok (⟨none, .ok .none⟩, ⟨400, malformedMessage⟩)

theorem login_not_reports_malformedMessage :
    ¬ ∀ (s : Session) (resp : FetchResponse) (info : FetchInfo),
      info.status ∉ [200, 201, 204] →
        ∀ fetchUrl, fetchUrl s.loginRequest = .ok (resp, info) →
          Reports (s.login fetchUrl) info.msg := by
  intro hall
  have hreports := hall taskSession ⟨none, .ok .none⟩ ⟨400, malformedMessage⟩
    (by decide) malformedReply rfl
  have hlogin : taskSession.login malformedReply = _ :=
    taskSession.login_of_status rfl (by decide)
  rw [hlogin, exceptException_of_message (by decide),
    reports_failJson_iff] at hreports
  exact absurd hreports (by decide)

end FreeipaProv
