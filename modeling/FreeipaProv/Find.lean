import FreeipaProv.Changes
import FreeipaProv.Clients

/-!
# The find request and its reply

`find` cleans the module parameters, posts the find request, selects one
object of the reply, cleans it and computes the diff.  The subclasses override
single steps; each override is a function of its own below and is put in
place by a match on the client.
-/

namespace FreeipaProv

open Fallible

/-! ## Module parameters -/

/-- `EnablableIPAClient.munge_module_params`. -/
def ClientClass.mungeEnableParams (cls : ClientClass) (m : AnsibleModule) :
    Except Failure (Dict String Val) := do
  let item ← cls.mungeModuleParams m
  match cls.enablekey, m.state with
  | some key, .enabled =>
      .ok (item.insert key (.bool (!cls.enablekeySenseInverted)))
  | some key, .disabled =>
      .ok (item.insert key (.bool cls.enablekeySenseInverted))
  | _, _ => .ok item

/-- The match of `CN=([^,]*),O=` at the start of the subject. -/
def subjectToPrincipalChars : List Char → Option (List Char)
  | 'C' :: 'N' :: '=' :: rest =>
      match rest.dropWhile (· ≠ ',') with
      | ',' :: 'O' :: '=' :: _ => some (rest.takeWhile (· ≠ ','))
      | _ => none
  | _ => none

/-- `CertIPAClient.subject_to_principal`. -/
def subjectToPrincipal (subject : String) : String :=
  match subjectToPrincipalChars subject.toList with
  | some principal => String.ofList principal
  | none => subject

/-- `subject_to_principal` on any value: only a string can be matched. -/
def subjectValToPrincipal : Val → Except Failure Val
  | .str subject => .ok (.str (subjectToPrincipal subject))
  | _ => .error .typeError

/-- `dict[key]`. -/
def getItem (item : Dict String Val) (key : String) : Except Failure Val :=
  match item.lookup key with
  | some val => .ok val
  | none => .error (.keyError key)

/-- `CertIPAClient.munge_module_params`. -/
def ClientClass.mungeCertParams (cls : ClientClass) (m : AnsibleModule) :
    Except Failure (Dict String Val) := do
  let item ← cls.mungeModuleParams m
  let subject ← getItem item "principal"
  let principal ← subjectValToPrincipal subject
  .ok (item.insert "principal" principal)

/-- `munge_module_params`. -/
def Client.mungeModuleParams (cl : Client) (m : AnsibleModule) :
    Except Failure (Dict String Val) :=
  match cl with
  | .user | .caacl | .dnszone => cl.cls.mungeEnableParams m
  | .cert => cl.cls.mungeCertParams m
  | _ => cl.cls.mungeModuleParams m

/-! ## Find request -/

structure Request where
  method : String
  name : List Val
  item : Dict String Val

/-- `IPAClient.find_request_item`. -/
def ClientClass.findRequestItem (cls : ClientClass) (m : AnsibleModule) :
    Dict String Val :=
  (Dict.ofKeys cls.paramKeys fun key => m.params.lookup key).insert
    "all" (.bool true)

/-- `self.is_origin` of the dnsrecord client, set by `find_request_item`. -/
def dnsrecordIsOrigin (m : AnsibleModule) : Except Failure Bool := do
  let cleanedParams ← dnsrecordClass.clean m.params
  let idnsname ← getItem cleanedParams "idnsname"
  .ok (idnsname.pyEq (.str "@"))

/-- `DNSRecordIPAClient.find_request_params`. -/
def dnsrecordFindRequestParams (m : AnsibleModule) :
    Except Failure (List Val) := do
  let cleanedParams ← dnsrecordClass.clean m.params
  let zone ← getItem cleanedParams "zone"
  .ok [zone]

/-- `DNSRecordIPAClient.find_request_item`. -/
def dnsrecordFindRequestItem (m : AnsibleModule) :
    Except Failure (Dict String Val) := do
  let cleanedParams ← dnsrecordClass.clean m.params
  let idnsname ← getItem cleanedParams "idnsname"
  if idnsname.pyEq (.str "@") then
    -- Origin '@':  no find args; filter results in find_filter()
    .ok (Dict.ofList [("all", .bool true)])
  else
    .ok ((Dict.ofList [("all", .bool true)]).insert
      "idnsname" (.dict [("__dns_name__", idnsname)]))

/-- `CertIPAClient.find_request_item`. -/
def certFindRequestItem (m : AnsibleModule) :
    Except Failure (Dict String Val) := do
  let subject ← getItem m.params "principal"
  let principal ← subjectValToPrincipal subject
  let cacn ← getItem m.params "cacn"
  let item := ((Dict.ofList [("all", .bool true), ("exactly", .bool true)]).insert
    "subject" principal).insert "cacn" cacn
  match m.params.lookup "serial_number" with
  | some sn =>
      if sn.truthy then
        .ok ((item.insert "min_serial_number" sn).insert
          "max_serial_number" sn)
      else .ok item
  | none => .ok item

/-- The find request `find` posts. -/
def Client.findRequest (cl : Client) (m : AnsibleModule) :
    Except Failure Request :=
  match cl with
  | .dnsrecord => do
      let name ← dnsrecordFindRequestParams m
      let item ← dnsrecordFindRequestItem m
      .ok { method := cl.method .find, name, item }
  | .cert => do
      let item ← certFindRequestItem m
      .ok { method := cl.method .find, name := [], item }
  | _ => .ok {
      method := cl.method .find
      name := []
      item := cl.cls.findRequestItem m }

/-! ## Find reply -/

/-- The reply to a find request: the matching objects, and how many there
are. -/
structure FindReply where
  result : List (Dict String Val)
  count : ℕ
  count_eq : count = result.length

/-- The reply with these objects. -/
def FindReply.ofList (result : List (Dict String Val)) : FindReply :=
  ⟨result, result.length, rfl⟩

@[simp] theorem FindReply.result_ofList (result : List (Dict String Val)) :
    (FindReply.ofList result).result = result := rfl

/-- `exists`. -/
def FindReply.objectExists (reply : FindReply) : Bool :=
  0 < reply.count

/-- `find_filter`. -/
def Client.findFilter (cl : Client) (m : AnsibleModule)
    (i : Dict String Val) : Except Failure Bool :=
  match cl with
  | .dnsrecord => do
      let isOrigin ← dnsrecordIsOrigin m
      if isOrigin then
        -- Origin:  filter for '@'
        let idnsname ← getItem i "idnsname"
        .ok (idnsname.pyEq (.list [.str "@"]))
      else .ok true
  | .cert => do
      -- Filter out expired or revoked certs
      let status ← getItem i "status"
      .ok (status.pyEq (.str "VALID"))
  | _ => .ok true

/-- The part of `_post_json` that reduces the reply to a find request to one
object: the last one the filter keeps, or an empty dictionary. -/
def Client.findResult (cl : Client) (m : AnsibleModule) (reply : FindReply) :
    Except Failure (Dict String Val) := do
  let result ← Fallible.filter (cl.findFilter m) reply.result
  .ok (result.getLast?.getD ∅)

/-! ## Munging the reply -/

/-- `{'__base64__': v}` to `v`; other values are kept. -/
def unwrapBase64 : Val → Val
  | .dict es => (es.lookup "__base64__").getD (.dict es)
  | v => v

/-- `UserIPAClient.munge_response_usercertificate`. -/
def userMungeResponseUsercertificate (response : Dict String Val) :
    Except Failure (Dict String Val) :=
  match response.lookup "usercertificate" with
  | none => .ok response
  | some vs => do
      let certs ← vs.iter
      .ok (response.insert "usercertificate" (.list (certs.map unwrapBase64)))

/-- The first group of `([^@]*)(@[^@]*)?$`, or the whole name where the
pattern does not match. -/
def krbprincipalAlias (princ : String) : String :=
  match princ.toList.dropWhile (· ≠ '@') with
  | [] => princ
  | _ :: realm =>
      if '@' ∈ realm then princ
      else String.ofList (princ.toList.takeWhile (· ≠ '@'))

/-- `krbprincipal_re.match` takes strings only. -/
def krbprincipalAliasVal : Val → Except Failure Val
  | .str princ => .ok (.str (krbprincipalAlias princ))
  | _ => .error .typeError

/-- The list without the first member equal to `x`. -/
def removeFirst (x : Val) : List Val → List Val
  | [] => []
  | v :: vs => if v.pyEq x then vs else v :: removeFirst x vs

/-- `UserIPAClient.munge_response_krbprincipalname`.  On a reply whose
`krbprincipalname` is not a list, only the empty string gets past the item
assignments. -/
def userMungeResponseKrbprincipalname (response : Dict String Val) :
    Except Failure (Dict String Val) :=
  let krbcanonicalname := (response.lookup "krbcanonicalname").getD .none
  match response.lookup "krbprincipalname" with
  | none => .ok response
  | some (.list princs) => do
      -- Remove krbcanonicalname from list
      let princs := match krbcanonicalname with
        | .none => princs
        | canonical => removeFirst canonical princs
      -- Turn principal foo@EXAMPLE.COM into foo
      let aliases ← princs.mapM krbprincipalAliasVal
      .ok (response.insert "krbprincipalname" (.list aliases))
  | some (.str "") =>
      match krbcanonicalname with
      | .none => .ok response
      | .str canonical =>
          if canonical = "" then .error .attributeError else .ok response
      | _ => .error .typeError
  | some _ => .error .typeError

/-- `UserIPAClient.munge_response`. -/
def userMungeResponse (response : Dict String Val) :
    Except Failure (Dict String Val) := do
  let response ← userMungeResponseUsercertificate response
  let response ← userMungeResponseKrbprincipalname response
  userClass.mungeResponse response

/-- `ServiceIPAClient.munge_response_usercertificate`. -/
def serviceMungeResponseUsercertificate (response : Dict String Val) :
    Dict String Val :=
  match response.lookup "usercertificate" with
  | none => response
  | some v => response.insert "usercertificate" (unwrapBase64 v)

/-- `ServiceIPAClient.munge_response_krbprincipalname`. -/
def serviceMungeResponseKrbprincipalname (m : AnsibleModule)
    (response : Dict String Val) : Except Failure (Dict String Val) :=
  match response.lookup "krbprincipalname" with
  | none => .ok response
  | some v => do
      let vals ← v.iter
      let canonical := (m.params.lookup "krbcanonicalname").getD .none
      -- list.remove raises where the value is not a member
      if vals.any fun v => v.pyEq canonical then
        let newVal := removeFirst canonical vals
        -- If anything left, add back
        if newVal.isEmpty then .ok (response.erase "krbprincipalname")
        else .ok (response.insert "krbprincipalname" (.list newVal))
      else .error .valueError

/-- `ServiceIPAClient.munge_response`. -/
def serviceMungeResponse (m : AnsibleModule) (response : Dict String Val) :
    Except Failure (Dict String Val) := do
  let item ← serviceClass.mungeResponse response
  serviceMungeResponseKrbprincipalname m
    (serviceMungeResponseUsercertificate item)

/-- The reply keys `munge_response_keys` renames start with one of these. -/
def caaclMemberPrefixes : List String :=
  ["memberuser_", "memberhost_", "memberservice_",
   "ipamembercertprofile_", "ipamemberca_"]

def caaclIsMemberKey (key : String) : Bool :=
  caaclMemberPrefixes.any fun start => start.toList.isPrefixOf key.toList

/-- `key.split('_')[1]`. -/
def caaclNewKey (key : String) : String :=
  String.ofList
    (((key.toList.dropWhile (· ≠ '_')).drop 1).takeWhile (· ≠ '_'))

/-- The body of the loop in `munge_response_keys`. -/
def caaclRenameKey (item : Dict String Val) (key : String) :
    Dict String Val :=
  match item.lookup key with
  | some val =>
      if caaclIsMemberKey key then
        (item.erase key).insert (caaclNewKey key) val
      else item
  | none => item

/-- `CAACLIPAClient.munge_response_keys`. -/
def caaclMungeResponseKeys (item : Dict String Val) : Dict String Val :=
  item.keys.foldl caaclRenameKey item

/-- `CertIPAClient.munge_response`. -/
def certMungeResponse (item : Dict String Val) :
    Except Failure (Dict String Val) :=
  match item.lookup "subject" with
  | some subject => do
      let principal ← subjectValToPrincipal subject
      .ok (item.insert "principal" principal)
  | none => .ok item

/-- `munge_response`. -/
def Client.mungeResponse (cl : Client) (m : AnsibleModule)
    (response : Dict String Val) : Except Failure (Dict String Val) :=
  match cl with
  | .user => userMungeResponse response
  | .service => serviceMungeResponse m response
  | .caacl => caaclClass.mungeResponse (caaclMungeResponseKeys response)
  | .cert => certMungeResponse response
  | _ => cl.cls.mungeResponse response

/-- The reply object after `munge_response`, which gets a shallow copy of it:
the user client rewrites the `krbprincipalname` list both share. -/
def Client.responseAfterMunge (cl : Client) (response : Dict String Val) :
    Dict String Val :=
  match cl, userMungeResponseKrbprincipalname response with
  | .user, .ok munged => munged
  | _, _ => response

/-! ## The diff -/

/-- `compute_changes`. -/
def Client.computeChanges (cl : Client) (state : State)
    (change curr : Dict String Val) : Except Failure Changes := do
  let changes ← cl.cls.computeChanges state change curr
  match cl, state with
  -- any time state=absent then it means to remove the whole object
  | .cert, .absent => .ok { changes with scalars := ∅ }
  | _, _ => .ok changes

/-- What `find` leaves in the client object. -/
structure Found where
  canonParams : Dict String Val
  /-- `exists`. -/
  objectExists : Bool
  response : Dict String Val
  responseCleaned : Dict String Val
  diffs : Changes

/-- `find`, on the reply to its request. -/
def Client.find (cl : Client) (m : AnsibleModule) (reply : FindReply) :
    Except Failure Found := do
  let canonParams ← cl.mungeModuleParams m
  let _ ← cl.findRequest m
  let response ← cl.findResult m reply
  let responseCleaned ← cl.mungeResponse m response
  let diffs ← cl.computeChanges m.state canonParams responseCleaned
  .ok {
    canonParams
    objectExists := reply.objectExists
    response := cl.responseAfterMunge response
    responseCleaned
    diffs }

end FreeipaProv
