import FreeipaProv.Find

/-!
# Queueing and processing requests

After `find`, each change function of the client may queue requests; then
`process_queue` posts them in order, or in check mode only pretends to.
-/

namespace FreeipaProv

open Fallible

/-- An entry of `self.requests` after the find entry. -/
structure QueueEntry where
  name : String
  request : Request

/-- `self.requests[1:]` and `self.changed`, as the change functions leave
them. -/
structure Queue where
  entries : List QueueEntry
  changed : Bool

def Queue.initial : Queue := ⟨[], false⟩

def Queue.push (q : Queue) (entry : QueueEntry) : Queue :=
  { q with entries := q.entries ++ [entry] }

/-- `_fail(msg, e)` for a string `e`. -/
def fail (msg e : String) : Failure :=
  if "message".toList <:+: e.toList then .attributeError
  else .failJson (msg ++ ": " ++ e)

/-! ## Request names -/

/-- `IPAClient.mod_request_params`. -/
def ClientClass.modRequestParams (cls : ClientClass) (m : AnsibleModule) :
    List Val :=
  (m.params.items.filter fun param =>
    (cls.paramType param.1).isSome ∧ param.1 ∈ cls.paramKeys).map Prod.snd

/-- `DNSRecordIPAClient.mod_request_params`. -/
def dnsrecordModRequestParams (m : AnsibleModule) :
    Except Failure (List Val) := do
  let cleanedParams ← dnsrecordClass.clean m.params
  let zone ← getItem cleanedParams "zone"
  let idnsname ← getItem cleanedParams "idnsname"
  .ok [zone, .dict [("__dns_name__", idnsname)]]

/-- `CertIPAClient.mod_request_params`. -/
def certModRequestParams (m : AnsibleModule) : Except Failure (List Val) :=
  -- cert_request method wants request in PEM format as name
  match m.params.lookup "req" with
  | none => .error
      (fail "req" "Certificate requests must include \"req\" parameter")
  | some req => .ok [req]

/-- `mod_request_params`. -/
def Client.modRequestParams (cl : Client) (m : AnsibleModule) :
    Except Failure (List Val) :=
  match cl with
  | .dnsrecord => dnsrecordModRequestParams m
  | .cert => certModRequestParams m
  | _ => .ok (cl.cls.modRequestParams m)

/-! ## Adding and modifying base parameters -/

/-- The item of an add or mod request before `mod_rewrite_list_changes`. -/
structure BaseItem where
  addattr : Dict String (List Atom)
  delattr : Dict String (List Atom)
  scalars : Dict String Val

def BaseItem.isEmpty (item : BaseItem) : Bool :=
  item.addattr.isEmpty && item.delattr.isEmpty && item.scalars.isEmpty

/-- The diff entries that go to the base request. -/
def Client.baseItem (cl : Client) (diffs : Changes) : BaseItem where
  addattr := diffs.listAdd.filterMap fun k v =>
    if k ∈ cl.cls.baseKeys then some v else none
  delattr := diffs.listDel.filterMap fun k v =>
    if k ∈ cl.cls.baseKeys then some v else none
  scalars := diffs.scalars.filterMap fun k v =>
    if k ∈ cl.cls.baseKeys then some v else none

/-- Turn `key:[val1,val2,...]` dicts into `["key=val1","key=val2",...]`
lists, sorted. -/
def rewriteListChanges (attrs : Dict String (List Atom)) : Val :=
  .list ((pySortedStr (attrs.items.flatMap fun attr =>
    attr.2.map fun v => attr.1 ++ "=" ++ v.pyStr)).map .str)

/-- `IPAClient.mod_rewrite_list_changes`, on the request's item. -/
def modRewriteListChanges (item : BaseItem) : Dict String Val :=
  let rewritten := item.scalars
  let rewritten :=
    if item.addattr.isEmpty then rewritten
    else rewritten.insert "addattr" (rewriteListChanges item.addattr)
  let rewritten :=
    if item.delattr.isEmpty then rewritten
    else rewritten.insert "delattr" (rewriteListChanges item.delattr)
  -- Add all=True to get back object with all attributes in reply
  rewritten.insert "all" (.bool true)

/-- `str(tuple(keys))`. -/
def pyTuple (keys : List String) : String :=
  match keys with
  | [key] => "('" ++ key ++ "',)"
  | _ => "(" ++ ", ".intercalate (keys.map fun key => "'" ++ key ++ "'") ++ ")"

/-- The check of `CAIPAClient.mod_rewrite_list_changes`. -/
def caModRewriteListChanges (request : Request) : Except Failure Request :=
  -- Only applies to ca_mod operation
  if request.method ≠ "ca_mod" then .ok request
  else
    let keys := request.item.keys.filter fun key =>
      key ≠ "all" ∧ key ≠ "description"
    if 0 < keys.length then
      .error (fail (pyTuple keys)
        "Unable to modify CA parameters other than description")
    else .ok request

/-- `is_absent`. -/
def Found.isAbsent (found : Found) : Bool :=
  found.responseCleaned.isEmpty

/-- The request `add_or_mod` constructs. -/
def Client.baseRequest (cl : Client) (m : AnsibleModule) (found : Found) :
    Except Failure Request := do
  let name ← cl.modRequestParams m
  let request : Request := {
    method := if found.isAbsent then cl.method .add else cl.method .mod
    name
    item := modRewriteListChanges (cl.baseItem found.diffs) }
  match cl with
  | .ca => caModRewriteListChanges request
  | _ => .ok request

/-- `add_or_mod`. -/
def Client.addOrMod (cl : Client) (m : AnsibleModule) (found : Found)
    (q : Queue) : Except Failure Queue :=
  -- Do nothing if item already exists and no changes
  if (cl.baseItem found.diffs).isEmpty && found.objectExists then .ok q
  else do
    let request ← cl.baseRequest m found
    .ok (q.push { name := "add_or_mod", request })

/-! ## Removing the object -/

/-- `is_rem_param_request`: whether 'absent' means absent attributes. -/
def Client.isRemParamRequest (cl : Client) (found : Found) : Bool :=
  match cl with
  | .cert => false
  | _ => !found.canonParams.isEmpty

/-- `rem_request_params`. -/
def Client.remRequestParams (cl : Client) (m : AnsibleModule)
    (found : Found) : Except Failure (List Val) :=
  match cl with
  | .cert => do
      let serialNumber ← getItem found.responseCleaned "serial_number"
      .ok [serialNumber]
  | _ => cl.modRequestParams m

/-- `CertIPAClient.rem_request_item`. -/
def certRemRequestItem (found : Found) : Except Failure (Dict String Val) :=
  match found.canonParams.lookup "revocation_reason" with
  | none => .error
      (fail "revoke certificate" "revocation_reason parameter required")
  | some reason => do
      let cacn ← getItem found.responseCleaned "cacn"
      .ok (((∅ : Dict String Val).insert "cacn" cacn).insert
        "revocation_reason" reason)

/-- `rem_request_item`, after `rem_request_cleanup`. -/
def Client.remRequestItem (cl : Client) (found : Found) :
    Except Failure (Dict String Val) :=
  match cl with
  | .cert => certRemRequestItem found
  | .dnsrecord => .ok ((∅ : Dict String Val).insert "del_all" (.bool true))
  | _ => .ok ∅

/-- `rem`, with the signal whether the queue is done. -/
def Client.rem (cl : Client) (m : AnsibleModule) (found : Found)
    (q : Queue) : Except Failure (Queue × Bool) :=
  -- Not removing object; signal to continue
  if m.state ≠ .absent then .ok (q, false)
  -- state='absent' means remove params, not remove object
  else if cl.isRemParamRequest found then .ok (q, false)
  -- Object is already absent; signal done
  else if found.isAbsent then .ok (q, true)
  -- In check mode, do nothing; signal done
  else if m.checkMode then .ok (q, true)
  else do
    let name ← cl.remRequestParams m found
    let item ← cl.remRequestItem found
    .ok (q.push {
      name := "rem"
      request := { method := cl.method .rem, name, item } }, true)

/-! ## Enabling and disabling -/

/-- `enable_or_disable`. -/
def Client.enableOrDisable (cl : Client) (m : AnsibleModule) (found : Found)
    (q : Queue) : Except Failure Queue :=
  match cl.cls.enablekey.bind found.diffs.scalars.lookup with
  -- Do nothing if enablekey is not in diffs
  | none => .ok q
  | some flag =>
      -- Do nothing if object is being created (enabled by default)
      -- or not in enable/disable state
      if found.isAbsent || !(m.state = .enabled || m.state = .disabled) then
        .ok q
      -- Do nothing in check mode
      else if m.checkMode then .ok q
      else do
        let enable := flag.truthy != cl.cls.enablekeySenseInverted
        let name ← cl.modRequestParams m
        .ok (q.push {
          name := "enable_or_disable"
          request := {
            method :=
              if enable then cl.method .enabled else cl.method .disabled
            name
            item := ∅ } })

/-! ## Dedicated add and remove methods -/

/-- `list_add` or `list_del`. -/
inductive Side where
  | add
  | del
  deriving DecidableEq, Repr

def Changes.side (diffs : Changes) : Side → Dict String (List Atom)
  | .add => diffs.listAdd
  | .del => diffs.listDel

/-- How the values of an attribute are put into a request. -/
inductive Encoding where
  /-- the values as they are -/
  | plain
  /-- the values sorted -/
  | sorted
  /-- each value as a dictionary with key `__base64__` -/
  | base64
  /-- the list of values as one more request name -/
  | extraName
  deriving DecidableEq, Repr

/-- A request with a method of its own, for some list attributes on one side
of the diff.  `args` pairs the request's argument with the attribute. -/
structure Route where
  side : Side
  entryName : String
  method : String
  encoding : Encoding
  args : List (String × String)
  deriving DecidableEq, Repr

/-- The arguments with something to change. -/
def Route.changedArgs (route : Route) (diffs : Changes) :
    List (String × List Atom) :=
  route.args.filterMap fun arg =>
    ((diffs.side route.side).lookup arg.2).map fun vals => (arg.1, vals)

def Encoding.encode : Encoding → List Atom → Val
  | .sorted, vals => .list ((pySorted vals).map .atom)
  | .base64, vals => .list (vals.map fun c => .dict [("__base64__", .atom c)])
  | _, vals => .list (vals.map .atom)

/-- The request of a route. -/
def Route.request (route : Route) (name : List Val) (diffs : Changes) :
    Request :=
  let changed := route.changedArgs diffs
  match route.encoding with
  | .extraName => {
      method := route.method
      name := name ++ changed.map fun arg => Encoding.plain.encode arg.2
      item := (∅ : Dict String Val).insert "all" (.bool true) }
  | encoding => {
      method := route.method
      name
      item := (Dict.ofKeys (changed.map Prod.fst) fun arg =>
        (changed.lookup arg).map encoding.encode).insert "all" (.bool true) }

/-- One turn of the loop the handlers of dedicated methods share.  `marks`
says whether the handler sets `self.changed` before it looks at check
mode. -/
def Client.runRoute (cl : Client) (m : AnsibleModule) (found : Found)
    (marks : Bool) (q : Queue) (route : Route) : Except Failure Queue :=
  -- If no changes needed, do nothing
  if (route.changedArgs found.diffs).isEmpty then .ok q
  else
    let q := if marks then { q with changed := true } else q
    -- If in check mode, do nothing
    if m.checkMode then .ok q
    else do
      let name ← cl.modRequestParams m
      .ok (q.push {
        name := route.entryName
        request := route.request name found.diffs })

def Client.runRoutes (cl : Client) (m : AnsibleModule) (found : Found)
    (marks : Bool) (routes : List Route) (q : Queue) : Except Failure Queue :=
  routes.foldlM (cl.runRoute m found marks) q

/-- The routes of `UserIPAClient.handle_cert`. -/
def certRoutes : List Route :=
  [{ side := .add, entryName := "user_add_cert", method := "user_add_cert"
     encoding := .base64, args := [("usercertificate", "usercertificate")] },
   { side := .del, entryName := "user_remove_cert"
     method := "user_remove_cert"
     encoding := .base64, args := [("usercertificate", "usercertificate")] }]

/-- `UserIPAClient.handle_cert`. -/
def Client.handleCert (cl : Client) (m : AnsibleModule) (found : Found)
    (q : Queue) : Except Failure Queue :=
  cl.runRoutes m found true certRoutes q

/-- The routes of `UserIPAClient.handle_principal`. -/
def principalRoutes : List Route :=
  [{ side := .add, entryName := "user_add_principal"
     method := "user_add_principal"
     encoding := .extraName, args := [("principal", "krbprincipalname")] },
   { side := .del, entryName := "user_remove_principal"
     method := "user_remove_principal"
     encoding := .extraName, args := [("principal", "krbprincipalname")] }]

/-- `UserIPAClient.handle_principal`. -/
def Client.handlePrincipal (cl : Client) (m : AnsibleModule) (found : Found)
    (q : Queue) : Except Failure Queue :=
  cl.runRoutes m found false principalRoutes q

/-- The routes of `GroupIPAClient.handle_members`. -/
def memberRoutes : List Route :=
  [{ side := .add, entryName := "group_add_member"
     method := "group_add_member", encoding := .plain
     args := [("user", "member_user"), ("group", "member_group")] },
   { side := .del, entryName := "group_remove_member"
     method := "group_remove_member", encoding := .plain
     args := [("user", "member_user"), ("group", "member_group")] }]

/-- `GroupIPAClient.handle_members`. -/
def Client.handleMembers (cl : Client) (m : AnsibleModule) (found : Found)
    (q : Queue) : Except Failure Queue :=
  cl.runRoutes m found true memberRoutes q

/-- The routes of `ServiceIPAClient.handle_managedby_host`. -/
def managedbyHostRoutes : List Route :=
  [{ side := .add, entryName := "service_add_host"
     method := "service_add_host"
     encoding := .plain, args := [("host", "managedby_host")] },
   { side := .del, entryName := "service_remove_host"
     method := "service_remove_host"
     encoding := .plain, args := [("host", "managedby_host")] }]

/-- `ServiceIPAClient.handle_managedby_host`. -/
def Client.handleManagedbyHost (cl : Client) (m : AnsibleModule)
    (found : Found) (q : Queue) : Except Failure Queue :=
  cl.runRoutes m found false managedbyHostRoutes q

/-- The arguments of the keytab methods for reading or writing. -/
def keytabArgs (rw : String) : List (String × String) :=
  ["user", "group", "host", "hostgroup"].map fun objtype =>
    (objtype, "ipaallowedtoperform_" ++ rw ++ "_keys_" ++ objtype)

/-- The routes of `ServiceIPAClient.handle_allow_keytab`. -/
def keytabRoutes : List Route :=
  [{ side := .add, entryName := "service_allow_create_keytab"
     method := "service_allow_create_keytab"
     encoding := .plain, args := keytabArgs "write" },
   { side := .del, entryName := "service_disallow_create_keytab"
     method := "service_disallow_create_keytab"
     encoding := .plain, args := keytabArgs "write" },
   { side := .add, entryName := "service_allow_retrieve_keytab"
     method := "service_allow_retrieve_keytab"
     encoding := .plain, args := keytabArgs "read" },
   { side := .del, entryName := "service_disallow_retrieve_keytab"
     method := "service_disallow_retrieve_keytab"
     encoding := .plain, args := keytabArgs "read" }]

/-- `ServiceIPAClient.handle_allow_keytab`. -/
def Client.handleAllowKeytab (cl : Client) (m : AnsibleModule)
    (found : Found) (q : Queue) : Except Failure Queue :=
  cl.runRoutes m found false keytabRoutes q

/-- The methods and attributes of `CAACLIPAClient.add_remove_list_items` on
one side. -/
def caaclRoutesOf (side : Side) (methodOp : String) : List Route :=
  [("user", ["user", "group"]),
   ("host", ["host", "hostgroup"]),
   ("profile", ["certprofile"]),
   ("ca", ["ca"]),
   ("service", ["service"])].map fun methodItem => {
      side
      entryName := methodOp ++ "_" ++ methodItem.1
      method := "caacl_" ++ methodOp ++ "_" ++ methodItem.1
      encoding := .sorted
      args := methodItem.2.map fun attr => (attr, attr) }

/-- The routes of `CAACLIPAClient.add_remove_list_items`. -/
def caaclRoutes : List Route :=
  caaclRoutesOf .add "add" ++ caaclRoutesOf .del "remove"

/-- `CAACLIPAClient.add_remove_list_items`. -/
def Client.addRemoveListItems (cl : Client) (m : AnsibleModule)
    (found : Found) (q : Queue) : Except Failure Queue :=
  cl.runRoutes m found true caaclRoutes q

/-! ## The queue -/

/-- The members of `change_functions`. -/
inductive ChangeFunction where
  | rem
  | addOrMod
  | enableOrDisable
  | handleCert
  | handlePrincipal
  | handleMembers
  | handleManagedbyHost
  | handleAllowKeytab
  | addRemoveListItems
  deriving DecidableEq, Repr

/-- `change_functions`. -/
def Client.changeFunctions : Client → List ChangeFunction
  | .user =>
      [.rem, .addOrMod, .enableOrDisable, .handleCert, .handlePrincipal]
  | .group => [.rem, .addOrMod, .handleMembers]
  | .service => [.rem, .addOrMod, .handleManagedbyHost, .handleAllowKeytab]
  | .caacl => [.rem, .addOrMod, .enableOrDisable, .addRemoveListItems]
  | .dnszone => [.rem, .addOrMod, .enableOrDisable]
  | .dnsrecord | .ca | .cert => [.rem, .addOrMod]

/-- Calling a change function; only `rem` may signal that the queue is
done. -/
def Client.change (cl : Client) (m : AnsibleModule) (found : Found)
    (q : Queue) : ChangeFunction → Except Failure (Queue × Bool)
  | .rem => cl.rem m found q
  | .addOrMod => (cl.addOrMod m found q).map (·, false)
  | .enableOrDisable => (cl.enableOrDisable m found q).map (·, false)
  | .handleCert => (cl.handleCert m found q).map (·, false)
  | .handlePrincipal => (cl.handlePrincipal m found q).map (·, false)
  | .handleMembers => (cl.handleMembers m found q).map (·, false)
  | .handleManagedbyHost => (cl.handleManagedbyHost m found q).map (·, false)
  | .handleAllowKeytab => (cl.handleAllowKeytab m found q).map (·, false)
  | .addRemoveListItems => (cl.addRemoveListItems m found q).map (·, false)

def Client.queueFrom (cl : Client) (m : AnsibleModule) (found : Found) :
    List ChangeFunction → Queue → Except Failure Queue
  | [], q => .ok q
  | func :: funcs, q => do
      let (q, done) ← cl.change m found q func
      -- if it returns True, then stop and don't enqueue any more requests
      if done then .ok q else cl.queueFrom m found funcs q

/-- `queue_requests`. -/
def Client.queueRequests (cl : Client) (m : AnsibleModule) (found : Found) :
    Except Failure Queue :=
  cl.queueFrom m found cl.changeFunctions Queue.initial

/-- The reply to an API request, and the server after it. -/
abbrev Post (σ : Type) := σ → Request → Except Failure (Val × σ)

/-- `process_queue`: the last reply, `self.changed` and the server
afterwards. -/
def processQueue {σ : Type} (m : AnsibleModule) (post : Post σ) :
    List QueueEntry → Val × Bool × σ → Except Failure (Val × Bool × σ)
  | [], run => .ok run
  | entry :: entries, (_, _, server) =>
      if m.checkMode then
        processQueue m post entries (.dict [], true, server)
      else do
        let (response, server) ← post server entry.request
        processQueue m post entries (response, true, server)

/-- `ensure`, on the reply to its find request: the returned object,
`changed`, and the server afterwards. -/
def Client.ensure {σ : Type} (cl : Client) (m : AnsibleModule)
    (reply : FindReply) (post : Post σ) (server : σ) :
    Except Failure (Val × Bool × σ) := do
  let found ← cl.find m reply
  let q ← cl.queueRequests m found
  processQueue m post q.entries
    (.dict found.response.items, q.changed, server)

end FreeipaProv
