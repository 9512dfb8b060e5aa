import FreeipaProv.Schema

/-!
# The eight IPA clients

The class attributes of each `ipa_*` module, as its source declares them.
-/

namespace FreeipaProv

inductive Client where
  | user
  | group
  | service
  | caacl
  | dnszone
  | dnsrecord
  | ca
  | cert
  deriving DecidableEq, Repr

/-- `IPAClient.state_choices`. -/
def baseStateChoices : List State := [.present, .absent, .exact]

/-- `EnablableIPAClient.state_choices`. -/
def enablableStateChoices : List State :=
  [.present, .absent, .exact, .enabled, .disabled]

def userClass : ClientClass where
  name := "user"
  stateChoices := enablableStateChoices
  ownBaseKeys := some
    ["givenname", "sn", "cn", "displayname", "initials", "homedirectory",
     "gecos", "loginshell", "mail", "userpassword", "gidnumber",
     "street", "l", "st", "postalcode",
     "telephonenumber", "mobile", "pager", "fax",
     "orgunit", "title", "manager", "carlicense", "ipasshpubkey",
     "user_auth_type", "category", "radius", "radius_username",
     "departmentnumber", "employeenumber", "employeetype",
     "preferredlanguage"]
  paramKeys := ["uid"]
  enablekey := some "nsaccountlock"
  enablekeySenseInverted := true
  kwArgs := Dict.ofList
    [("uid", { type := .str }),
     -- Base add/mod keys
     ("givenname", { type := .str }),
     ("sn", { type := .str }),
     ("cn", { type := .str }),
     ("displayname", { type := .str }),
     ("initials", { type := .str }),
     ("homedirectory", { type := .str }),
     ("gecos", { type := .str }),
     ("loginshell", { type := .str }),
     ("mail", { type := .list }),
     ("userpassword", { type := .str }),
     ("gidnumber", { type := .int }),
     ("street", { type := .str }),
     ("l", { type := .str }),
     ("st", { type := .str }),
     ("postalcode", { type := .str }),
     ("telephonenumber", { type := .list }),
     ("mobile", { type := .list }),
     ("pager", { type := .list }),
     ("fax", { type := .list }),
     ("orgunit", { type := .str }),
     ("title", { type := .str }),
     ("manager", { type := .str }),
     ("carlicense", { type := .str }),
     ("ipasshpubkey", { type := .str }),
     ("user_auth_type", { type := .str }),
     ("category", { type := .str }),
     ("radius", { type := .str }),
     ("radius_username", { type := .str }),
     ("departmentnumber", { type := .str }),
     ("employeenumber", { type := .str }),
     ("employeetype", { type := .str }),
     ("preferredlanguage", { type := .str }),
     -- enable/disable
     ("nsaccountlock", { type := .bool, default := some (.bool false) }),
     -- add/remove_cert
     ("usercertificate", { type := .list }),
     -- add/remove_principal
     ("krbprincipalname", { type := .list })]

def groupClass : ClientClass where
  name := "group"
  stateChoices := baseStateChoices
  ownBaseKeys := some ["description", "gidnumber", "nonposix", "external"]
  paramKeys := ["cn"]
  enablekey := none
  enablekeySenseInverted := false
  kwArgs := Dict.ofList
    [("cn", { type := .str }),
     ("description", { type := .str }),
     ("gidnumber", { type := .int }),
     ("nonposix", { type := .bool }),
     ("external", { type := .bool }),
     ("member_group", { type := .list }),
     ("member_user", { type := .list })]

def serviceClass : ClientClass where
  name := "service"
  stateChoices := baseStateChoices
  ownBaseKeys := some
    ["krbcanonicalname", "usercertificate", "krbprincipalauthind",
     "ipakrbrequirespreauth", "ipakrbokasdelegate",
     "ipakrboktoauthasdelegate", "krbprincipalname",
     "write_keytab_users", "write_keytab_groups",
     "write_keytab_hosts", "write_keytab_hostgroups",
     "read_keytab_users", "read_keytab_groups",
     "read_keytab_hosts", "read_keytab_hostgroups"]
  paramKeys := ["krbcanonicalname"]
  enablekey := none
  enablekeySenseInverted := false
  kwArgs := Dict.ofList
    [("krbcanonicalname", { type := .str }),
     ("usercertificate", { type := .str }),
     ("krbprincipalauthind", { type := .str }),
     ("ipakrbrequirespreauth", { type := .bool, default := some (.bool true) }),
     ("ipakrbokasdelegate", { type := .bool, default := some (.bool false) }),
     ("ipakrboktoauthasdelegate",
       { type := .bool, default := some (.bool false) }),
     -- ipa service-add-principal CANONICAL-PRINCIPAL PRINCIPAL...
     ("krbprincipalname", { type := .list }),
     -- ipa service-add-host/service-remove-host
     ("managedby_host", { type := .list }),
     -- ipa service-(dis)allow-create-keytab users/groups/hosts/hostgroups
     ("ipaallowedtoperform_write_keys_user", { type := .list }),
     ("ipaallowedtoperform_write_keys_group", { type := .list }),
     ("ipaallowedtoperform_write_keys_host", { type := .list }),
     ("ipaallowedtoperform_write_keys_hostgroup", { type := .list }),
     -- ipa service-(dis)allow-read-keytab users/groups/hosts/hostgroups
     ("ipaallowedtoperform_read_keys_user", { type := .list }),
     ("ipaallowedtoperform_read_keys_group", { type := .list }),
     ("ipaallowedtoperform_read_keys_host", { type := .list }),
     ("ipaallowedtoperform_read_keys_hostgroup", { type := .list })]

def caaclClass : ClientClass where
  name := "caacl"
  stateChoices := enablableStateChoices
  -- Only description may be modified from the base caacl_mod method
  ownBaseKeys := some ["description"]
  paramKeys := ["cn"]
  enablekey := some "ipaenabledflag"
  enablekeySenseInverted := false
  kwArgs := Dict.ofList
    [("cn", { type := .str }),
     ("description", { type := .str }),
     ("ipaenabledflag", { type := .bool }),
     ("user", { type := .list }),
     ("group", { type := .list }),
     ("host", { type := .list }),
     ("hostgroup", { type := .list }),
     ("service", { type := .list }),
     ("certprofile", { type := .list }),
     ("ca", { type := .list })]

def dnszoneClass : ClientClass where
  name := "dnszone"
  stateChoices := enablableStateChoices
  ownBaseKeys := none
  paramKeys := ["idnsname"]
  enablekey := some "idnszoneactive"
  enablekeySenseInverted := false
  kwArgs := Dict.ofList
    [("idnsname", { type := .str }),
     ("idnssoarname", { type := .str }),
     ("idnssoamname", { type := .str }),
     ("idnszoneactive", { type := .bool }),
     ("idnssoaserial", { type := .str }),
     ("idnssoarefresh", { type := .str }),
     ("idnssoaretry", { type := .str }),
     ("idnssoaexpire", { type := .str }),
     ("idnssoaminimum", { type := .str }),
     ("idnsallowquery", { type := .str }),
     ("idnsallowtransfer", { type := .str }),
     ("idnsallowdynupdate", { type := .bool }),
     ("idnsupdatepolicy", { type := .str }),
     ("nsrecord", { type := .list })]

def dnsrecordClass : ClientClass where
  name := "dnsrecord"
  stateChoices := baseStateChoices
  ownBaseKeys := none
  paramKeys := ["idnsname", "zone"]
  enablekey := none
  enablekeySenseInverted := false
  kwArgs := Dict.ofList
    [("zone", { type := .str }),
     ("idnsname", { type := .str }),
     ("arecord", { type := .list }),
     ("aaaarecord", { type := .list }),
     ("a6record", { type := .list }),
     ("afsdbrecord", { type := .list }),
     ("cnamerecord", { type := .list }),
     ("certrecord", { type := .list }),
     ("dlvrecord", { type := .list }),
     ("dnamerecord", { type := .list }),
     ("dsrecord", { type := .list }),
     ("ksrecord", { type := .list }),
     ("locrecord", { type := .list }),
     ("mxrecord", { type := .list }),
     ("naptrrecord", { type := .list }),
     ("nsrecord", { type := .list }),
     ("ptrrecord", { type := .list }),
     ("srvrecord", { type := .list }),
     ("sshfprecord", { type := .list }),
     ("tlsarecord", { type := .list }),
     ("txtrecord", { type := .list })]

def caClass : ClientClass where
  name := "ca"
  stateChoices := baseStateChoices
  ownBaseKeys := none
  paramKeys := ["cn"]
  enablekey := none
  enablekeySenseInverted := false
  kwArgs := Dict.ofList
    [("cn", { type := .str }),
     ("ipacasubjectdn", { type := .str }),
     ("description", { type := .str })]

def certClass : ClientClass where
  name := "cert"
  stateChoices := baseStateChoices
  ownBaseKeys := none
  paramKeys := ["serial_number", "req"]
  enablekey := none
  enablekeySenseInverted := false
  kwArgs := Dict.ofList
    [("principal", { type := .str }),
     ("cacn", { type := .str, default := some (.str "ipa") }),
     -- "request" params
     ("req", { type := .str }),
     -- "revoke" params
     ("serial_number", { type := .str }),
     ("revocation_reason", { type := .int })]

def Client.cls : Client → ClientClass
  | .user => userClass
  | .group => groupClass
  | .service => serviceClass
  | .caacl => caaclClass
  | .dnszone => dnszoneClass
  | .dnsrecord => dnsrecordClass
  | .ca => caClass
  | .cert => certClass

/-- The roles a client maps to API methods in `methods`. -/
inductive MethodRole where
  | add
  | rem
  | mod
  | find
  | enabled
  | disabled
  deriving DecidableEq, Repr

/-- `self._methods[role]`: the pattern of the role, filled with the class
name. -/
def Client.method (cl : Client) (role : MethodRole) : String :=
  match cl, role with
  -- cert_request/cert_revoke instead of cert_add/cert_del
  | .cert, .add => cl.cls.name ++ "_request"
  | .cert, .mod => cl.cls.name ++ "_request"
  | .cert, .rem => cl.cls.name ++ "_revoke"
  | _, .add => cl.cls.name ++ "_add"
  | _, .rem => cl.cls.name ++ "_del"
  | _, .mod => cl.cls.name ++ "_mod"
  | _, .find => cl.cls.name ++ "_find"
  | _, .enabled => cl.cls.name ++ "_enable"
  | _, .disabled => cl.cls.name ++ "_disable"

end FreeipaProv
