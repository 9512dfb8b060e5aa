import FreeipaProv.Lib.Dict
import FreeipaProv.Value

/-!
# Client classes and canonical items

A client class declares its parameters (`kw_args`), the ones among them that
name the object (`param_keys`) and the ones its add and mod requests carry
(`base_keys`).  Module parameters and find replies are brought into one
canonical form by `clean`, so that they can be compared attribute by
attribute.
-/

namespace FreeipaProv

/-- The `state` parameter. -/
inductive State where
  | present
  | absent
  | exact
  | enabled
  | disabled
  deriving DecidableEq, Repr

theorem State.ne_absent {state : State}
    (hstate : state = .present ∨ state = .exact) : state ≠ .absent := by
  rcases hstate with rfl | rfl <;> simp

inductive ParamType where
  | str
  | int
  | bool
  | list
  deriving DecidableEq, Repr

/-- The part of a parameter's declaration the clients read. -/
structure ArgSpec where
  type : ParamType
  default : Option Val := none

/-- The class attributes of `IPAClient` and its subclasses. -/
structure ClientClass where
  name : String
  stateChoices : List State
  /-- `base_keys`, where the class sets it itself. -/
  ownBaseKeys : Option (List String)
  paramKeys : List String
  enablekey : Option String
  enablekeySenseInverted : Bool
  kwArgs : Dict String ArgSpec

/-- A parsed task: `self.module`, with its `state` parameter read off. -/
structure AnsibleModule where
  params : Dict String Val
  state : State
  checkMode : Bool

/-- `init_standard_params`. -/
def standardParams : Dict String ArgSpec := Dict.ofList
  [("state", { type := .str, default := some (.str "present") }),
   ("ipa_prot", { type := .str, default := some (.str "https") }),
   ("ipa_host", { type := .str, default := some (.str "ipa.example.com") }),
   ("ipa_port", { type := .int, default := some (.int 443) }),
   ("ipa_user", { type := .str, default := some (.str "admin") }),
   ("ipa_pass", { type := .str }),
   ("validate_certs", { type := .bool, default := some (.bool true) })]

namespace ClientClass

/-- `argument_spec`, with the declared parameters over the standard ones. -/
def argumentSpec (cls : ClientClass) : Dict String ArgSpec :=
  cls.kwArgs ∪ standardParams

/-- `param_data[key]['type']`, for a declared parameter. -/
def paramType (cls : ClientClass) (key : String) : Option ParamType :=
  (cls.kwArgs.lookup key).map ArgSpec.type

/-- `base_keys` after `init_kw_args`: generated from the declarations where
the class does not set it, and then without the enable flag. -/
def baseKeys (cls : ClientClass) : List String :=
  match cls.ownBaseKeys with
  | some keys => keys
  | none => cls.kwArgs.keys.filter fun key =>
      key ∉ cls.paramKeys ∧ some key ≠ cls.enablekey

end ClientClass

/-- A task as written: the parameters it gives, its state, and whether it is
run in check mode. -/
structure Task where
  given : Dict String Val
  state : State
  checkMode : Bool := false

/-- The module `AnsibleModule` makes of a task: a parameter the task does not
give has its declared default, or `None`. -/
def ClientClass.ansibleModule (cls : ClientClass) (t : Task) :
    AnsibleModule where
  params := t.given ∪ cls.argumentSpec.filterMap fun _ spec =>
    some (spec.default.getD .none)
  state := t.state
  checkMode := t.checkMode

/-! ## Cleaning -/

/-- Ensure list attributes are actually in lists: list module params may be
specified as strings. -/
def wrapList : Val → List Val
  | .list vs => vs
  | v => [v]

/-- Ensure non-list attributes are not in lists: API replies wrap scalars in
lists. -/
def unwrapScalar : Val → Except Failure Val
  | .list [] => .error .indexError
  | .list (v :: _) => .ok v
  | v => .ok v

/-- Ignore empty values, convert 'TRUE' and 'FALSE' strings to booleans and
strings to integers. -/
def convertScalar (type : ParamType) (val : Val) :
    Except Failure (Option Val) :=
  match type, val with
  | _, .none => .ok none
  | .bool, .str s =>
      if pyLower s = "true" then .ok (some (.bool true))
      else if pyLower s = "false" then .ok (some (.bool false))
      else .ok (some (.str s))
  | .int, .str s => (pyInt s).map fun i => some (.int i)
  | _, v => .ok (some v)

/-- The body of the loop in `clean`, for a parameter of the given type;
`none` when the value is ignored. -/
def cleanValue (type : ParamType) (val : Val) : Except Failure (Option Val) :=
  match type with
  | .list =>
      match wrapList val with
      | [] => .ok none
      | .none :: _ => .ok none
      | vals => .ok (some (.list vals))
  | type => do
      let val ← unwrapScalar val
      convertScalar type val

namespace ClientClass

variable (cls : ClientClass)

/-- `clean`. -/
def clean (dirty : Dict String Val) : Except Failure (Dict String Val) :=
  dirty.traverse fun key val =>
    match cls.paramType key with
    | none => .ok none
    | some type => cleanValue type val

/-- `munge_pop_request_keys`. -/
def mungePopRequestKeys (item : Dict String Val) : Dict String Val :=
  item.filterMap fun key val => if key ∈ cls.paramKeys then none else some val

/-- `munge_state_exact_add_defaults`. -/
def mungeStateExactAddDefaults (state : State) (item : Dict String Val) :
    Dict String Val :=
  if state = .exact then
    item ∪ cls.argumentSpec.filterMap fun _ spec => spec.default
  else item

/-- `IPAClient.munge_module_params`. -/
def mungeModuleParams (m : AnsibleModule) :
    Except Failure (Dict String Val) := do
  let item ← cls.clean m.params
  let item := cls.mungePopRequestKeys item
  .ok (cls.mungeStateExactAddDefaults m.state item)

/-- `IPAClient.munge_response`. -/
def mungeResponse (response : Dict String Val) :
    Except Failure (Dict String Val) := do
  let item ← cls.clean response
  .ok (cls.mungePopRequestKeys item)

end ClientClass

end FreeipaProv
