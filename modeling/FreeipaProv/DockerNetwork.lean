import FreeipaProv.Lib.Dict
import FreeipaProv.Lib.Fallible
import FreeipaProv.Value

/-!
# The `docker_network` module

The module inspects a network, creates it or replaces it where its
configuration differs, and connects and disconnects containers.  The Docker
client is a parameter.
-/

namespace FreeipaProv.DockerNetwork

open Fallible

/-! ## Networks and tasks -/

/-- `IPAM` of an inspected network. -/
structure Ipam where
  driver : String
  config : List (Dict String Val)

/-- What the module reads of an inspected network, but its containers; an
option that is missing is empty. -/
structure NetConfig where
  driver : String
  options : Dict String Val
  ipam : Option Ipam
  enableIPv6 : Bool

/-- An inspected network, with the names of the containers in it. -/
structure Network where
  config : NetConfig
  containers : List String

inductive NetState where
  | present
  | absent
  deriving DecidableEq, Repr

/-- The parameters. -/
structure Task where
  networkName : String
  connected : List String := []
  state : NetState := .present
  driver : String := "bridge"
  driverOptions : Dict String Val := ∅
  force : Bool := false
  appends : Bool := false
  ipamDriver : Option String := none
  ipamOptions : Dict String Val := ∅
  ipv6 : Bool := false
  debug : Bool := false

/-- How `AnsibleModule` runs the module. -/
structure Mode where
  checkMode : Bool := false
  diff : Bool := false

/-- The arguments of `create_network`, but the name. -/
structure CreateArgs where
  driver : String
  options : Dict String Val
  ipamDriver : Option String
  ipamPools : List (Dict String Val)
  enableIPv6 : Bool

/-- The Docker client. -/
structure Docker (σ : Type) where
  networksByName : σ → String → List Network
  networksById : σ → String → List Network
  inspectNetwork : σ → String → Except Failure Network
  /-- `IPAMPool`, which takes certain options only -/
  ipamPool : Dict String Val → Except Failure (Dict String Val)
  /-- the id of the new network, and the server afterwards -/
  createNetwork : σ → String → CreateArgs → Except Failure (String × σ)
  removeNetwork : σ → String → Except Failure σ
  connectContainer : σ → String → String → Except Failure σ
  disconnectContainer : σ → String → String → Except Failure σ

/-! ## Comparing the configuration -/

def containerNamesInNetwork : Option Network → Except Failure (List String)
  | some network => .ok network.containers
  | none => .error .typeError

section Different

variable (t : Task) (net : NetConfig)

def driverDifferences : List String :=
  if t.driver ≠ "" ∧ t.driver ≠ net.driver then ["driver"] else []

def driverOptionDifferences : List String :=
  if t.driverOptions.isEmpty then []
  else if net.options.isEmpty then ["driver_options"]
  else t.driverOptions.items.flatMap fun option =>
    match net.options.lookup option.1 with
    | some val =>
        if option.2.pyEq val then [] else ["driver_options." ++ option.1]
    | none => ["driver_options." ++ option.1]

def ipamDriverDifferences : List String :=
  match t.ipamDriver with
  | none | some "" => []
  | some driver =>
      match net.ipam with
      | none => ["ipam_driver"]
      | some ipam => if ipam.driver ≠ driver then ["ipam_driver"] else []

/-- The value under the key that is this one in lower case. -/
def camelValue (config : Dict String Val) (key : String) : Option Val :=
  ((config.items.find? fun entry => pyLower entry.1 = key).map Prod.fst).bind
    fun camelkey => if camelkey = "" then none else config.lookup camelkey

def ipamOptionDifferences : List String :=
  if t.ipamOptions.isEmpty then []
  else
    match net.ipam.map Ipam.config with
    | none | some [] => ["ipam_options"]
    | some (config :: _) =>
        t.ipamOptions.items.flatMap fun option =>
          match camelValue config option.1 with
          | some val =>
              if val.pyEq option.2 then [] else ["ipam_options." ++ option.1]
          | none => ["ipam_options." ++ option.1]

def ipv6Differences : List String :=
  if t.ipv6 ∧ t.ipv6 ≠ net.enableIPv6 then ["ipv6"] else []

/-- `has_different_config`: the differences, of which there is one wherever
the network is different. -/
def differences : List String :=
  driverDifferences t net ++ driverOptionDifferences t net ++
    ipamDriverDifferences t net ++ ipamOptionDifferences t net ++
    ipv6Differences t net

end Different

/-! ## The manager -/

/-- The manager while it works: the server, `self.existing_network`,
`self.parameters.connected` and the results so far. -/
structure Manager (σ : Type) where
  server : σ
  existing : Option Network
  connected : List String
  changed : Bool
  actions : List String

section Manager

variable {σ : Type} (docker : Docker σ) (mode : Mode) (t : Task)

def getExistingNetwork (server : σ) : Option Network :=
  match docker.networksByName server t.networkName with
  -- check if a user is trying to find network by its Id
  | [] => (docker.networksById server t.networkName).head?
  | network :: _ => some network

/-- `__init__`, up to the state. -/
def Manager.init (server : σ) : Manager σ where
  server
  existing := getExistingNetwork docker t server
  connected :=
    match t.connected, getExistingNetwork docker t server with
    | [], some network => network.containers
    | connected, _ => connected
  changed := false
  actions := []

def ipamPools : Except Failure (List (Dict String Val)) :=
  if t.ipamOptions.isEmpty then .ok []
  else (docker.ipamPool t.ipamOptions).map fun pool => [pool]

def createArgs : Except Failure CreateArgs := do
  let ipamPools ← ipamPools docker t
  .ok {
    driver := t.driver
    options := t.driverOptions
    ipamDriver := t.ipamDriver
    ipamPools
    enableIPv6 := t.ipv6 }

/-- Create the network, with what `inspect_network` reports of it. -/
def createdNetwork (args : CreateArgs) (server : σ) :
    Except Failure (Network × σ) := do
  let (id, server) ← docker.createNetwork server t.networkName args
  let network ← docker.inspectNetwork server id
  .ok (network, server)

namespace Manager

def act (m : Manager σ) (server : σ) (action : String) : Manager σ :=
  { m with server, changed := true, actions := m.actions ++ [action] }

/-- Call the server, except in check mode. -/
def unlessCheck (call : σ → Except Failure σ) (server : σ) :
    Except Failure σ :=
  if mode.checkMode then .ok server else call server

def createNetwork (m : Manager σ) : Except Failure (Manager σ) :=
  match m.existing with
  | some _ => .ok m
  | none => do
      let args ← createArgs docker t
      let action := "Created network " ++ t.networkName ++ " with driver " ++
        t.driver
      if mode.checkMode then .ok (m.act m.server action)
      else do
        let (network, server) ← createdNetwork docker t args m.server
        .ok { m.act server action with existing := some network }

def disconnectContainer (m : Manager σ) (name : String) :
    Except Failure (Manager σ) := do
  let server ← unlessCheck mode
    (docker.disconnectContainer · name t.networkName) m.server
  .ok (m.act server ("Disconnected container " ++ name))

def disconnectAllContainers (m : Manager σ) : Except Failure (Manager σ) := do
  let network ← docker.inspectNetwork m.server t.networkName
  runAll (disconnectContainer docker mode t) m network.containers

def removeNetwork (m : Manager σ) : Except Failure (Manager σ) :=
  match m.existing with
  | none => .ok m
  | some _ => do
      let m ← m.disconnectAllContainers docker mode t
      let server ← unlessCheck mode
        (docker.removeNetwork · t.networkName) m.server
      .ok (m.act server ("Removed network " ++ t.networkName))

def connectContainer (m : Manager σ) (name : String) :
    Except Failure (Manager σ) := do
  let names ← containerNamesInNetwork m.existing
  if name ∈ names then .ok m
  else do
    let server ← unlessCheck mode
      (docker.connectContainer · name t.networkName) m.server
    .ok (m.act server ("Connected container " ++ name))

def connectContainers (m : Manager σ) : Except Failure (Manager σ) :=
  runAll (connectContainer docker mode t) m m.connected

def disconnectMissing (m : Manager σ) : Except Failure (Manager σ) :=
  match m.existing with
  | none => .ok m
  | some network =>
      runAll (disconnectContainer docker mode t) m
        (network.containers.filter (· ∉ m.connected))

def disconnectUnlisted (m : Manager σ) : Except Failure (Manager σ) :=
  if t.appends then .ok m else m.disconnectMissing docker mode t

/-- The differences of the network that exists. -/
def differences (m : Manager σ) : List String :=
  (m.existing.map fun network =>
    DockerNetwork.differences t network.config).getD []

/-- Whether the network is to be replaced. -/
def replaces (m : Manager σ) : Bool :=
  t.force || m.differences t ≠ []

def replace (m : Manager σ) : Except Failure (Manager σ) :=
  if m.replaces t then do
    let m ← m.removeNetwork docker mode t
    .ok { m with existing := none }
  else .ok m

end Manager

/-! ## The states -/

/-- What `exit_json` gets, and the server. -/
structure Results (σ : Type) where
  changed : Bool
  actions : Option (List String)
  diff : Option (List String)
  facts : Option (Option Network)
  server : σ

def present (m : Manager σ) : Except Failure (Results σ) := do
  let diff := m.differences t
  let m ← m.replace docker mode t
  let m ← m.createNetwork docker mode t
  let m ← m.connectContainers docker mode t
  let m ← m.disconnectUnlisted docker mode t
  .ok {
    changed := m.changed
    actions := if mode.checkMode || t.debug then some m.actions else none
    diff := if mode.diff || mode.checkMode || t.debug then some diff else none
    facts := some (getExistingNetwork docker t m.server)
    server := m.server }

def absent (m : Manager σ) : Except Failure (Results σ) := do
  let m ← m.removeNetwork docker mode t
  .ok {
    changed := m.changed
    actions := some m.actions
    diff := none
    facts := none
    server := m.server }

/-- `main`. -/
def main (server : σ) : Except Failure (Results σ) :=
  match t.state with
  | .present => present docker mode t (Manager.init docker t server)
  | .absent => absent docker mode t (Manager.init docker t server)

end Manager

end FreeipaProv.DockerNetwork
