import FreeipaProv.Lib.Fallible
import FreeipaProv.Value

/-!
# The `parted` module

The module reads what a device reports, decides which commands bring it to
the state of the task, and has `parted` run them as one script.
-/

namespace FreeipaProv.Parted

open Fallible

/-! ## Devices and scripts -/

structure Partition where
  num : ℤ
  flags : List String
  deriving DecidableEq, Repr

/-- What `get_device_info` returns. -/
structure DeviceInfo where
  table : String
  partitions : List Partition
  deriving DecidableEq, Repr

def DeviceInfo.nums (info : DeviceInfo) : List ℤ :=
  info.partitions.map Partition.num

/-- A command of a script, with the arguments the module writes. -/
inductive Command where
  | unit (unit : String)
  | mklabel (label : String)
  | mkpart (partType fsType partStart partEnd : String)
  | name (number : Option ℤ) (name : String)
  | set (number : Option ℤ) (flag : String) (on : Bool)
  | rm (number : Option ℤ)
  | print (unit : String)
  deriving DecidableEq, Repr

/-- `"%s" % number`. -/
def numberText (number : Option ℤ) : String :=
  (number.map toString).getD "None"

def Command.text : Command → String
  | .unit default => "unit " ++ default ++ " "
  | .mklabel label => "mklabel " ++ label ++ " "
  | .mkpart partType fsType partStart partEnd =>
      "mkpart " ++ partType ++ " " ++ fsType ++ " " ++ partStart ++ " " ++
        partEnd ++ " "
  | .name number given => "name " ++ numberText number ++ " " ++ given ++ " "
  | .set number flag on =>
      "set " ++ numberText number ++ " " ++ flag ++
        (if on then " on " else " off ")
  | .rm number => "rm " ++ numberText number ++ " "
  | .print default => "unit '" ++ default ++ "' print "

def scriptText (script : List Command) : String :=
  String.join (script.map Command.text)

/-- `str.strip`. -/
def strip (text : String) : String :=
  String.ofList ((text.toList.dropWhile Char.isWhitespace).reverse.dropWhile
    Char.isWhitespace).reverse

/-! ## Parameters -/

inductive PartState where
  | present
  | absent
  | info
  deriving DecidableEq, Repr

def partedUnits : List String :=
  ["B", "KB", "MB", "GB", "TB"] ++ ["B", "KiB", "MiB", "GiB", "TiB"] ++
    ["s", "%", "cyl", "chs", "compact"]

def alignChoices : List String := ["none", "cylinder", "minimal", "optimal"]

def labelChoices : List String :=
  ["aix", "amiga", "bsd", "dvh", "gpt", "loop", "mac", "msdos", "pc98", "sun",
    ""]

def partTypeChoices : List String := ["primary", "extended", "logical"]

def fsTypeChoices : List String :=
  ["ext4", "fat16", "fat32", "ext2", "HFS", "linux-swap", "NTFS", "reiserfs",
    "ufs"]

/-- The parameters, with the choices the argument spec allows. -/
structure Params where
  device : String
  align : String := "optimal"
  number : Option ℤ := none
  unit : String := "KiB"
  label : Option String := none
  partType : Option String := none
  fsType : Option String := none
  partStart : String := "0%"
  partEnd : String := "100%"
  name : Option String := none
  flags : Option (List String) := none
  state : PartState := .info
  align_mem : align ∈ alignChoices := by decide
  unit_mem : unit ∈ partedUnits := by decide
  label_mem : ∀ l ∈ label, l ∈ labelChoices := by decide
  partType_mem : ∀ t ∈ partType, t ∈ partTypeChoices := by decide
  fsType_mem : ∀ t ∈ fsType, t ∈ fsTypeChoices := by decide

/-- A text that `if` takes. -/
def truthyText (text : Option String) : Option String :=
  text.filter (· ≠ "")

/-! ### Conditioning -/

/-- `\w` on ASCII text, and `%`. -/
def isUnitChar (c : Char) : Bool :=
  c.isAlphanum || c = '_' || c = '%'

/-- `float` takes a text of digits and dots. -/
def isFloat (text : List Char) : Bool :=
  text.any Char.isDigit && text.count '.' ≤ 1

/-- The `<cylinder>,<head>,<sector>` format. -/
def isChs (text : List Char) : Bool :=
  match text.splitOn ',' with
  | [cylinder, head, sector] =>
      [cylinder, head, sector].all fun part =>
        part ≠ [] && part.all Char.isDigit
  | _ => false

/-- The unit `parse_unit` returns. -/
def parseUnit (size : String) : Except Failure String :=
  -- `$` also matches before a newline at the end
  let text := if size.toList.getLast? = some '\n' then size.toList.dropLast
    else size.toList
  let number := text.takeWhile fun c => c.isDigit || c = '.'
  let unit := text.dropWhile fun c => c.isDigit || c = '.'
  if number ≠ [] && unit.all isUnitChar then
    if isFloat number then .ok (String.ofList unit) else .error .valueError
  else if isChs text then .ok "chs"
  else .error (.failJson
    ("Error interpreting parted size output: '" ++ size ++ "'"))

/-- `check_size_format`. -/
def checkSizeFormat (size : String) : Except Failure Bool := do
  let unit ← parseUnit size
  .ok (unit ∈ partedUnits)

def checkSize (argument size : String) : Except Failure Unit := do
  if ← checkSizeFormat size then .ok ()
  else .error (.failJson ("The argument '" ++ argument ++
    "' doesn't respect required format.The size unit is case sensitive."))

def Params.condition (p : Params) : Except Failure Unit := do
  if p.number.any (· < 0) then
    .error (.failJson "The partition number must be non negative.")
  else
    checkSize "part_start" p.partStart
    checkSize "part_end" p.partEnd

/-! ## Which commands are needed -/

/-- `part_exists(partitions, 'num', number)`. -/
def partExists (partitions : List Partition) (number : Option ℤ) : Bool :=
  partitions.any fun part => part.num ≠ 0 && some part.num = number

namespace Params

variable (p : Params)

/-- `label` after its default. -/
def labelOrDefault (info : DeviceInfo) : Option String :=
  if info.table = "" ∨ info.table = "unknown" ∧ truthyText p.label = none then
    some "msdos"
  else p.label

/-- Assign label if required. -/
def labelScript (info : DeviceInfo) : List Command :=
  match truthyText (p.labelOrDefault info) with
  | some label => [.mklabel label]
  | none => []

/-- Create partition if required. -/
def mkpartScript (info : DeviceInfo) : List Command :=
  match truthyText p.partType with
  | some partType =>
      if partExists info.partitions p.number then []
      else [.mkpart partType (p.fsType.getD "") p.partStart p.partEnd]
  | none => []

/-- Set the unit of the run. -/
def withUnit (script : List Command) : List Command :=
  if p.unit ≠ "" ∧ script ≠ [] then .unit p.unit :: script else script

/-- The first script of state `present`. -/
def createScript (info : DeviceInfo) : List Command :=
  p.withUnit (p.labelScript info ++ p.mkpartScript info)

def nameScript : List Command :=
  match truthyText p.name with
  | some name => [.name p.number name]
  | none => []

/-- Only the changes in flags status. -/
def flagsScript (current : List String) : List Command :=
  match p.flags with
  | none | some [] => []
  | some flags =>
      (flags.dedup.filter (· ∉ current)).map (.set p.number · true) ++
        (current.dedup.filter (· ∉ flags)).map (.set p.number · false)

/-- The flags of the partition, none in check mode. -/
def currentFlags (checkMode : Bool) (info : DeviceInfo) : List String :=
  if checkMode then []
  else ((info.partitions.find? fun part => some part.num = p.number).map
    Partition.flags).getD []

/-- The second script of state `present`. -/
def adjustScript (checkMode : Bool) (info : DeviceInfo) : List Command :=
  if partExists info.partitions p.number || checkMode then
    p.withUnit (p.nameScript ++ p.flagsScript (p.currentFlags checkMode info))
  else []

/-- The script of state `absent`. -/
def removeScript (checkMode : Bool) (info : DeviceInfo) : List Command :=
  if partExists info.partitions p.number || checkMode then [.rm p.number]
  else []

end Params

/-! ## Running scripts -/

/-- A device as `parted` works on it, with what is assumed of `parted`: a new
label erases all partitions, `mkpart` adds one, and the other commands of
state `present` change neither the table nor the numbers. -/
structure PartedDevice (σ : Type) where
  /-- the path of the executable -/
  partedExec : String
  report : σ → DeviceInfo
  step : String → σ → Command → Except Unit σ
  /-- the number `mkpart` gives a partition of this type -/
  newNumber : σ → String → ℤ
  unit_report : ∀ {align d d' unit},
    step align d (.unit unit) = .ok d' → report d' = report d
  mklabel_report : ∀ {align d d' label},
    step align d (.mklabel label) = .ok d' → report d' = ⟨label, []⟩
  mkpart_report : ∀ {align d d' partType fsType partStart partEnd},
    step align d (.mkpart partType fsType partStart partEnd) = .ok d' →
      0 < newNumber d partType ∧ (report d').table = (report d).table ∧
        (report d').nums.Perm (newNumber d partType :: (report d).nums)
  name_report : ∀ {align d d' number name},
    step align d (.name number name) = .ok d' → report d' = report d
  set_report : ∀ {align d d' number flag on},
    step align d (.set number flag on) = .ok d' →
      (report d').table = (report d).table ∧
        (report d').nums = (report d).nums

section Run

variable {σ : Type} (dev : PartedDevice σ) (checkMode : Bool) (p : Params)

/-- `parted(script, device, align)`. -/
def PartedDevice.parted (d : σ) (script : List Command) : Except Failure σ :=
  if script ≠ [] ∧ checkMode = false then
    match runAll (dev.step p.align) d script with
    | .ok d' => .ok d'
    | .error _ => .error (.failJson ("Error while running parted script: " ++
        strip (dev.partedExec ++ " -s -m -a " ++ p.align ++ " " ++ p.device ++
          " -- " ++ scriptText script)))
  else .ok d

/-- The arguments of `exit_json`: `script` as commands, and the device whose
report makes `disk` and `partitions`. -/
structure Outcome (σ : Type) where
  changed : Bool
  script : List Command
  device : σ

def PartedDevice.present (d : σ) : Except Failure (Outcome σ) := do
  let create := p.createScript (dev.report d)
  let created ← dev.parted checkMode p d create
  let adjust := p.adjustScript checkMode (dev.report created)
  let adjusted ← dev.parted checkMode p created adjust
  .ok {
    changed := create ≠ [] || adjust ≠ []
    script := create ++ adjust
    device := adjusted }

def PartedDevice.absent (d : σ) : Except Failure (Outcome σ) := do
  let script := p.removeScript checkMode (dev.report d)
  let removed ← dev.parted checkMode p d script
  .ok { changed := script ≠ [], script, device := removed }

/-- `main`. -/
def PartedDevice.main (d : σ) : Except Failure (Outcome σ) := do
  p.condition
  match p.state with
  | .present => dev.present checkMode p d
  | .absent => dev.absent checkMode p d
  | .info => .ok { changed := false, script := [.print p.unit], device := d }

end Run

end FreeipaProv.Parted
