import FreeipaProv.Lib.Fields
import FreeipaProv.Parted

/-!
# What `parted` writes

The module runs `parted` and reads its machine-parseable output.  The numbers
of the output are floats, made from decimal numbers by a function that is a
parameter.
-/

namespace FreeipaProv.Parted

open Fallible Fields

/-! ## Sizes -/

inductive Size (F : Type) where
  | number (size : F)
  | chs (cylinder head sector : ℕ)
  deriving DecidableEq, Repr

section Sizes

variable {F : Type} (float : ℚ → F)

/-- The numbers of a `<cylinder>,<head>,<sector>` text. -/
def chsNumbers (text : List Char) : Option (ℕ × ℕ × ℕ) :=
  match text.splitOn ',' with
  | [cylinder, head, sector] =>
      if [cylinder, head, sector].all fun part =>
          part ≠ [] && part.all Char.isDigit then
        some (digitsValue cylinder, digitsValue head, digitsValue sector)
      else none
  | _ => none

/-- `parse_unit(size_str, unit)`. -/
def parseSize (size unit : String) : Except Failure (Size F × String) :=
  -- `$` also matches before a newline at the end
  let text := if size.toList.getLast? = some '\n' then size.toList.dropLast
    else size.toList
  let number := text.takeWhile fun c => c.isDigit || c = '.'
  let given := text.dropWhile fun c => c.isDigit || c = '.'
  if number ≠ [] && given.all isUnitChar then
    if isFloat number then
      .ok (.number (float (decimalValue '.' number)),
        if given = [] then unit else String.ofList given)
    else .error .valueError
  else
    match chsNumbers text with
    | some (cylinder, head, sector) => .ok (.chs cylinder head sector, "chs")
    | none => .error (.failJson
        ("Error interpreting parted size output: '" ++ size ++ "'"))

theorem isChs_eq (text : List Char) :
    isChs text = (chsNumbers text).isSome := by
  unfold isChs chsNumbers
  match text.splitOn ',' with
  | [cylinder, head, sector] =>
      dsimp only
      split_ifs with hall
      · exact hall
      · simpa using hall
  | [] | [_] | [_, _] | _ :: _ :: _ :: _ :: _ => rfl

/-- `check_size_format` looks at this unit only. -/
theorem parseUnit_eq (size : String) :
    parseUnit size = (parseSize float size "").map Prod.snd := by
  unfold parseUnit parseSize
  dsimp only
  generalize (if size.toList.getLast? = some '\n' then size.toList.dropLast
    else size.toList) = text
  rw [isChs_eq]
  split_ifs with hnumber hfloat hgiven hchs
  · rw [hgiven]
    rfl
  · rfl
  · rfl
  · obtain ⟨numbers, hnumbers⟩ := Option.isSome_iff_exists.mp hchs
    rw [hnumbers]
    rfl
  · rw [Option.not_isSome_iff_eq_none.mp hchs]
    rfl

end Sizes

/-! ## Devices as dictionaries -/

structure ChsInfo (F : Type) where
  cylinders : ℤ
  heads : ℤ
  sectors : ℤ
  cylSize : Size F
  cylSizeUnit : String
  deriving DecidableEq, Repr

/-- `generic`. -/
structure Generic (F : Type) where
  dev : String
  size : Size F
  unit : String
  table : String
  model : String
  logicalBlock : ℤ
  physicalBlock : ℤ
  chsInfo : Option (ChsInfo F) := none
  deriving DecidableEq, Repr

/-- A partition; in CHS the output gives it no size. -/
structure Part (F : Type) where
  num : ℤ
  partBegin : Size F
  partEnd : Size F
  size : Option (Size F)
  fstype : String
  flags : List String
  unit : String
  deriving DecidableEq, Repr

structure DiskInfo (F : Type) where
  generic : Generic F
  partitions : List (Part F)
  deriving DecidableEq, Repr

/-- What `main` decides by. -/
def DiskInfo.toDeviceInfo {F : Type} (info : DiskInfo F) : DeviceInfo where
  table := info.generic.table
  partitions := info.partitions.map fun part => ⟨part.num, part.flags⟩

/-! ## Reading the output -/

/-- `int(text)`. -/
def pyInt (text : String) : Except Failure ℤ :=
  match (strip text).toList with
  | '-' :: digits =>
      if digits ≠ [] ∧ digits.all Char.isDigit then
        .ok (-(digitsValue digits : ℤ))
      else .error .valueError
  | '+' :: digits =>
      if digits ≠ [] ∧ digits.all Char.isDigit then .ok (digitsValue digits)
      else .error .valueError
  | digits =>
      if digits ≠ [] ∧ digits.all Char.isDigit then .ok (digitsValue digits)
      else .error .valueError

/-- `items[index]`. -/
def item {α : Type} (items : List α) (index : ℕ) : Except Failure α :=
  match items[index]? with
  | some a => .ok a
  | none => .error .indexError

/-- The lines that are not blank. -/
def outputLines (output : String) : List (List Char) :=
  (output.toList.splitOn '\n').filter fun line =>
    !line.all Char.isWhitespace

/-- `line.rstrip(';').split(':')`. -/
def lineParams (line : List Char) : List String :=
  (readFields ':' ';' line).map String.ofList

def parseFlags (flags : String) : List String :=
  ((splitPair ',' ' ' flags.toList).filter (· ≠ [])).map fun flag =>
    strip (String.ofList flag)

section Parse

variable {F : Type} (float : ℚ → F)

def parseChsInfo (line : List Char) : Except Failure (ChsInfo F) := do
  let params := lineParams line
  let (cylSize, cylUnit) ← parseSize float (← item params 3) ""
  .ok {
    cylinders := ← pyInt (← item params 0)
    heads := ← pyInt (← item params 1)
    sectors := ← pyInt (← item params 2)
    cylSize
    cylSizeUnit := pyLower cylUnit }

/-- The size, the file system and the flags, whose places CHS changes. -/
def parseFormat (unit : String) (params : List String) :
    Except Failure (Option (Size F) × String × String) :=
  if unit ≠ "chs" then do
    let (size, _) ← parseSize float (← item params 3) ""
    .ok (some size, ← item params 4, ← item params 6)
  else do
    .ok (none, ← item params 3, ← item params 5)

def parsePart (unit : String) (line : List Char) :
    Except Failure (Part F) := do
  let params := lineParams line
  let (size, fstype, flags) ← parseFormat float unit params
  let num ← pyInt (← item params 0)
  let (partBegin, _) ← parseSize float (← item params 1) ""
  let (partEnd, _) ← parseSize float (← item params 2) ""
  .ok {
    num
    partBegin
    partEnd
    size
    fstype
    flags := parseFlags flags
    unit := pyLower unit }

def parseGeneric (unit : String) (line : List Char) :
    Except Failure (Generic F × String) := do
  let params := lineParams line
  let (size, unit) ← parseSize float (← item params 1) unit
  let generic : Generic F := {
    dev := ← item params 0
    size
    unit := pyLower unit
    table := ← item params 5
    model := ← item params 6
    logicalBlock := ← pyInt (← item params 3)
    physicalBlock := ← pyInt (← item params 4) }
  .ok (generic, unit)

/-- The additional line, which CYL and CHS have, and the lines after it. -/
def parseChsLine (unit : String) (lines : List (List Char)) :
    Except Failure (Option (ChsInfo F) × List (List Char)) :=
  if unit = "cyl" ∨ unit = "chs" then do
    let info ← parseChsInfo float (← item lines 2)
    .ok (some info, lines.drop 3)
  else .ok (none, lines.drop 2)

def parsePartitionInfo (output unit : String) :
    Except Failure (DiskInfo F) := do
  let lines := outputLines output
  let (generic, unit) ← parseGeneric float unit (← item lines 1)
  let (chsInfo, partLines) ← parseChsLine float unit lines
  let partitions ← partLines.mapM (parsePart float unit)
  .ok { generic := { generic with chsInfo }, partitions }

end Parse

/-! ## The version -/

/-- `(\d+)\.(\d+)(?:\.(\d+))?$`, at this place. -/
def versionHere (text : List Char) : Option (ℕ × ℕ × ℕ) :=
  match text.splitOn '.' with
  | [major, minor] =>
      if [major, minor].all fun part => part ≠ [] && part.all Char.isDigit then
        some (digitsValue major, digitsValue minor, 0)
      else none
  | [major, minor, rev] =>
      if [major, minor, rev].all fun part =>
          part ≠ [] && part.all Char.isDigit then
        some (digitsValue major, digitsValue minor, digitsValue rev)
      else none
  | _ => none

/-- `^parted.+` before it; the `.+` takes as much as it can. -/
def versionOf (line : List Char) : Option (ℕ × ℕ × ℕ) :=
  if "parted".toList <+: line then
    (line.drop ("parted".length + 1)).tails.reverse.findSome? versionHere
  else none

/-! ## Running `parted` -/

structure Reply where
  rc : ℤ
  out : String
  err : String := ""

/-- A command line without a script. -/
inductive Query where
  | version
  | label (device : String)
  | print (device unit : String)

/-- The system: what a command line replies, and what a script does. -/
structure Shell (σ : Type) where
  partedExec : String
  query : σ → Query → Reply
  execute : σ → String → String → List Command → Reply × σ
  /-- the first line of a file of `/sys/block/`, if it can be opened -/
  readRecord : σ → String → Option String

def Query.text (partedExec : String) : Query → String
  | .version => partedExec ++ " --version"
  | .label device => partedExec ++ " -s -m " ++ device ++ " print"
  | .print device unit =>
      partedExec ++ " -s -m " ++ device ++ " -- unit '" ++ unit ++ "' print"

/-- `sub in text`. -/
def containsText (text sub : String) : Bool :=
  decide (sub.toList <:+: text.toList)

/-- `os.path.basename`. -/
def basename (path : String) : String :=
  String.ofList (path.toList.reverse.takeWhile (· ≠ '/')).reverse

section Module

variable {σ F : Type} (shell : Shell σ) (float : ℚ → F)
  (formatDiskSize : ℤ → String → F × String)

namespace Shell

def partedVersion (d : σ) : Except Failure (ℕ × ℕ × ℕ) :=
  let reply := shell.query d .version
  if reply.rc ≠ 0 then .error (.failJson "Failed to get parted version.")
  else
    match outputLines reply.out with
    | [] => .error (.failJson "Failed to get parted version.")
    | line :: _ =>
        match versionOf line with
        | some version => .ok version
        | none => .error (.failJson "Failed to get parted version.")

def checkPartedLabel (d : σ) (device : String) : Except Failure Bool := do
  let (major, minor, _) ← shell.partedVersion d
  if (major = 3 ∧ minor ≥ 1) ∨ major > 3 then .ok false
  else
    let reply := shell.query d (.label device)
    .ok (reply.rc ≠ 0 &&
      containsText (pyLower reply.out) "unrecognised disk label")

def record (d : σ) (path default : String) : String :=
  (shell.readRecord d path).getD default

/-- `format_disk_size` returns no unit with a size of zero. -/
def diskSize (sizeBytes : ℤ) (unit : String) : Except Failure (F × String) :=
  if sizeBytes = 0 then .error .typeError
  else .ok (formatDiskSize sizeBytes unit)

def getUnlabeledDeviceInfo (d : σ) (device unit : String) :
    Except Failure (DiskInfo F) := do
  let base := "/sys/block/" ++ basename device
  let vendor := shell.record d (base ++ "/device/vendor") "Unknown"
  let model := shell.record d (base ++ "/device/model") "model"
  let logicBlock ←
    pyInt (shell.record d (base ++ "/queue/logical_block_size") "0")
  let physBlock ←
    pyInt (shell.record d (base ++ "/queue/physical_block_size") "0")
  let sectors ← pyInt (shell.record d (base ++ "/size") "0")
  let (size, unit) ← diskSize formatDiskSize (sectors * logicBlock) unit
  .ok {
    generic := {
      dev := device
      table := "unknown"
      size := .number size
      unit
      logicalBlock := logicBlock
      physicalBlock := physBlock
      model := vendor ++ " " ++ model }
    partitions := [] }

def getDeviceInfo (d : σ) (device unit : String) :
    Except Failure (DiskInfo F) := do
  let labelNeeded ← shell.checkPartedLabel d device
  if labelNeeded then
    shell.getUnlabeledDeviceInfo formatDiskSize d device unit
  else
    let query := Query.print device unit
    let reply := shell.query d query
    if reply.rc ≠ 0 ∧ ¬containsText reply.err "unrecognised disk label" then
      .error (.failJson ("Error while getting device information with parted " ++
        "script: '" ++ query.text shell.partedExec ++ "'"))
    else parsePartitionInfo float reply.out unit

end Shell

/-! ## The module -/

section Main

variable (checkMode : Bool) (p : Params)

/-- `parted(script, device, align)`. -/
def Shell.parted (d : σ) (script : List Command) : Except Failure σ :=
  if script ≠ [] ∧ checkMode = false then
    let (reply, d') := shell.execute d p.align p.device script
    if reply.rc ≠ 0 then
      .error (.failJson ("Error while running parted script: " ++
        strip (shell.partedExec ++ " -s -m -a " ++ p.align ++ " " ++ p.device ++
          " -- " ++ scriptText script)))
    else .ok d'
  else .ok d

/-- The arguments of `exit_json`. -/
structure ExitArgs (σ F : Type) where
  changed : Bool
  script : String
  disk : Generic F
  partitions : List (Part F)
  device : σ

def Shell.info (d : σ) : Except Failure (DiskInfo F) :=
  shell.getDeviceInfo float formatDiskSize d p.device p.unit

/-- Read the device again after a script. -/
def Shell.infoAfter (d : σ) (script : List Command) (before : DiskInfo F) :
    Except Failure (DiskInfo F) :=
  if script ≠ [] then shell.info float formatDiskSize p d else .ok before

def Shell.present (d : σ) (current : DiskInfo F) :
    Except Failure (Outcome σ) := do
  let create := p.createScript current.toDeviceInfo
  let created ← shell.parted checkMode p d create
  let info ← shell.infoAfter float formatDiskSize p created create current
  let adjust := p.adjustScript checkMode info.toDeviceInfo
  let adjusted ← shell.parted checkMode p created adjust
  .ok {
    changed := create ≠ [] || adjust ≠ []
    script := create ++ adjust
    device := adjusted }

def Shell.absent (d : σ) (current : DiskInfo F) :
    Except Failure (Outcome σ) := do
  let script := p.removeScript checkMode current.toDeviceInfo
  let removed ← shell.parted checkMode p d script
  .ok { changed := script ≠ [], script, device := removed }

def Shell.byState (d : σ) (current : DiskInfo F) :
    Except Failure (Outcome σ) :=
  match p.state with
  | .present => shell.present float formatDiskSize checkMode p d current
  | .absent => shell.absent checkMode p d current
  | .info => .ok { changed := false, script := [.print p.unit], device := d }

/-- `main`. -/
def Shell.main (d : σ) : Except Failure (ExitArgs σ F) := do
  p.condition
  let current ← shell.info float formatDiskSize p d
  let out ← shell.byState float formatDiskSize checkMode p d current
  let final ← shell.info float formatDiskSize p out.device
  .ok {
    changed := out.changed
    script := strip (scriptText out.script)
    disk := final.generic
    partitions := final.partitions
    device := out.device }

end Main

end Module

end FreeipaProv.Parted
