import FreeipaProv.PartedVersion
import FreeipaProv.Partitioning

/-!
# The module over the text of `parted`

What the module does with the text `parted` writes is what it does with the
device itself, where `parted` is recent and writes the device in the
machine-parseable format.
-/

namespace FreeipaProv.Parted

open Fallible Fields

variable {σ F : Type}

section Describes

variable {shell : Shell σ} {dev : PartedDevice σ} {p : Params}
  {disk : σ → Disk} (float : ℚ → F)
  (formatDiskSize : ℤ → String → F × String) {checkMode : Bool}

end Describes

/-! ## A shell that describes its disk -/

/-- A disk whose names hold no colon, with sizes in KiB. -/
structure PlainDisk where
  table : Field
  parts : List PartEntry
  names : ∀ part ∈ parts, ':' ∉ part.name

theorem kib_start :
    ∃ c rest, "KiB".toList = c :: rest ∧ c.isDigit = false :=
  ⟨'K', ['i', 'B'], rfl, rfl⟩

def kib (n : ℕ) : Amount :=
  .decimal {
    whole := n
    unit := "KiB".toList
    fraction_digits := List.all_nil
    unit_start := kib_start }

theorem newline_not_mem_nil : '\n' ∉ ([] : List Char) := by decide

/-- The text as a field, if it can be one. -/
def Field.ofString? (text : String) : Option Field :=
  if h : ':' ∉ text.toList ∧ '\n' ∉ text.toList then
    some ⟨text.toList, h.1, h.2⟩
  else none

namespace PlainDisk

def disk (d : PlainDisk) : Disk where
  header := { chars := "BYT".toList }
  path := { chars := "/dev/vdb".toList }
  size := kib 1048576
  transport := { chars := "virtblk".toList }
  logicalBlock := 512
  physicalBlock := 512
  table := d.table
  model := { chars := "Virtio Block Device".toList }
  parts := d.parts

def nextNum (d : PlainDisk) : ℕ :=
  (d.parts.map PartEntry.num).foldr max 0 + 1

def withPart (d : PlainDisk) (fstype : Field) : PlainDisk where
  table := d.table
  parts := d.parts ++ [{
    num := d.nextNum
    partBegin := kib 1024
    partEnd := kib 1048575
    size := kib 1047552
    fstype
    name := []
    flags := []
    name_no_newline := newline_not_mem_nil }]
  names := by
    intro part hpart
    rw [List.mem_append, List.mem_singleton] at hpart
    rcases hpart with hpart | rfl
    · exact d.names part hpart
    · simp

def step (_align : String) (d : PlainDisk) :
    Command → Except Unit PlainDisk
  | .unit _ => .ok d
  | .mklabel label =>
      match Field.ofString? label with
      | some table => .ok ⟨table, [], by simp⟩
      | none => .error ()
  | .mkpart _ fsType _ _ =>
      match Field.ofString? fsType with
      | some fstype => .ok (d.withPart fstype)
      | none => .error ()
  | _ => .error ()

def report (d : PlainDisk) : DeviceInfo :=
  (d.disk.toDict id).toDeviceInfo

end PlainDisk

end FreeipaProv.Parted
