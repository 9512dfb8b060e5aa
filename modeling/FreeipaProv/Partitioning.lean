import FreeipaProv.Parted

/-!
# Partitioning without losing partitions

State `present` of the `parted` module, run twice: which partitions are left,
and when the second run has nothing to do.
-/

namespace FreeipaProv.Parted

open Fallible

/-! ## Scripts -/

/-- The commands that keep the table and all partitions. -/
def Command.Keeps : Command → Prop
  | .mklabel _ => False
  | .rm _ => False
  | .print _ => False
  | _ => True

theorem Command.Keeps.ne_mklabel {cmd : Command} (hkeeps : cmd.Keeps)
    (label : String) : cmd ≠ .mklabel label := by
  rintro rfl
  exact hkeeps

section Scripts

variable (p : Params) (info : DeviceInfo)

theorem unit_ne_empty : p.unit ≠ "" := by
  intro hempty
  have hmem := p.unit_mem
  rw [hempty] at hmem
  exact absurd hmem (by decide)

theorem withUnit_nil : p.withUnit [] = [] := by
  simp [Params.withUnit]

theorem withUnit_of_ne_nil {script : List Command} (hscript : script ≠ []) :
    p.withUnit script = .unit p.unit :: script := by
  rw [Params.withUnit, if_pos ⟨unit_ne_empty p, hscript⟩]

theorem withUnit_eq_nil_iff {script : List Command} :
    p.withUnit script = [] ↔ script = [] := by
  by_cases hscript : script = []
  · simp [hscript, withUnit_nil]
  · simp [withUnit_of_ne_nil p hscript, hscript]

theorem withUnit_keeps {script : List Command}
    (hscript : ∀ cmd ∈ script, cmd.Keeps) :
    ∀ cmd ∈ p.withUnit script, cmd.Keeps := by
  by_cases hnil : script = []
  · simp [hnil, withUnit_nil]
  · rw [withUnit_of_ne_nil p hnil, List.forall_mem_cons]
    exact ⟨trivial, hscript⟩

theorem mkpartScript_keeps : ∀ cmd ∈ p.mkpartScript info, cmd.Keeps := by
  intro cmd hcmd
  rw [Params.mkpartScript] at hcmd
  split at hcmd
  · split_ifs at hcmd
    · cases hcmd
    · rw [List.mem_singleton] at hcmd
      rw [hcmd]
      trivial
  · cases hcmd

theorem nameScript_keeps : ∀ cmd ∈ p.nameScript, cmd.Keeps := by
  intro cmd hcmd
  rw [Params.nameScript] at hcmd
  split at hcmd
  · rw [List.mem_singleton] at hcmd
    rw [hcmd]
    trivial
  · cases hcmd

theorem flagsScript_keeps (current : List String) :
    ∀ cmd ∈ p.flagsScript current, cmd.Keeps := by
  intro cmd hcmd
  rw [Params.flagsScript] at hcmd
  split at hcmd
  · cases hcmd
  · cases hcmd
  · rw [List.mem_append, List.mem_map, List.mem_map] at hcmd
    rcases hcmd with ⟨flag, -, rfl⟩ | ⟨flag, -, rfl⟩
    · trivial
    · trivial

theorem adjustScript_keeps (checkMode : Bool) :
    ∀ cmd ∈ p.adjustScript checkMode info, cmd.Keeps := by
  rw [Params.adjustScript]
  split_ifs
  · apply withUnit_keeps
    intro cmd hcmd
    rw [List.mem_append] at hcmd
    cases hcmd with
    | inl hname => exact nameScript_keeps p cmd hname
    | inr hflags => exact flagsScript_keeps p _ cmd hflags
  · simp

end Scripts

/-! ## Labels -/

/-- A table that `get_device_info` found on the device. -/
def DeviceInfo.Recognised (info : DeviceInfo) : Prop :=
  info.table ≠ "" ∧ info.table ≠ "unknown"

instance (info : DeviceInfo) : Decidable info.Recognised :=
  inferInstanceAs (Decidable (_ ∧ _))

/-- The label the task asks for. -/
def Params.givenLabel (p : Params) : Option String :=
  truthyText p.label

section Labels

variable {p : Params} {info : DeviceInfo} {label : String}

theorem truthyText_some (hlabel : label ≠ "") :
    truthyText (some label) = some label := by
  simp [truthyText, Option.filter, hlabel]

theorem labelOrDefault_of_recognised (hrecognised : info.Recognised) :
    p.labelOrDefault info = p.label := by
  rw [Params.labelOrDefault, if_neg]
  rintro (hempty | hunknown)
  · exact hrecognised.1 hempty
  · exact hrecognised.2 hunknown.1

/-- On a recognised table only a label of the task's is assigned. -/
theorem labelScript_of_recognised (hrecognised : info.Recognised)
    (hlabel : p.givenLabel = none) : p.labelScript info = [] := by
  rw [Params.givenLabel] at hlabel
  rw [Params.labelScript, labelOrDefault_of_recognised hrecognised, hlabel]

theorem labelScript_of_recognised_given (hrecognised : info.Recognised)
    (hlabel : p.givenLabel = some label) :
    p.labelScript info = [.mklabel label] := by
  rw [Params.givenLabel] at hlabel
  rw [Params.labelScript, labelOrDefault_of_recognised hrecognised, hlabel]

/-- Without a table and a label of the task's the label is `msdos`. -/
theorem labelScript_of_not_recognised (hlabel : p.givenLabel = none)
    (hnot : ¬info.Recognised) :
    p.labelScript info = [.mklabel "msdos"] := by
  have hdefault : p.labelOrDefault info = some "msdos" := by
    rw [Params.labelOrDefault, if_pos]
    by_cases hempty : info.table = ""
    · exact Or.inl hempty
    · by_cases hunknown : info.table = "unknown"
      · exact Or.inr ⟨hunknown, hlabel⟩
      · exact absurd ⟨hempty, hunknown⟩ hnot
  rw [Params.labelScript, hdefault, truthyText_some (by decide)]

/-- A label of the task's always has a label assigned. -/
theorem labelScript_of_given (hlabel : p.givenLabel = some label)
    (info : DeviceInfo) : p.labelScript info ≠ [] := by
  rw [Params.givenLabel] at hlabel
  rw [Params.labelScript, Params.labelOrDefault]
  split_ifs with hdefault
  · simp [truthyText_some]
  · simp [hlabel]

theorem createScript_keeps (hlabel : p.labelScript info = []) :
    ∀ cmd ∈ p.createScript info, cmd.Keeps := by
  rw [Params.createScript, hlabel, List.nil_append]
  exact withUnit_keeps p (mkpartScript_keeps p info)

theorem mklabel_mem_createScript
    (hlabel : p.labelScript info = [.mklabel label]) :
    .mklabel label ∈ p.createScript info := by
  rw [Params.createScript, hlabel, List.singleton_append,
    withUnit_of_ne_nil p (by simp)]
  simp

theorem createScript_ne_nil_of_given (hlabel : p.givenLabel = some label)
    (info : DeviceInfo) : p.createScript info ≠ [] := by
  rw [Params.createScript, Ne, withUnit_eq_nil_iff, List.append_eq_nil_iff]
  intro hnil
  exact labelScript_of_given hlabel info hnil.1

end Labels

/-! ## Running a script -/

section Run

variable {σ : Type} {dev : PartedDevice σ} {p : Params} {d d' : σ}
  {script : List Command}

/-- The table is the same and no partition is lost. -/
def DeviceInfo.KeptIn (before after : DeviceInfo) : Prop :=
  after.table = before.table ∧ before.nums ⊆ after.nums

theorem DeviceInfo.KeptIn.refl (info : DeviceInfo) : info.KeptIn info :=
  ⟨rfl, List.Subset.refl _⟩

theorem DeviceInfo.KeptIn.trans {info info' info'' : DeviceInfo}
    (hfirst : info.KeptIn info') (hsecond : info'.KeptIn info'') :
    info.KeptIn info'' :=
  ⟨hsecond.1.trans hfirst.1, List.Subset.trans hfirst.2 hsecond.2⟩

theorem step_keptIn {align : String} {cmd : Command} (hkeeps : cmd.Keeps)
    (hstep : dev.step align d cmd = .ok d') :
    (dev.report d).KeptIn (dev.report d') := by
  cases cmd with
  | unit default =>
      rw [dev.unit_report hstep]
      exact DeviceInfo.KeptIn.refl _
  | mklabel label => exact hkeeps.elim
  | mkpart partType fsType partStart partEnd =>
      obtain ⟨-, htable, hnums⟩ := dev.mkpart_report hstep
      refine ⟨htable, ?_⟩
      intro number hnumber
      rw [hnums.mem_iff]
      exact List.mem_cons_of_mem _ hnumber
  | name number given =>
      rw [dev.name_report hstep]
      exact DeviceInfo.KeptIn.refl _
  | set number flag on =>
      obtain ⟨htable, hnums⟩ := dev.set_report hstep
      refine ⟨htable, ?_⟩
      rw [hnums]
      exact List.Subset.refl _
  | rm number => exact hkeeps.elim
  | print default => exact hkeeps.elim

theorem runAll_keptIn (hscript : ∀ cmd ∈ script, cmd.Keeps)
    (hrun : runAll (dev.step p.align) d script = .ok d') :
    (dev.report d).KeptIn (dev.report d') := by
  apply runAll_invariant (fun s => (dev.report d).KeptIn (dev.report s)) _
    (DeviceInfo.KeptIn.refl _) hrun
  intro cmd hcmd s s' hkept hstep
  exact hkept.trans (step_keptIn (hscript cmd hcmd) hstep)

theorem parted_eq_ok_iff :
    dev.parted false p d script = .ok d' ↔
      runAll (dev.step p.align) d script = .ok d' := by
  rw [PartedDevice.parted]
  by_cases hnil : script = []
  · simp [hnil, runAll]
  · rw [if_pos ⟨hnil, rfl⟩]
    cases runAll (dev.step p.align) d script <;> simp

/-- Check mode leaves the device alone, in every state. -/
theorem main_checkMode {out : Outcome σ}
    (hmain : dev.main true p d = .ok out) : out.device = d := by
  have hidle : ∀ d script, dev.parted true p d script = .ok d := by
    intro d script
    simp [PartedDevice.parted]
  obtain ⟨⟨⟩, -, hmain⟩ := bind_eq_ok_iff.mp hmain
  cases hstate : p.state with
  | present =>
      rw [hstate] at hmain
      dsimp only [PartedDevice.present] at hmain
      rw [hidle, ok_bind, hidle, ok_bind] at hmain
      rw [← Except.ok.inj hmain]
  | absent =>
      rw [hstate] at hmain
      dsimp only [PartedDevice.absent] at hmain
      rw [hidle, ok_bind] at hmain
      rw [← Except.ok.inj hmain]
  | info =>
      rw [hstate] at hmain
      rw [← Except.ok.inj hmain]

end Run

/-- A successful run of state `present`: the device after the first script,
and the two scripts. -/
structure PresentRun {σ : Type} (dev : PartedDevice σ) (p : Params) (d : σ)
    (out : Outcome σ) (created : σ) : Prop where
  condition : p.condition = .ok ()
  create : runAll (dev.step p.align) d (p.createScript (dev.report d)) =
    .ok created
  adjust : runAll (dev.step p.align) created
    (p.adjustScript false (dev.report created)) = .ok out.device
  script : out.script = p.createScript (dev.report d) ++
    p.adjustScript false (dev.report created)
  changed : out.changed = (p.createScript (dev.report d) ≠ [] ||
    p.adjustScript false (dev.report created) ≠ [])

section Main

variable {σ : Type} {dev : PartedDevice σ} {p : Params} {d : σ}
  {out : Outcome σ}

theorem main_eq_ok_iff (hstate : p.state = .present) :
    dev.main false p d = .ok out ↔ ∃ created, PresentRun dev p d out created := by
  rw [PartedDevice.main, hstate]
  constructor
  · intro hmain
    obtain ⟨⟨⟩, hcondition, hpresent⟩ := bind_eq_ok_iff.mp hmain
    obtain ⟨created, hcreate, hrest⟩ := bind_eq_ok_iff.mp hpresent
    obtain ⟨adjusted, hadjust, hout⟩ := bind_eq_ok_iff.mp hrest
    cases hout
    exact ⟨created, hcondition, parted_eq_ok_iff.mp hcreate,
      parted_eq_ok_iff.mp hadjust, rfl, rfl⟩
  · rintro ⟨created, run⟩
    rw [run.condition, ok_bind]
    dsimp only
    rw [PartedDevice.present, parted_eq_ok_iff.mpr run.create, ok_bind]
    dsimp only
    rw [parted_eq_ok_iff.mpr run.adjust, ok_bind, ← run.script, ← run.changed]

/-! ## One run -/

theorem PresentRun.adjusted_keptIn {created : σ}
    (run : PresentRun dev p d out created) :
    (dev.report created).KeptIn (dev.report out.device) :=
  runAll_keptIn (adjustScript_keeps p _ false) run.adjust

/-- A run whose label script is empty loses no partition. -/
theorem PresentRun.keptIn {created : σ} (run : PresentRun dev p d out created)
    (hlabel : p.labelScript (dev.report d) = []) :
    (dev.report d).KeptIn (dev.report out.device) := by
  have hcreated : (dev.report d).KeptIn (dev.report created) :=
    runAll_keptIn (createScript_keeps hlabel) run.create
  exact hcreated.trans run.adjusted_keptIn

theorem PresentRun.no_mklabel {created : σ}
    (run : PresentRun dev p d out created)
    (hlabel : p.labelScript (dev.report d) = []) (label : String) :
    .mklabel label ∉ out.script := by
  intro hmem
  rw [run.script, List.mem_append] at hmem
  cases hmem with
  | inl hcreate =>
      exact (createScript_keeps hlabel _ hcreate).ne_mklabel label rfl
  | inr hadjust =>
      exact (adjustScript_keeps p _ false _ hadjust).ne_mklabel label rfl

theorem PresentRun.mklabel_mem {created : σ} {label : String}
    (run : PresentRun dev p d out created)
    (hlabel : p.labelScript (dev.report d) = [.mklabel label]) :
    .mklabel label ∈ out.script := by
  rw [run.script]
  exact List.mem_append_left _ (mklabel_mem_createScript hlabel)

theorem mem_nums_of_partExists {info : DeviceInfo} {n : ℤ}
    (hexists : partExists info.partitions (some n) = true) :
    n ≠ 0 ∧ n ∈ info.nums := by
  rw [partExists, List.any_eq_true] at hexists
  obtain ⟨part, hpart, hnum⟩ := hexists
  simp only [Bool.and_eq_true, decide_eq_true_eq, Option.some.injEq] at hnum
  rw [← hnum.2]
  exact ⟨hnum.1, List.mem_map_of_mem hpart⟩

theorem partExists_of_mem_nums {info : DeviceInfo} {n : ℤ} (hn : n ≠ 0)
    (hmem : n ∈ info.nums) :
    partExists info.partitions (some n) = true := by
  obtain ⟨part, hpart, hnum⟩ := List.mem_map.mp hmem
  rw [partExists, List.any_eq_true]
  refine ⟨part, hpart, ?_⟩
  simp [hnum, hn]

/-- After the run that makes a partition, the partition is there. -/
theorem runAll_mkpart {script : List Command} {created : σ}
    {partType fsType : String}
    (hrun : runAll (dev.step p.align) d
      (script ++ [.mkpart partType fsType p.partStart p.partEnd]) =
        .ok created) :
    ∃ blank, runAll (dev.step p.align) d script = .ok blank ∧
      0 < dev.newNumber blank partType ∧
      (dev.report created).table = (dev.report blank).table ∧
      dev.newNumber blank partType ∈ (dev.report created).nums := by
  obtain ⟨blank, hblank, hmkpart⟩ := runAll_append.mp hrun
  obtain ⟨created', hstep, hrest⟩ := bind_eq_ok_iff.mp hmkpart
  cases hrest
  obtain ⟨hpos, htable, hnums⟩ := dev.mkpart_report hstep
  refine ⟨blank, hblank, hpos, htable, ?_⟩
  rw [hnums.mem_iff]
  exact List.mem_cons_self

/-- The commands before `mkpart`. -/
def Params.beforeMkpart (p : Params) (info : DeviceInfo) : List Command :=
  .unit p.unit :: p.labelScript info

theorem createScript_of_mkpart {info : DeviceInfo} {partType : String}
    (htype : truthyText p.partType = some partType)
    (hnot : partExists info.partitions p.number = false) :
    p.createScript info = p.beforeMkpart info ++
      [.mkpart partType (p.fsType.getD "") p.partStart p.partEnd] := by
  have hmkpart : p.mkpartScript info =
      [.mkpart partType (p.fsType.getD "") p.partStart p.partEnd] := by
    rw [Params.mkpartScript, htype]
    simp [hnot]
  rw [Params.createScript, hmkpart, withUnit_of_ne_nil p (by simp),
    Params.beforeMkpart, List.cons_append]

theorem mkpartScript_of_partExists {info : DeviceInfo}
    (hexists : partExists info.partitions p.number = true) :
    p.mkpartScript info = [] := by
  rw [Params.mkpartScript]
  split
  · rw [if_pos hexists]
  · rfl

/-- The partition `mkpart` makes in this run gets the number of the task. -/
def PartedDevice.Numbers (dev : PartedDevice σ) (p : Params) (d : σ) : Prop :=
  ∀ n partType blank, p.number = some n →
    truthyText p.partType = some partType →
    partExists (dev.report d).partitions p.number = false →
    runAll (dev.step p.align) d (p.beforeMkpart (dev.report d)) = .ok blank →
    dev.newNumber blank partType = n

theorem PresentRun.mkpart {created : σ} {n : ℤ} {partType : String}
    (run : PresentRun dev p d out created) (hnumbers : dev.Numbers p d)
    (hnumber : p.number = some n)
    (htype : truthyText p.partType = some partType)
    (hnot : partExists (dev.report d).partitions p.number = false) :
    n ≠ 0 ∧ n ∈ (dev.report out.device).nums := by
  have hcreate := run.create
  rw [createScript_of_mkpart htype hnot] at hcreate
  obtain ⟨blank, hblank, hpos, -, hmem⟩ := runAll_mkpart hcreate
  have hnew : dev.newNumber blank partType = n :=
    hnumbers n partType blank hnumber htype hnot hblank
  rw [hnew] at hpos hmem
  exact ⟨by omega, run.adjusted_keptIn.2 hmem⟩

/-- A run that assigns a label starts from an empty table. -/
theorem PresentRun.relabelled {created : σ} {label : String}
    (run : PresentRun dev p d out created)
    (hlabel : p.labelScript (dev.report d) = [.mklabel label]) :
    ∃ blank, dev.report blank = ⟨label, []⟩ ∧
      runAll (dev.step p.align) blank (p.mkpartScript (dev.report d)) =
        .ok created := by
  have hscript : p.createScript (dev.report d) =
      [.unit p.unit, .mklabel label] ++ p.mkpartScript (dev.report d) := by
    rw [Params.createScript, hlabel, withUnit_of_ne_nil p (by simp)]
    rfl
  have hcreate := run.create
  rw [hscript] at hcreate
  obtain ⟨blank, hblank, hrest⟩ := runAll_append.mp hcreate
  obtain ⟨unitSet, -, hmklabel⟩ := bind_eq_ok_iff.mp hblank
  obtain ⟨blank', hstep, hdone⟩ := bind_eq_ok_iff.mp hmklabel
  cases hdone
  exact ⟨blank, dev.mklabel_report hstep, hrest⟩

theorem PresentRun.table_of_relabelled {created : σ} {label : String}
    (run : PresentRun dev p d out created)
    (hlabel : p.labelScript (dev.report d) = [.mklabel label]) :
    (dev.report out.device).table = label := by
  obtain ⟨blank, hblank, hcreated⟩ := run.relabelled hlabel
  have hmade := runAll_keptIn (mkpartScript_keeps p _) hcreated
  rw [(hmade.trans run.adjusted_keptIn).1, hblank]

/-- A label assigned over the partition of the task erases it, and no new one
is made. -/
theorem PresentRun.nums_of_relabelled {created : σ} {label : String}
    (run : PresentRun dev p d out created)
    (hlabel : p.labelScript (dev.report d) = [.mklabel label])
    (hexists : partExists (dev.report d).partitions p.number = true) :
    (dev.report out.device).nums = [] := by
  obtain ⟨blank, hblank, hcreated⟩ := run.relabelled hlabel
  rw [mkpartScript_of_partExists hexists] at hcreated
  have hcreatedInfo : dev.report created = ⟨label, []⟩ := by
    rw [← Except.ok.inj hcreated, hblank]
  have hnone : p.adjustScript false (dev.report created) = [] := by
    simp [Params.adjustScript, hcreatedInfo, partExists]
  have hadjust := run.adjust
  rw [hnone] at hadjust
  rw [← Except.ok.inj hadjust, hcreatedInfo]
  rfl

/-! ## The second run -/

/-- The same parameters without name and flags. -/
def Params.again (p : Params) : Params :=
  { p with name := none, flags := none }

theorem again_adjustScript (p : Params) (info : DeviceInfo) :
    p.again.adjustScript false info = [] := by
  have hnone : p.again.nameScript ++
      p.again.flagsScript (p.again.currentFlags false info) = [] := by rfl
  rw [Params.adjustScript, hnone, withUnit_nil, ite_self]

/-- With the table and the partition there, nothing is left to do. -/
theorem main_again (hstate : p.state = .present)
    (hcondition : p.condition = .ok ()) (hlabel : p.givenLabel = none)
    (hrecognised : (dev.report d).Recognised)
    (hexists : partExists (dev.report d).partitions p.number = true) :
    dev.main false p.again d =
      .ok { changed := false, script := [], device := d } := by
  have hcreate : p.again.createScript (dev.report d) = [] := by
    have hnolabel : p.again.labelScript (dev.report d) = [] :=
      labelScript_of_recognised hrecognised hlabel
    have hnomkpart : p.again.mkpartScript (dev.report d) = [] :=
      mkpartScript_of_partExists hexists
    rw [Params.createScript, hnolabel, hnomkpart, List.append_nil, withUnit_nil]
  have hadjust := again_adjustScript p (dev.report d)
  have hagain : p.again.state = .present := hstate
  refine (main_eq_ok_iff hagain).mpr ⟨d, hcondition, ?_, ?_, ?_, ?_⟩
  · rw [hcreate]
    rfl
  · rw [hadjust]
    rfl
  · rw [hcreate, hadjust]
    rfl
  · rw [hcreate, hadjust]
    rfl

theorem main_again_script_ne_nil {again : Outcome σ} {label : String}
    (hstate : p.state = .present) (hlabel : p.givenLabel = some label)
    (hmain : dev.main false p.again d = .ok again) : again.script ≠ [] := by
  have hagain : p.again.state = .present := hstate
  have hgiven : p.again.givenLabel = some label := hlabel
  obtain ⟨created, run⟩ := (main_eq_ok_iff hagain).mp hmain
  rw [run.script, Ne, List.append_eq_nil_iff, not_and]
  intro hcreate
  exact absurd hcreate (createScript_ne_nil_of_given hgiven _)

/-! ## What a run must do -/

/-- On a recognised table of the label asked for, or with none asked for, no
label is assigned and every partition stays. -/
def PartedDevice.NonDestructive (dev : PartedDevice σ) (p : Params) (d : σ)
    (out : Outcome σ) : Prop :=
  (dev.report d).Recognised →
    (p.givenLabel = none ∨ p.givenLabel = some (dev.report d).table) →
    (∀ label, .mklabel label ∉ out.script) ∧
      (dev.report d).nums ⊆ (dev.report out.device).nums

/-- The partition asked for is there, and a second run does nothing. -/
def PartedDevice.Settles (dev : PartedDevice σ) (p : Params)
    (out : Outcome σ) : Prop :=
  ∀ n, p.number = some n → (truthyText p.partType).isSome →
    n ∈ (dev.report out.device).nums ∧
      ∃ again, dev.main false p.again out.device = .ok again ∧
        again.script = [] ∧ again.changed = false

/-- The task asks for a partition with a number. -/
def Params.WantsPartition (p : Params) : Prop :=
  p.number.isSome ∧ (truthyText p.partType).isSome

/-- Without a label of the task's, a partition asked for is not there yet
where the table is not recognised.  With one, no partition is asked for, and a
recognised table is of another label. -/
def Params.SafeOn (p : Params) (info : DeviceInfo) : Prop :=
  (p.givenLabel = none → p.WantsPartition →
      info.Recognised ∨ partExists info.partitions p.number = false) ∧
    ∀ label, p.givenLabel = some label →
      ¬p.WantsPartition ∧ (info.Recognised → label ≠ info.table)

theorem PresentRun.nonDestructive {created : σ}
    (run : PresentRun dev p d out created) (hlabel : p.givenLabel = none) :
    dev.NonDestructive p d out := by
  intro hrecognised _
  have hscript := labelScript_of_recognised hrecognised hlabel
  exact ⟨run.no_mklabel hscript, (run.keptIn hscript).2⟩

theorem PresentRun.settles_of_none {created : σ}
    (run : PresentRun dev p d out created) (hstate : p.state = .present)
    (hnumbers : dev.Numbers p d) (hlabel : p.givenLabel = none)
    (hsafe : p.WantsPartition → (dev.report d).Recognised ∨
      partExists (dev.report d).partitions p.number = false) :
    dev.Settles p out := by
  intro n hnumber htype
  obtain ⟨partType, hpartType⟩ := Option.isSome_iff_exists.mp htype
  have hpartition : n ≠ 0 ∧ n ∈ (dev.report out.device).nums := by
    cases hexists : partExists (dev.report d).partitions p.number with
    | true =>
        have hrecognised : (dev.report d).Recognised := by
          rcases hsafe ⟨by simp [hnumber], htype⟩ with hrecognised | hnot
          · exact hrecognised
          · rw [hexists] at hnot
            cases hnot
        rw [hnumber] at hexists
        have hmem := mem_nums_of_partExists hexists
        have hscript := labelScript_of_recognised hrecognised hlabel
        exact ⟨hmem.1, (run.keptIn hscript).2 hmem.2⟩
    | false => exact run.mkpart hnumbers hnumber hpartType hexists
  have hrecognised : (dev.report out.device).Recognised := by
    by_cases hrecognised : (dev.report d).Recognised
    · have hscript := labelScript_of_recognised hrecognised hlabel
      rw [DeviceInfo.Recognised, (run.keptIn hscript).1]
      exact hrecognised
    · have hscript := labelScript_of_not_recognised hlabel hrecognised
      rw [DeviceInfo.Recognised, run.table_of_relabelled hscript]
      decide
  have hexists : partExists (dev.report out.device).partitions p.number =
      true := by
    rw [hnumber]
    exact partExists_of_mem_nums hpartition.1 hpartition.2
  exact ⟨hpartition.2, _,
    main_again hstate run.condition hlabel hrecognised hexists, rfl, rfl⟩

/-- A label assigned where the partition already is leaves none. -/
theorem PresentRun.not_settles_of_none {created : σ}
    (run : PresentRun dev p d out created) (hlabel : p.givenLabel = none)
    (hwants : p.WantsPartition) (hnot : ¬(dev.report d).Recognised)
    (hexists : partExists (dev.report d).partitions p.number = true) :
    ¬dev.Settles p out := by
  intro hsettles
  obtain ⟨n, hnumber⟩ := Option.isSome_iff_exists.mp hwants.1
  have hscript := labelScript_of_not_recognised hlabel hnot
  have hmem := (hsettles n hnumber hwants.2).1
  rw [run.nums_of_relabelled hscript hexists] at hmem
  cases hmem

theorem not_settles_of_given {label : String} (hstate : p.state = .present)
    (hlabel : p.givenLabel = some label) (hwants : p.WantsPartition) :
    ¬dev.Settles p out := by
  intro hsettles
  obtain ⟨n, hnumber⟩ := Option.isSome_iff_exists.mp hwants.1
  obtain ⟨-, again, hagain, hscript, -⟩ := hsettles n hnumber hwants.2
  exact main_again_script_ne_nil hstate hlabel hagain hscript

theorem no_mklabel_iff (p : Params) (info : DeviceInfo) :
    (info.Recognised →
        (p.givenLabel = none ∨ p.givenLabel = some info.table) →
        ∀ label, .mklabel label ∉ p.createScript info) ↔
      (info.Recognised → p.givenLabel ≠ some info.table) := by
  constructor
  · intro hno hrecognised hgiven
    apply hno hrecognised (Or.inr hgiven) info.table
    exact mklabel_mem_createScript
      (labelScript_of_recognised_given hrecognised hgiven)
  · intro hne hrecognised hgiven label hmem
    have hlabel : p.givenLabel = none :=
      hgiven.resolve_right (hne hrecognised)
    have hkeeps :=
      createScript_keeps (labelScript_of_recognised hrecognised hlabel)
    exact (hkeeps _ hmem).ne_mklabel label rfl

theorem PresentRun.safe_iff {created : σ}
    (run : PresentRun dev p d out created) (hstate : p.state = .present)
    (hnumbers : dev.Numbers p d) :
    dev.NonDestructive p d out ∧ dev.Settles p out ↔
      p.SafeOn (dev.report d) := by
  cases hlabel : p.givenLabel with
  | none =>
      have hkept := run.nonDestructive hlabel
      constructor
      · rintro ⟨-, hsettles⟩
        refine ⟨?_, by simp [hlabel]⟩
        intro _ hwants
        by_contra hunsafe
        rw [not_or, Bool.not_eq_false] at hunsafe
        exact run.not_settles_of_none hlabel hwants hunsafe.1 hunsafe.2 hsettles
      · intro hsafe
        exact ⟨hkept, run.settles_of_none hstate hnumbers hlabel
          (hsafe.1 hlabel)⟩
  | some label =>
      constructor
      · rintro ⟨hkept, hsettles⟩
        refine ⟨by simp [hlabel], ?_⟩
        intro label' hlabel'
        refine ⟨?_, ?_⟩
        · intro hwants
          exact not_settles_of_given hstate hlabel hwants hsettles
        · rintro hrecognised rfl
          have hscript := labelScript_of_recognised_given hrecognised hlabel'
          exact (hkept hrecognised (Or.inr hlabel')).1 _
            (run.mklabel_mem hscript)
      · intro hsafe
        obtain ⟨hwants, hne⟩ := hsafe.2 label hlabel
        refine ⟨?_, ?_⟩
        · intro hrecognised hgiven
          rw [hlabel] at hgiven
          rcases hgiven with hnone | hsame
          · cases hnone
          · exact absurd (Option.some.inj hsame) (hne hrecognised)
        · intro n hnumber htype
          exact absurd ⟨by simp [hnumber], htype⟩ hwants

end Main

/-- A run of state `present` loses no partition and settles exactly on the
parameters that are safe on the device; and it assigns no label to a
recognised table exactly where the task does not ask for that label. -/
theorem present_safe_iff {σ : Type} (dev : PartedDevice σ) (p : Params) (d : σ)
    (hstate : p.state = .present) :
    (((dev.report d).Recognised →
        (p.givenLabel = none ∨ p.givenLabel = some (dev.report d).table) →
        ∀ label, .mklabel label ∉ p.createScript (dev.report d)) ↔
      ((dev.report d).Recognised →
        p.givenLabel ≠ some (dev.report d).table)) ∧
      ∀ out, dev.main false p d = .ok out → dev.Numbers p d →
        (dev.NonDestructive p d out ∧ dev.Settles p out ↔
          p.SafeOn (dev.report d)) := by
  refine ⟨no_mklabel_iff p (dev.report d), ?_⟩
  intro out hmain hnumbers
  obtain ⟨created, run⟩ := (main_eq_ok_iff hstate).mp hmain
  exact run.safe_iff hstate hnumbers

/-! ## A device in memory -/

/-- The number after the largest one. -/
def DeviceInfo.nextNumber (info : DeviceInfo) : ℤ :=
  info.nums.foldr max 0 + 1

def DeviceInfo.step (info : DeviceInfo) : Command → DeviceInfo
  | .unit _ => info
  | .mklabel label => ⟨label, []⟩
  | .mkpart _ _ _ _ =>
      { info with
        partitions := ⟨info.nextNumber, []⟩ :: info.partitions }
  | .name _ _ => info
  | .set number flag true =>
      { info with
        partitions := info.partitions.map fun part =>
          if some part.num = number then
            { part with flags := flag :: part.flags }
          else part }
  | .set number flag false =>
      { info with
        partitions := info.partitions.map fun part =>
          if some part.num = number then
            { part with flags := part.flags.filter (· ≠ flag) }
          else part }
  | .rm number =>
      { info with
        partitions := info.partitions.filter fun part =>
          some part.num ≠ number }
  | .print _ => info

theorem nextNumber_pos (info : DeviceInfo) : 0 < info.nextNumber := by
  have hmax : ∀ nums : List ℤ, 0 ≤ nums.foldr max 0 := by
    intro nums
    induction nums with
    | nil => exact le_refl 0
    | cons n rest ih => exact le_max_of_le_right ih
  have hnums := hmax info.nums
  rw [DeviceInfo.nextNumber]
  omega

theorem map_set_nums (info : DeviceInfo) (number : Option ℤ)
    (change : Partition → Partition)
    (hchange : ∀ part, (change part).num = part.num) :
    (info.partitions.map fun part =>
      if some part.num = number then change part else part).map
        Partition.num = info.nums := by
  rw [List.map_map, DeviceInfo.nums]
  apply List.map_congr_left
  intro part _
  rw [Function.comp_apply]
  split_ifs
  · exact hchange part
  · rfl

def memoryDevice : PartedDevice DeviceInfo where
  partedExec := "/sbin/parted"
  report := id
  step _ info cmd := .ok (info.step cmd)
  newNumber info _ := info.nextNumber
  unit_report hstep := (Except.ok.inj hstep).symm
  mklabel_report hstep := (Except.ok.inj hstep).symm
  mkpart_report hstep := by
    rw [← Except.ok.inj hstep]
    exact ⟨nextNumber_pos _, rfl, List.Perm.refl _⟩
  name_report hstep := (Except.ok.inj hstep).symm
  set_report := by
    intro align d d' number flag on hstep
    rw [← Except.ok.inj hstep]
    cases on with
    | true => exact ⟨rfl, map_set_nums d number _ fun _ => rfl⟩
    | false => exact ⟨rfl, map_set_nums d number _ fun _ => rfl⟩

/-- A partition asked for on a device without a table. -/
def newPartition : Params where
  device := "/dev/vdb"
  number := some 1
  partType := some "primary"
  state := .present

theorem present_safe_newPartition :
    memoryDevice.NonDestructive newPartition ⟨"unknown", []⟩
        ⟨true, [.unit "KiB", .mklabel "msdos", .mkpart "primary" "" "0%" "100%"],
          ⟨"msdos", [⟨1, []⟩]⟩⟩ ∧
      memoryDevice.Settles newPartition
        ⟨true, [.unit "KiB", .mklabel "msdos", .mkpart "primary" "" "0%" "100%"],
          ⟨"msdos", [⟨1, []⟩]⟩⟩ := by
  have hnumbers : memoryDevice.Numbers newPartition ⟨"unknown", []⟩ := by
    intro n partType blank hnumber _ _ hblank
    rw [← Option.some.inj hnumber, ← Except.ok.inj hblank]
    rfl
  have hsafe : newPartition.SafeOn ⟨"unknown", []⟩ := by
    refine ⟨fun _ _ => Or.inr rfl, ?_⟩
    intro label hlabel
    cases hlabel
  exact ((present_safe_iff memoryDevice newPartition ⟨"unknown", []⟩ rfl).2 _
    rfl hnumbers).mpr hsafe

/-- The same partition, on a `gpt` table that has it already. -/
def relabelled : Params where
  device := "/dev/vdb"
  number := some 1
  label := some "gpt"
  partType := some "primary"
  state := .present

theorem present_relabels :
    ¬ ∀ (p : Params) (d : DeviceInfo) (out : Outcome DeviceInfo),
      p.state = .present → memoryDevice.main false p d = .ok out →
        memoryDevice.Numbers p d →
          memoryDevice.NonDestructive p d out ∧ memoryDevice.Settles p out := by
  intro hall
  have hnumbers : memoryDevice.Numbers relabelled ⟨"gpt", [⟨1, []⟩]⟩ := by
    intro _ _ _ _ _ hnot _
    exact absurd hnot (by decide)
  have hsafe := hall relabelled ⟨"gpt", [⟨1, []⟩]⟩
    ⟨true, [.unit "KiB", .mklabel "gpt"], ⟨"gpt", []⟩⟩ rfl rfl hnumbers
  exact (hsafe.1 (by decide) (Or.inr rfl)).1 "gpt" (by simp)

end FreeipaProv.Parted
