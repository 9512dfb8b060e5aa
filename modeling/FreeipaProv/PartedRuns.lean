import FreeipaProv.Partitioning

/-!
# Removing partitions and setting flags

What the states `absent` and `present` of the `parted` module do to the flags
of the partitions, what the next run finds to do, and what check mode
announces.
-/

namespace FreeipaProv.Parted

open Fallible

/-! ## Flags of partitions -/

/-- The flags of the partition of this number, if there is one. -/
def DeviceInfo.flagsAt (info : DeviceInfo) (n : ℤ) : Option (Set String) :=
  (info.partitions.find? fun part => part.num = n).map fun part =>
    {flag | flag ∈ part.flags}

def setFlag (flag : String) (on : Bool) (flags : Set String) : Set String :=
  if on then flags ∪ {flag} else flags \ {flag}

/-- A device on which the number of a new partition is free, and a flag does
not touch other flags or other partitions. -/
structure FlagDevice (σ : Type) extends PartedDevice σ where
  rm_report : ∀ {align d d' n}, step align d (.rm (some n)) = .ok d' →
    (report d').table = (report d).table ∧
      (report d').flagsAt = Function.update (report d).flagsAt n none
  mkpart_flagsAt : ∀ {align d d' partType fsType partStart partEnd},
    step align d (.mkpart partType fsType partStart partEnd) = .ok d' →
      (report d).flagsAt (newNumber d partType) = none ∧
        ∀ m, m ≠ newNumber d partType →
          (report d').flagsAt m = (report d).flagsAt m
  set_flagsAt : ∀ {align d d' n flag on},
    step align d (.set (some n) flag on) = .ok d' →
      (report d').flagsAt = Function.update (report d).flagsAt n
        (((report d).flagsAt n).map (setFlag flag on))

section Flags

variable {info : DeviceInfo} {p : Params} {n : ℤ}

theorem partExists_iff : partExists info.partitions (some n) = true ↔
    n ≠ 0 ∧ info.flagsAt n ≠ none := by
  have hfound : info.flagsAt n ≠ none ↔
      ∃ part ∈ info.partitions, decide (part.num = n) = true := by
    rw [← List.find?_isSome, DeviceInfo.flagsAt, ne_eq,
      Option.map_eq_none_iff, ← ne_eq, Option.isSome_iff_ne_none]
  rw [hfound]
  constructor
  · intro hexists
    obtain ⟨part, hpart, hnum⟩ := List.any_eq_true.mp hexists
    rw [Bool.and_eq_true, decide_eq_true_eq, decide_eq_true_eq] at hnum
    obtain rfl := Option.some.inj hnum.2
    exact ⟨hnum.1, part, hpart, decide_eq_true rfl⟩
  · rintro ⟨hn, part, hpart, hnum⟩
    rw [decide_eq_true_eq] at hnum
    apply List.any_eq_true.mpr
    refine ⟨part, hpart, ?_⟩
    simp [hnum, hn]

theorem partExists_number_iff : partExists info.partitions p.number = true ↔
    ∃ n, p.number = some n ∧ n ≠ 0 ∧ info.flagsAt n ≠ none := by
  cases hnumber : p.number with
  | none => simp [partExists]
  | some n =>
      rw [partExists_iff]
      constructor
      · intro hn
        exact ⟨n, rfl, hn⟩
      · rintro ⟨m, hm, hn⟩
        obtain rfl := Option.some.inj hm
        exact hn

theorem mem_currentFlags (hnumber : p.number = some n) {flags : Set String}
    (hflags : info.flagsAt n = some flags) (flag : String) :
    flag ∈ p.currentFlags false info ↔ flag ∈ flags := by
  unfold DeviceInfo.flagsAt at hflags
  obtain ⟨part, hpart, rfl⟩ := Option.map_eq_some_iff.mp hflags
  have hfind : info.partitions.find? (fun part => some part.num = p.number) =
      some part := by
    rw [hnumber]
    simpa using hpart
  unfold Params.currentFlags
  rw [if_neg Bool.false_ne_true, hfind]
  rfl

/-- There is a flag to set or to clear unless the flags are the same. -/
theorem flagsScript_eq_nil_iff {current : List String} :
    p.flagsScript current = [] ↔ ∀ flags, p.flags = some flags →
      flags ≠ [] → ∀ flag, flag ∈ flags ↔ flag ∈ current := by
  unfold Params.flagsScript
  cases hflags : p.flags with
  | none => simp
  | some flags =>
      cases flags with
      | nil => simp
      | cons first rest =>
          simp only [List.append_eq_nil_iff, List.map_eq_nil_iff,
            List.filter_eq_nil_iff, List.mem_dedup, decide_eq_true_eq,
            not_not, Option.some.injEq]
          constructor
          · rintro ⟨hon, hoff⟩ flags rfl - flag
            exact ⟨hon flag, hoff flag⟩
          · intro hsame
            have hmem := hsame _ rfl (List.cons_ne_nil first rest)
            exact ⟨fun flag => (hmem flag).mp, fun flag => (hmem flag).mpr⟩

end Flags

/-! ## Flags in memory -/

section Memory

variable (info : DeviceInfo)

theorem flagsAt_cons (part : Partition) (table : String)
    (partitions : List Partition) (m : ℤ) :
    DeviceInfo.flagsAt ⟨table, part :: partitions⟩ m =
      if part.num = m then some {flag | flag ∈ part.flags}
      else DeviceInfo.flagsAt ⟨table, partitions⟩ m := by
  unfold DeviceInfo.flagsAt
  rw [List.find?_cons]
  by_cases hm : part.num = m
  · simp [hm]
  · simp [hm]

theorem flagsAt_rm (n : ℤ) : (info.step (.rm (some n))).flagsAt =
    Function.update info.flagsAt n none := by
  obtain ⟨table, partitions⟩ := info
  induction partitions with
  | nil =>
      funext m
      rw [show Function.update (DeviceInfo.flagsAt ⟨table, []⟩) n none =
        DeviceInfo.flagsAt ⟨table, []⟩ from Function.update_eq_self n _]
      rfl
  | cons part rest ih =>
      funext m
      have hrest := congrFun ih m
      by_cases hpart : part.num = n
      · have hstep : DeviceInfo.step ⟨table, part :: rest⟩ (.rm (some n)) =
            DeviceInfo.step ⟨table, rest⟩ (.rm (some n)) := by
          simp [DeviceInfo.step, hpart]
        rw [hstep, hrest]
        by_cases hm : m = n
        · rw [hm, Function.update_self, Function.update_self]
        · rw [Function.update_of_ne hm, Function.update_of_ne hm, flagsAt_cons,
            if_neg fun h => hm (h.symm.trans hpart)]
      · have hstep : DeviceInfo.step ⟨table, part :: rest⟩ (.rm (some n)) =
            ⟨table, part ::
              (DeviceInfo.step ⟨table, rest⟩ (.rm (some n))).partitions⟩ := by
          simp [DeviceInfo.step, hpart]
        rw [hstep, flagsAt_cons]
        change (if part.num = m then _ else
          (DeviceInfo.step ⟨table, rest⟩ (.rm (some n))).flagsAt m) = _
        rw [hrest]
        by_cases hm : m = n
        · rw [hm, Function.update_self, Function.update_self, if_neg hpart]
        · rw [Function.update_of_ne hm, Function.update_of_ne hm, flagsAt_cons]

theorem step_set_cons (table : String) (part : Partition)
    (rest : List Partition) (n : ℤ) (flag : String) (on : Bool) :
    ∃ changed, DeviceInfo.step ⟨table, part :: rest⟩ (.set (some n) flag on) =
        ⟨table, changed ::
          (DeviceInfo.step ⟨table, rest⟩ (.set (some n) flag on)).partitions⟩ ∧
      changed.num = part.num ∧ {f | f ∈ changed.flags} =
        if part.num = n then setFlag flag on {f | f ∈ part.flags}
        else {f | f ∈ part.flags} := by
  cases on with
  | true =>
      refine ⟨_, rfl, ?_, ?_⟩
      · dsimp only
        split_ifs <;> rfl
      · by_cases hpart : part.num = n
        · simp only [hpart, if_true, setFlag]
          ext f
          simp
        · simp [hpart]
  | false =>
      refine ⟨_, rfl, ?_, ?_⟩
      · dsimp only
        split_ifs <;> rfl
      · by_cases hpart : part.num = n
        · simp only [hpart, if_true, setFlag]
          ext f
          simp
        · simp [hpart]

theorem flagsAt_set (n : ℤ) (flag : String) (on : Bool) :
    (info.step (.set (some n) flag on)).flagsAt =
      Function.update info.flagsAt n
        ((info.flagsAt n).map (setFlag flag on)) := by
  obtain ⟨table, partitions⟩ := info
  induction partitions with
  | nil =>
      have hnone : DeviceInfo.flagsAt ⟨table, []⟩ n = none := rfl
      rw [hnone, Option.map_none, ← hnone, Function.update_eq_self]
      cases on <;> rfl
  | cons part rest ih =>
      obtain ⟨changed, hstep, hnum, hflags⟩ :=
        step_set_cons table part rest n flag on
      rw [hstep]
      funext m
      have hrest : DeviceInfo.flagsAt ⟨table,
          (DeviceInfo.step ⟨table, rest⟩ (.set (some n) flag on)).partitions⟩
            m = _ := congrFun ih m
      rw [flagsAt_cons, hnum, hflags, hrest]
      by_cases hm : m = n
      · subst hm
        rw [Function.update_self, Function.update_self, flagsAt_cons]
        by_cases hpart : part.num = m
        · simp [hpart]
        · simp [hpart]
      · rw [Function.update_of_ne hm, Function.update_of_ne hm, flagsAt_cons]
        by_cases hpart : part.num = m
        · simp [hpart, hm]
        · simp [hpart]

theorem flagsAt_nextNumber : info.flagsAt info.nextNumber = none := by
  have hmax : ∀ nums : List ℤ, ∀ n ∈ nums, n ≤ nums.foldr max 0 := by
    intro nums n hn
    induction nums with
    | nil => contradiction
    | cons first rest ih =>
        rcases List.mem_cons.mp hn with rfl | hrest
        · exact le_max_left _ _
        · exact (ih hrest).trans (le_max_right _ _)
  unfold DeviceInfo.flagsAt
  rw [Option.map_eq_none_iff, List.find?_eq_none]
  intro part hpart
  have hle := hmax info.nums part.num (List.mem_map_of_mem hpart)
  unfold DeviceInfo.nextNumber
  simp only [decide_eq_true_eq]
  omega

def memoryFlagDevice : FlagDevice DeviceInfo where
  toPartedDevice := memoryDevice
  rm_report := by
    intro align d d' n hstep
    rw [← Except.ok.inj hstep]
    exact ⟨rfl, flagsAt_rm d n⟩
  mkpart_flagsAt := by
    intro align d d' partType fsType partStart partEnd hstep
    rw [← Except.ok.inj hstep]
    refine ⟨flagsAt_nextNumber d, ?_⟩
    intro m hm
    exact (flagsAt_cons _ _ _ m).trans (if_neg fun h => hm h.symm)
  set_flagsAt := by
    intro align d d' n flag on hstep
    rw [← Except.ok.inj hstep]
    exact flagsAt_set d n flag on

end Memory

/-! ## Removing -/

section Absent

variable {σ : Type} {p : Params} {d : σ} {out : Outcome σ}

/-- State `absent` removes the partition of this number and nothing else, and
the next run has nothing to do; check mode announces a removal whether or not
there is such a partition. -/
theorem absent_removes (dev : FlagDevice σ) (hstate : p.state = .absent)
    (hmain : dev.main false p d = .ok out) :
    (∀ m, (dev.report out.device).flagsAt m =
        if p.number = some m ∧ m ≠ 0 then none
        else (dev.report d).flagsAt m) ∧
      (out.changed = true ↔ ∃ n, p.number = some n ∧ n ≠ 0 ∧
        (dev.report d).flagsAt n ≠ none) ∧
      dev.main false p out.device = .ok ⟨false, [], out.device⟩ ∧
      dev.main true p d = .ok ⟨true, [.rm p.number], d⟩ := by
  obtain ⟨⟨⟩, hcondition, habsent⟩ := bind_eq_ok_iff.mp hmain
  rw [hstate] at habsent
  obtain ⟨removed, hremoved, hout⟩ := bind_eq_ok_iff.mp habsent
  rw [parted_eq_ok_iff] at hremoved
  have hannounced : dev.main true p d = .ok ⟨true, [.rm p.number], d⟩ := by
    unfold PartedDevice.main
    rw [hcondition, ok_bind, hstate]
    simp [PartedDevice.absent, PartedDevice.parted, Params.removeScript]
  have hagain : ∀ d', partExists (dev.report d').partitions p.number = false →
      dev.main false p d' = .ok ⟨false, [], d'⟩ := by
    intro d' hnone
    unfold PartedDevice.main
    rw [hcondition, ok_bind, hstate]
    simp [PartedDevice.absent, PartedDevice.parted, Params.removeScript, hnone]
  obtain rfl := Except.ok.inj hout
  cases hexists : partExists (dev.report d).partitions p.number with
  | false =>
      have hscript : p.removeScript false (dev.report d) = [] := by
        unfold Params.removeScript
        rw [hexists]
        rfl
      have hnone : ¬∃ n, p.number = some n ∧ n ≠ 0 ∧
          (dev.report d).flagsAt n ≠ none := by
        rw [← partExists_number_iff, hexists]
        exact Bool.false_ne_true
      rw [hscript] at hremoved
      obtain rfl := Except.ok.inj hremoved
      refine ⟨?_, ?_, hagain _ hexists, hannounced⟩
      · intro m
        split_ifs with hm
        · by_contra hsome
          exact hnone ⟨m, hm.1, hm.2, hsome⟩
        · rfl
      · simpa [hscript] using hnone
  | true =>
      obtain ⟨n, hnumber, hn, hsome⟩ := partExists_number_iff.mp hexists
      have hscript : p.removeScript false (dev.report d) =
          [.rm (some n)] := by
        unfold Params.removeScript
        rw [hexists, hnumber]
        rfl
      rw [hscript, runAll] at hremoved
      obtain ⟨d', hstep, hd'⟩ := bind_eq_ok_iff.mp hremoved
      obtain rfl := Except.ok.inj hd'
      obtain ⟨-, hflags⟩ := dev.rm_report hstep
      have hgone : partExists (dev.report d').partitions p.number = false := by
        rw [Bool.eq_false_iff, ne_eq, partExists_number_iff, hnumber]
        rintro ⟨m, hm, -, hsome⟩
        obtain rfl := Option.some.inj hm
        rw [hflags, Function.update_self] at hsome
        exact hsome rfl
      refine ⟨?_, ?_, hagain _ hgone, hannounced⟩
      · intro m
        rw [hflags, hnumber]
        by_cases hm : m = n
        · subst hm
          rw [Function.update_self, if_pos ⟨rfl, hn⟩]
        · rw [Function.update_of_ne hm,
            if_neg fun h => hm (Option.some.inj h.1).symm]
      · rw [hscript]
        simp [hnumber, hn, hsome]

/-- A disk with two partitions. -/
def twoPartitions : DeviceInfo :=
  ⟨"gpt", [⟨1, ["boot"]⟩, ⟨2, []⟩]⟩

def removeFirst : Params :=
  { newPartition with
    partType := none
    partType_mem := by decide
    state := .absent }

theorem absent_removeFirst : ∃ out,
    memoryDevice.main false removeFirst twoPartitions = .ok out ∧
      out.changed = true ∧
      (∀ m, (out.device).flagsAt m =
        if removeFirst.number = some m ∧ m ≠ 0 then none
        else twoPartitions.flagsAt m) ∧
      memoryDevice.main false removeFirst out.device =
        .ok ⟨false, [], out.device⟩ := by
  refine ⟨_, rfl, rfl, ?_⟩
  have hruns := @absent_removes _ removeFirst twoPartitions _ memoryFlagDevice
    rfl rfl
  exact ⟨hruns.1, hruns.2.2.1⟩

end Absent

/-! ## Check mode -/

section CheckMode

variable {σ : Type} {p : Params} {d : σ} {out : Outcome σ}

/-- The task names the partition or sets its flags. -/
def Params.Adjusts (p : Params) : Prop :=
  truthyText p.name ≠ none ∨ ∃ flags, p.flags = some flags ∧ flags ≠ []

/-- The task does not name the partition, and it has the flags of the task. -/
def Params.AdjustedOn (p : Params) (info : DeviceInfo) : Prop :=
  truthyText p.name = none ∧ ∀ flags, p.flags = some flags → flags ≠ [] →
    ∀ flag, flag ∈ flags ↔ flag ∈ p.currentFlags false info

theorem nameScript_eq_nil_iff :
    p.nameScript = [] ↔ truthyText p.name = none := by
  unfold Params.nameScript
  cases truthyText p.name <;> simp

theorem adjustScript_eq_nil_iff {info : DeviceInfo} :
    p.adjustScript false info = [] ↔
      (partExists info.partitions p.number = true → p.AdjustedOn info) := by
  unfold Params.adjustScript Params.AdjustedOn
  rw [Bool.or_false, ← flagsScript_eq_nil_iff, ← nameScript_eq_nil_iff,
    ← List.append_eq_nil_iff]
  cases partExists info.partitions p.number with
  | false => simp
  | true => simp [withUnit_eq_nil_iff]

theorem adjustScript_checkMode_eq_nil_iff {info : DeviceInfo} :
    p.adjustScript true info = [] ↔ ¬p.Adjusts := by
  unfold Params.adjustScript Params.Adjusts
  rw [Bool.or_true, if_pos rfl, withUnit_eq_nil_iff, List.append_eq_nil_iff,
    nameScript_eq_nil_iff, flagsScript_eq_nil_iff]
  unfold Params.currentFlags
  rw [if_pos rfl, not_or, not_not, not_exists]
  simp only [List.not_mem_nil, iff_false]
  constructor
  · rintro ⟨hname, hflags⟩
    refine ⟨hname, ?_⟩
    rintro flags ⟨hgiven, hne⟩
    obtain ⟨flag, hflag⟩ := List.exists_mem_of_ne_nil flags hne
    exact hflags flags hgiven hne flag hflag
  · rintro ⟨hname, hflags⟩
    refine ⟨hname, ?_⟩
    intro flags hgiven hne
    exact absurd ⟨hgiven, hne⟩ (hflags flags)

/-- Check mode announces every change a run makes.  It announces one too many
exactly where the task names the partition or sets its flags, has nothing to
create, and the partition is missing or needs no adjusting. -/
theorem present_checkMode (dev : PartedDevice σ) (hstate : p.state = .present)
    (hmain : dev.main false p d = .ok out) :
    ∃ announced, dev.main true p d = .ok announced ∧ announced.device = d ∧
      (out.changed = true → announced.changed = true) ∧
      (announced.changed = true ∧ out.changed = false ↔
        p.createScript (dev.report d) = [] ∧ p.Adjusts ∧
          (partExists (dev.report d).partitions p.number = true →
            p.AdjustedOn (dev.report d))) := by
  obtain ⟨created, run⟩ := (main_eq_ok_iff hstate).mp hmain
  have hannounced : dev.main true p d = .ok {
      changed := p.createScript (dev.report d) ≠ [] ||
        p.adjustScript true (dev.report d) ≠ []
      script := p.createScript (dev.report d) ++
        p.adjustScript true (dev.report d)
      device := d } := by
    unfold PartedDevice.main
    rw [run.condition, ok_bind, hstate]
    simp [PartedDevice.present, PartedDevice.parted]
  have hreal : out.changed = true ↔ p.createScript (dev.report d) ≠ [] ∨
      p.adjustScript false (dev.report created) ≠ [] := by
    rw [run.changed]
    simp
  have hadjusts : p.adjustScript false (dev.report created) ≠ [] →
      p.Adjusts := by
    intro hscript
    by_contra hnone
    apply hscript
    rw [adjustScript_eq_nil_iff]
    intro _
    rw [Params.Adjusts, not_or, not_not] at hnone
    refine ⟨hnone.1, ?_⟩
    intro flags hgiven hne
    exact absurd ⟨flags, hgiven, hne⟩ hnone.2
  have hcreated : p.createScript (dev.report d) = [] → created = d := by
    intro hscript
    have hcreate := run.create
    rw [hscript] at hcreate
    exact (Except.ok.inj hcreate).symm
  refine ⟨_, hannounced, rfl, ?_, ?_⟩
  · rw [hreal]
    simp only [Bool.or_eq_true, decide_eq_true_eq, ne_eq,
      adjustScript_checkMode_eq_nil_iff, not_not]
    rintro (hcreate | hadjust)
    · exact Or.inl hcreate
    · exact Or.inr (hadjusts hadjust)
  · rw [← Bool.not_eq_true, hreal]
    simp only [Bool.or_eq_true, decide_eq_true_eq, ne_eq,
      adjustScript_checkMode_eq_nil_iff, not_not, not_or]
    constructor
    · rintro ⟨hannounced, hcreate, hadjust⟩
      obtain rfl := hcreated hcreate
      refine ⟨hcreate, hannounced.resolve_left fun h => h hcreate, ?_⟩
      exact adjustScript_eq_nil_iff.mp hadjust
    · rintro ⟨hcreate, hadjusts, hadjusted⟩
      obtain rfl := hcreated hcreate
      exact ⟨Or.inr hadjusts, hcreate, adjustScript_eq_nil_iff.mpr hadjusted⟩

/-- The flag that the first partition has already. -/
def bootFirst : Params :=
  { removeFirst with flags := some ["boot"], state := .present }

theorem present_checkMode_bootFirst : ∃ announced,
    memoryDevice.main true bootFirst twoPartitions = .ok announced ∧
      announced.device = twoPartitions ∧ announced.changed = true := by
  obtain ⟨announced, hannounced, hdevice, -, hiff⟩ :=
    @present_checkMode _ bootFirst twoPartitions
      ⟨false, [], twoPartitions⟩ memoryDevice rfl rfl
  have hadjusts : bootFirst.Adjusts :=
    Or.inr ⟨["boot"], rfl, List.cons_ne_nil _ _⟩
  have hadjusted : bootFirst.AdjustedOn twoPartitions := by
    refine ⟨rfl, ?_⟩
    intro flags hflags _ flag
    rw [← Option.some.inj hflags]
    rfl
  have hchanged := hiff.mpr ⟨rfl, hadjusts, fun _ => hadjusted⟩
  exact ⟨announced, hannounced, hdevice, hchanged.1⟩

end CheckMode

/-! ## Setting flags -/

section Present

variable {σ : Type} {p : Params} {d d' : σ} {out : Outcome σ} {n : ℤ}
  {align : String}

theorem setFlag_on (flag : String) (flags : Set String) :
    setFlag flag true flags = flags ∪ {flag} := rfl

theorem setFlag_off (flag : String) (flags : Set String) :
    setFlag flag false flags = flags \ {flag} := rfl

/-- What a run of `set` commands leaves of the flags. -/
theorem runAll_set (dev : FlagDevice σ) {on : Bool} {flags : List String}
    (hrun : runAll (dev.step align) d (flags.map (.set (some n) · on)) =
      .ok d') :
    (dev.report d').flagsAt = Function.update (dev.report d).flagsAt n
      (((dev.report d).flagsAt n).map fun current =>
        if on then current ∪ {flag | flag ∈ flags}
        else current \ {flag | flag ∈ flags}) := by
  induction flags generalizing d with
  | nil =>
      obtain rfl := Except.ok.inj hrun
      simp
  | cons flag rest ih =>
      obtain ⟨mid, hstep, hrest⟩ := bind_eq_ok_iff.mp hrun
      rw [ih hrest, dev.set_flagsAt hstep, Function.update_idem,
        Function.update_self, Option.map_map]
      congr 2
      funext current
      cases on with
      | true =>
          simp only [Function.comp_apply, setFlag_on, if_true, Set.union_assoc]
          congr 1
          ext x
          simp
      | false =>
          simp only [Function.comp_apply, setFlag_off, Bool.false_eq_true,
            if_false, Set.sdiff_sdiff]
          congr 1
          ext x
          simp

theorem runAll_withUnit (dev : PartedDevice σ) {script : List Command}
    (hrun : runAll (dev.step align) d (p.withUnit script) = .ok d') :
    ∃ mid, dev.report mid = dev.report d ∧
      runAll (dev.step align) mid script = .ok d' := by
  by_cases hscript : script = []
  · rw [hscript, withUnit_nil] at hrun
    rw [hscript]
    exact ⟨d, rfl, hrun⟩
  · rw [withUnit_of_ne_nil p hscript] at hrun
    obtain ⟨mid, hstep, hrest⟩ := bind_eq_ok_iff.mp hrun
    exact ⟨mid, dev.unit_report hstep, hrest⟩

theorem runAll_nameScript (dev : PartedDevice σ)
    (hrun : runAll (dev.step align) d p.nameScript = .ok d') :
    dev.report d' = dev.report d := by
  unfold Params.nameScript at hrun
  split at hrun
  · obtain ⟨mid, hstep, hrest⟩ := bind_eq_ok_iff.mp hrun
    obtain rfl := Except.ok.inj hrest
    exact dev.name_report hstep
  · rw [← Except.ok.inj hrun]

theorem runAll_flagsScript (dev : FlagDevice σ) {flags : List String}
    {current : Set String} (hnumber : p.number = some n)
    (hflags : p.flags = some flags) (hne : flags ≠ [])
    (hcurrent : (dev.report d).flagsAt n = some current)
    (hrun : runAll (dev.step align) d
      (p.flagsScript (p.currentFlags false (dev.report d))) = .ok d') :
    (dev.report d').flagsAt = Function.update (dev.report d).flagsAt n
      (some {flag | flag ∈ flags}) := by
  have hmem := mem_currentFlags hnumber hcurrent
  obtain ⟨first, rest, rfl⟩ := List.exists_cons_of_ne_nil hne
  unfold Params.flagsScript at hrun
  rw [hflags, hnumber] at hrun
  obtain ⟨mid, hon, hoff⟩ := runAll_append.mp hrun
  rw [runAll_set dev hoff, runAll_set dev hon, Function.update_idem,
    Function.update_self, hcurrent, Option.map_some, Option.map_some]
  congr 2
  ext flag
  simp only [if_true, Bool.false_eq_true, if_false, Set.mem_sdiff,
    Set.mem_union, Set.mem_ofPred_eq, List.mem_filter, List.mem_dedup,
    decide_eq_true_eq, hmem]
  tauto

/-- Creating a partition leaves the flags of those that are there. -/
theorem flagsAt_create (dev : FlagDevice σ)
    (hlabel : p.labelScript (dev.report d) = [])
    (hrun : runAll (dev.step align) d (p.createScript (dev.report d)) =
      .ok d') {m : ℤ} (hm : (dev.report d).flagsAt m ≠ none) :
    (dev.report d').flagsAt m = (dev.report d).flagsAt m := by
  unfold Params.createScript at hrun
  rw [hlabel, List.nil_append] at hrun
  obtain ⟨mid, hreport, hmkpart⟩ := runAll_withUnit dev.toPartedDevice hrun
  rw [← hreport] at hm ⊢
  unfold Params.mkpartScript at hmkpart
  split at hmkpart
  · split_ifs at hmkpart
    · rw [← Except.ok.inj hmkpart]
    · obtain ⟨after, hstep, hafter⟩ := bind_eq_ok_iff.mp hmkpart
      obtain rfl := Except.ok.inj hafter
      obtain ⟨hfree, hsame⟩ := dev.mkpart_flagsAt hstep
      apply hsame
      rintro rfl
      exact hm hfree
  · rw [← Except.ok.inj hmkpart]

theorem flagsAt_adjust (dev : FlagDevice σ) {flags : List String}
    (hnumber : p.number = some n) (hn : n ≠ 0) (hflags : p.flags = some flags)
    (hne : flags ≠ [])
    (hrun : runAll (dev.step align) d
      (p.adjustScript false (dev.report d)) = .ok d') :
    (dev.report d').flagsAt = Function.update (dev.report d).flagsAt n
      (((dev.report d).flagsAt n).map fun _ => {flag | flag ∈ flags}) := by
  unfold Params.adjustScript at hrun
  rw [Bool.or_false, hnumber] at hrun
  cases hcurrent : (dev.report d).flagsAt n with
  | none =>
      have hnone : ¬partExists (dev.report d).partitions (some n) = true := by
        rw [partExists_iff, hcurrent]
        simp
      rw [if_neg hnone] at hrun
      rw [← Except.ok.inj hrun, Option.map_none, ← hcurrent,
        Function.update_eq_self]
  | some current =>
      have hexists : partExists (dev.report d).partitions (some n) = true := by
        rw [partExists_iff, hcurrent]
        exact ⟨hn, Option.some_ne_none current⟩
      rw [if_pos hexists] at hrun
      obtain ⟨mid, hunit, hrun⟩ := runAll_withUnit dev.toPartedDevice hrun
      obtain ⟨named, hname, hset⟩ := runAll_append.mp hrun
      have hreport := (runAll_nameScript dev.toPartedDevice hname).trans hunit
      rw [← hreport] at hset hcurrent ⊢
      exact runAll_flagsScript dev hnumber hflags hne hcurrent hset

theorem main_of_no_script {dev : PartedDevice σ} (hstate : p.state = .present)
    (hcondition : p.condition = .ok ())
    (hcreate : p.createScript (dev.report d) = [])
    (hadjust : p.adjustScript false (dev.report d) = []) :
    dev.main false p d = .ok ⟨false, [], d⟩ := by
  have hidle : PresentRun dev p d ⟨false, [], d⟩ d := by
    refine ⟨hcondition, ?_, ?_, ?_, ?_⟩
    · rw [hcreate]
      rfl
    · rw [hadjust]
      rfl
    · rw [hcreate, hadjust]
      rfl
    · rw [hcreate, hadjust]
      rfl
  exact (main_eq_ok_iff hstate).mpr ⟨d, hidle⟩

/-- On a recognised table, and with no label asked for, a task that asks for
flags leaves its partition with just these flags, if there is such a
partition, and every other partition with the flags it had.  The next run
finds nothing to do unless the task names the partition. -/
theorem present_flags (dev : FlagDevice σ) {flags : List String}
    (hstate : p.state = .present) (hlabel : p.givenLabel = none)
    (hrecognised : (dev.report d).Recognised) (hnumber : p.number = some n)
    (hn : n ≠ 0) (hflags : p.flags = some flags) (hne : flags ≠ [])
    (hmain : dev.main false p d = .ok out) :
    let before := (dev.report d).flagsAt
    let after := (dev.report out.device).flagsAt
    (after n = none ∨ after n = some {flag | flag ∈ flags}) ∧
      (∀ m, before m ≠ none →
        if m = n then after m ≠ none else after m = before m) ∧
      (after n ≠ none →
        ((∃ again, dev.main false p out.device = .ok again ∧
            again.changed = false) ↔ truthyText p.name = none)) := by
  intro before after
  obtain ⟨created, run⟩ := (main_eq_ok_iff hstate).mp hmain
  have hnolabel := labelScript_of_recognised hrecognised hlabel
  have hafter : after = Function.update (dev.report created).flagsAt n
      (((dev.report created).flagsAt n).map fun _ =>
        {flag | flag ∈ flags}) :=
    flagsAt_adjust dev hnumber hn hflags hne run.adjust
  have hcreate : ∀ m, before m ≠ none →
      (dev.report created).flagsAt m = before m :=
    fun m => flagsAt_create dev hnolabel run.create
  refine ⟨?_, ?_, ?_⟩
  · rw [hafter, Function.update_self]
    cases (dev.report created).flagsAt n with
    | none => exact Or.inl rfl
    | some current => exact Or.inr rfl
  · intro m hm
    split_ifs with hmn
    · subst hmn
      rw [hafter, Function.update_self, hcreate m hm, ne_eq,
        Option.map_eq_none_iff]
      exact hm
    · rw [hafter, Function.update_of_ne hmn, hcreate m hm]
  · intro hthere
    have hexists : partExists (dev.report out.device).partitions p.number =
        true := partExists_number_iff.mpr ⟨n, hnumber, hn, hthere⟩
    have hset : after n = some {flag | flag ∈ flags} := by
      rw [hafter, Function.update_self] at hthere ⊢
      cases hcurrent : (dev.report created).flagsAt n with
      | none => simp [hcurrent] at hthere
      | some current => rfl
    have hadjusted : truthyText p.name = none →
        p.AdjustedOn (dev.report out.device) := by
      intro hname
      refine ⟨hname, ?_⟩
      intro other hother _ flag
      rw [hflags] at hother
      rw [mem_currentFlags hnumber hset, ← Option.some.inj hother]
      rfl
    constructor
    · rintro ⟨again, hagain, hchanged⟩
      obtain ⟨created', run'⟩ := (main_eq_ok_iff hstate).mp hagain
      rw [run'.changed, Bool.or_eq_false_iff, decide_eq_false_iff_not,
        decide_eq_false_iff_not, not_not, not_not] at hchanged
      have hcreated := run'.create
      rw [hchanged.1] at hcreated
      obtain rfl := Except.ok.inj hcreated
      exact (adjustScript_eq_nil_iff.mp hchanged.2 hexists).1
    · intro hname
      have hkept := run.keptIn hnolabel
      have hrecognisedAfter : (dev.report out.device).Recognised := by
        unfold DeviceInfo.Recognised
        rw [hkept.1]
        exact hrecognised
      have hnocreate : p.createScript (dev.report out.device) = [] := by
        rw [Params.createScript, labelScript_of_recognised hrecognisedAfter
          hlabel, mkpartScript_of_partExists hexists]
        exact withUnit_nil p
      have hnoadjust : p.adjustScript false (dev.report out.device) = [] :=
        adjustScript_eq_nil_iff.mpr fun _ => hadjusted hname
      exact ⟨_, main_of_no_script hstate run.condition hnocreate hnoadjust,
        rfl⟩

/-- Another flag for the first partition. -/
def lvmFirst : Params :=
  { removeFirst with flags := some ["lvm"], state := .present }

theorem present_lvmFirst : ∃ out,
    memoryDevice.main false lvmFirst twoPartitions = .ok out ∧
      (out.device.flagsAt 1 = none ∨
        out.device.flagsAt 1 = some {flag | flag ∈ ["lvm"]}) ∧
      out.device.flagsAt 2 = twoPartitions.flagsAt 2 := by
  refine ⟨_, rfl, ?_⟩
  have hruns := @present_flags _ lvmFirst twoPartitions _ 1 memoryFlagDevice
    ["lvm"] rfl rfl (by decide) rfl (by decide) rfl (by decide) rfl
  exact ⟨hruns.1, hruns.2.1 2 (Option.some_ne_none _)⟩

end Present

end FreeipaProv.Parted
