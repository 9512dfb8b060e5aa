import Mathlib.Tactic

/-!
# A source and what is derived from it

Both are made once, when they are missing or when their making is forced.
The derived one is not made again when a new source replaces the one that it
was made from.
-/

namespace Derived

/-- Whether there is a source and a derived one, and whether the second was
made from the first. -/
structure Link where
  source : Bool
  derived : Bool
  linked : Bool
  deriving DecidableEq, Repr

inductive Op where
  | makeSource (forced : Bool)
  | makeDerived (forced : Bool)
  | dropSource
  | dropDerived
  deriving DecidableEq, Repr

/-- What can make the derived one again. -/
def Op.Renews : Op → Prop
  | .makeDerived forced => forced = true
  | .dropDerived => True
  | .makeSource _ | .dropSource => False

namespace Link

def step (l : Link) : Op → Link
  | .makeSource forced =>
      if l.source && !forced then l else ⟨true, l.derived, false⟩
  | .makeDerived forced =>
      if l.derived && !forced then l else ⟨l.source, true, l.source⟩
  | .dropSource => ⟨false, l.derived, false⟩
  | .dropDerived => ⟨l.source, false, false⟩

def run (l : Link) (ops : List Op) : Link :=
  ops.foldl step l

@[simp] theorem run_nil (l : Link) : l.run [] = l := rfl

@[simp] theorem run_cons (l : Link) (op : Op) (ops : List Op) :
    l.run (op :: ops) = (l.step op).run ops := rfl

theorem run_append (l : Link) (ops later : List Op) :
    l.run (ops ++ later) = (l.run ops).run later := by
  rw [run, List.foldl_append]
  rfl

/-! ## What stays linked, and what stays stale -/

/-- What is linked is there. -/
def Sound (l : Link) : Prop :=
  l.linked = true → l.source = true ∧ l.derived = true

theorem Sound.step {l : Link} (hsound : l.Sound) (op : Op) :
    (l.step op).Sound := by
  cases op with
  | makeSource forced =>
      rw [Link.step]
      split_ifs
      · exact hsound
      · intro hlinked
        exact absurd hlinked Bool.false_ne_true
  | makeDerived forced =>
      rw [Link.step]
      split_ifs
      · exact hsound
      · intro hlinked
        exact ⟨hlinked, rfl⟩
  | dropSource =>
      intro hlinked
      exact absurd hlinked Bool.false_ne_true
  | dropDerived =>
      intro hlinked
      exact absurd hlinked Bool.false_ne_true

theorem Sound.run {l : Link} (hsound : l.Sound) (ops : List Op) :
    (l.run ops).Sound := by
  induction ops generalizing l with
  | nil => exact hsound
  | cons op rest ih => exact ih (hsound.step op)

/-- A derived one that is not of the source stays so until it is dropped or
its making is forced. -/
theorem stale_run {l : Link} {ops : List Op} (hderived : l.derived = true)
    (hlinked : l.linked = false) (hops : ∀ op ∈ ops, ¬ op.Renews) :
    (l.run ops).derived = true ∧ (l.run ops).linked = false := by
  induction ops generalizing l with
  | nil => exact ⟨hderived, hlinked⟩
  | cons op rest ih =>
      have hop : ¬ op.Renews := hops op List.mem_cons_self
      have hrest : ∀ op ∈ rest, ¬ op.Renews :=
        fun op hmem => hops op (List.mem_cons_of_mem _ hmem)
      have hstep : (l.step op).derived = true ∧ (l.step op).linked = false := by
        cases op with
        | makeSource forced =>
            rw [step]
            split_ifs
            · exact ⟨hderived, hlinked⟩
            · exact ⟨hderived, rfl⟩
        | makeDerived forced =>
            have hforced : forced = false := Bool.eq_false_of_not_eq_true hop
            rw [step, hderived, hforced]
            exact ⟨hderived, hlinked⟩
        | dropSource => exact ⟨hderived, rfl⟩
        | dropDerived => exact absurd trivial hop
      exact ih hstep.1 hstep.2 hrest

/-! ## Passes that force nothing -/

/-- Make both, if they are missing. -/
def pass : List Op :=
  [.makeSource false, .makeDerived false]

theorem run_pass (l : Link) (hsound : l.Sound) :
    l.run pass = ⟨true, true, !l.derived || l.linked⟩ := by
  have hlinked : l.linked = true → l.source = true ∧ l.derived = true := hsound
  obtain ⟨source, derived, linked⟩ := l
  cases source <;> cases derived <;> cases linked <;> simp_all [pass, step]

/-- However many passes there are, the first one decides. -/
theorem run_passes (l : Link) (hsound : l.Sound) (passes : ℕ) :
    l.run (List.replicate (passes + 1) pass).flatten =
      ⟨true, true, !l.derived || l.linked⟩ := by
  induction passes with
  | zero =>
      rw [List.replicate_one, List.flatten_singleton]
      exact run_pass l hsound
  | succ passes ih =>
      have hone : l.run (List.replicate (passes + 1 + 1) pass).flatten =
          (l.run (List.replicate (passes + 1) pass).flatten).run pass := by
        rw [List.replicate_succ', List.flatten_append, List.flatten_singleton,
          run_append]
      have hnext := hsound.run (List.replicate (passes + 1) pass).flatten
      rw [hone, run_pass _ hnext, ih]
      rfl

end Link

end Derived
