import Mathlib.Logic.Relation
import Mathlib.Order.Bounds.Basic
import Mathlib.Tactic

/-!
# Concurrent runs that only add

Several runs work on one store, whose values form a join-semilattice.  A run
looks at the store once, decides which values to add so that the store has
what it wants, and then sends them one by one; steps of different runs
interleave in any way.  Since nothing is ever taken away, a stale look does
no harm: once every run that has looked has sent all its values, the store is
the least value above the initial one and above everything these runs want.
-/

namespace Accumulate

variable {ι α : Type} [SemilatticeSup α]

/-- The store, and for each run that has looked at it what is left to
send. -/
structure Config (ι α : Type) where
  store : α
  pending : ι → Option (List α)

def Config.initial (init : α) : Config ι α where
  store := init
  pending _ := none

/-- What the store is once the values have been sent. -/
def after (store : α) (values : List α) : α :=
  values.foldl (· ⊔ ·) store

theorem le_after (store : α) (values : List α) :
    store ≤ after store values := by
  induction values generalizing store with
  | nil => exact le_refl store
  | cons value rest ih =>
      calc store ≤ store ⊔ value := le_sup_left
        _ ≤ after (store ⊔ value) rest := ih _

theorem le_after_of_mem {store value : α} {values : List α}
    (hvalue : value ∈ values) : value ≤ after store values := by
  induction values generalizing store with
  | nil => contradiction
  | cons first rest ih =>
      rcases List.mem_cons.mp hvalue with rfl | hmem
      · calc value ≤ store ⊔ value := le_sup_right
          _ ≤ after (store ⊔ value) rest := le_after _ _
      · exact ih hmem

theorem after_mono {store store' : α} (hle : store ≤ store')
    (values : List α) : after store values ≤ after store' values := by
  induction values generalizing store store' with
  | nil => exact hle
  | cons value rest ih =>
      apply ih
      exact sup_le_sup_right hle value

/-- What is left to send suffices for what a run wants, and nothing exceeds
what the runs that have looked want. -/
structure Inv (want : ι → α) (init : α) (c : Config ι α) : Prop where
  start : init ≤ c.store
  enough : ∀ i values, c.pending i = some values →
    want i ≤ after c.store values
  store_le : ∀ bound, init ≤ bound →
    (∀ i, c.pending i ≠ none → want i ≤ bound) → c.store ≤ bound
  pending_le : ∀ i values, c.pending i = some values →
    ∀ value ∈ values, value ≤ want i

theorem inv_initial (want : ι → α) (init : α) :
    Inv want init (Config.initial init) where
  start := le_refl init
  enough := by
    intro i values hpending
    contradiction
  store_le := fun bound hbound _ => hbound
  pending_le := by
    intro i values hpending
    contradiction

section Step

variable [DecidableEq ι]

inductive Step (want : ι → α) : Config ι α → Config ι α → Prop where
  | look {c : Config ι α} {i : ι} {values : List α}
      (hwaiting : c.pending i = none)
      (henough : want i ≤ after c.store values)
      (hbound : ∀ value ∈ values, value ≤ want i) :
      Step want c { c with pending := Function.update c.pending i (some values) }
  | send {c : Config ι α} {i : ι} {value : α} {rest : List α}
      (hpending : c.pending i = some (value :: rest)) :
      Step want c {
        store := c.store ⊔ value
        pending := Function.update c.pending i (some rest) }

theorem Inv.look {want : ι → α} {init : α} {c : Config ι α} {i : ι}
    {values : List α} (hinv : Inv want init c) (hwaiting : c.pending i = none)
    (henough : want i ≤ after c.store values)
    (hbound : ∀ value ∈ values, value ≤ want i) :
    Inv want init
      { c with pending := Function.update c.pending i (some values) } where
  start := hinv.start
  enough := by
    intro j values' hpending
    dsimp only at hpending ⊢
    by_cases hj : j = i
    · subst hj
      rw [Function.update_self] at hpending
      exact Option.some.inj hpending ▸ henough
    · rw [Function.update_of_ne hj] at hpending
      exact hinv.enough j values' hpending
  store_le := by
    intro bound hinit hwants
    apply hinv.store_le bound hinit
    intro j hj
    apply hwants
    have hne : j ≠ i := by
      rintro rfl
      exact hj hwaiting
    dsimp only
    rwa [Function.update_of_ne hne]
  pending_le := by
    intro j values' hpending
    dsimp only at hpending
    by_cases hj : j = i
    · subst hj
      rw [Function.update_self] at hpending
      exact Option.some.inj hpending ▸ hbound
    · rw [Function.update_of_ne hj] at hpending
      exact hinv.pending_le j values' hpending

theorem Inv.send {want : ι → α} {init : α} {c : Config ι α} {i : ι}
    {value : α} {rest : List α} (hinv : Inv want init c)
    (hsend : c.pending i = some (value :: rest)) :
    Inv want init
      { store := c.store ⊔ value
        pending := Function.update c.pending i (some rest) } where
  start := hinv.start.trans le_sup_left
  enough := by
    intro j values hpending
    dsimp only at hpending ⊢
    by_cases hj : j = i
    · subst hj
      rw [Function.update_self] at hpending
      exact Option.some.inj hpending ▸ hinv.enough j _ hsend
    · rw [Function.update_of_ne hj] at hpending
      -- the other run adds to the store, so what is left still suffices
      calc want j ≤ after c.store values := hinv.enough j values hpending
        _ ≤ after (c.store ⊔ value) values := after_mono le_sup_left values
  store_le := by
    intro bound hinit hwants
    have hlooked : ∀ j, c.pending j ≠ none → want j ≤ bound := by
      intro j hj
      apply hwants
      dsimp only
      by_cases hji : j = i
      · subst hji
        simp
      · rwa [Function.update_of_ne hji]
    apply sup_le (hinv.store_le bound hinit hlooked)
    calc value ≤ want i := hinv.pending_le i _ hsend value List.mem_cons_self
      _ ≤ bound := hlooked i (by simp [hsend])
  pending_le := by
    intro j values hpending
    dsimp only at hpending
    by_cases hj : j = i
    · subst hj
      rw [Function.update_self] at hpending
      obtain rfl := Option.some.inj hpending
      intro value' hvalue
      exact hinv.pending_le j _ hsend value' (List.mem_cons_of_mem value hvalue)
    · rw [Function.update_of_ne hj] at hpending
      exact hinv.pending_le j values hpending

theorem Inv.step {want : ι → α} {init : α} {c c' : Config ι α}
    (hinv : Inv want init c) (hstep : Step want c c') : Inv want init c' := by
  cases hstep with
  | look hwaiting henough hbound => exact hinv.look hwaiting henough hbound
  | send hsend => exact hinv.send hsend

theorem inv_run {want : ι → α} {init : α} {c : Config ι α}
    (hrun : Relation.ReflTransGen (Step want) (Config.initial init) c) :
    Inv want init c := by
  induction hrun with
  | refl => exact inv_initial want init
  | tail _ hstep ih => exact ih.step hstep

/-- Once every run that has looked has sent everything, the store is the
least one above the initial store and above what these runs want. -/
theorem isLUB_of_sent {want : ι → α} {init : α} {c : Config ι α}
    (hrun : Relation.ReflTransGen (Step want) (Config.initial init) c)
    (hsent : ∀ i, c.pending i = none ∨ c.pending i = some []) :
    IsLUB (insert init (want '' {i | c.pending i ≠ none})) c.store := by
  have hinv := inv_run hrun
  constructor
  · rintro value (rfl | ⟨i, hi, rfl⟩)
    · exact hinv.start
    · exact hinv.enough i [] ((hsent i).resolve_left hi)
  · intro bound hbound
    apply hinv.store_le bound (hbound (Set.mem_insert _ _))
    intro i hi
    exact hbound (Set.mem_insert_of_mem _ ⟨i, hi, rfl⟩)

end Step

end Accumulate
