import Mathlib.Data.Set.Basic
import Mathlib.Tactic

/-!
# Bringing a store to its goal

A store keeps a set of values under each list key and at most one value under
each scalar key.  Edits add or remove one value of a list or set one scalar.
A client that compares the store with a goal sends the edits the goal needs;
in which order, and in how many requests, makes no difference.  A goal that
is computed from the store itself is stable when edits towards it do not move
it, and then a client that is stopped half-way and starts again ends in the
same store.
-/

namespace Reconcile

variable {K V A : Type}

@[ext] structure Store (K V A : Type) where
  lists : K → Set V
  scalars : K → Option A

inductive Edit (K V A : Type) where
  | add (key : K) (val : V)
  | del (key : K) (val : V)
  | set (key : K) (val : Option A)

def Store.blank : Store K V A where
  lists _ := ∅
  scalars _ := none

/-- The edit leads towards the goal. -/
def Edit.Agrees (goal : Store K V A) : Edit K V A → Prop
  | .add key val => val ∈ goal.lists key
  | .del key val => val ∉ goal.lists key
  | .set key val => goal.scalars key = val

/-- The store differs from the goal where the edit changes it. -/
def Edit.Needed (goal s : Store K V A) : Edit K V A → Prop
  | .add key val => val ∈ goal.lists key ∧ val ∉ s.lists key
  | .del key val => val ∉ goal.lists key ∧ val ∈ s.lists key
  | .set key val => goal.scalars key = val ∧ s.scalars key ≠ val

theorem Edit.Needed.agrees {goal s : Store K V A} {e : Edit K V A}
    (hneeded : e.Needed goal s) : e.Agrees goal := by
  cases e <;> exact hneeded.1

/-- A store that needs no edit is its goal. -/
theorem Store.eq_of_not_needed {goal s : Store K V A}
    (hnone : ∀ e : Edit K V A, ¬e.Needed goal s) : s = goal := by
  apply Store.ext
  · funext key
    apply Set.Subset.antisymm
    · intro val hval
      by_contra hnot
      exact hnone (.del key val) ⟨hnot, hval⟩
    · intro val hval
      by_contra hnot
      exact hnone (.add key val) ⟨hval, hnot⟩
  · funext key
    by_contra hne
    exact hnone (.set key (goal.scalars key)) ⟨rfl, hne⟩

section Apply

variable [DecidableEq K]

def Store.apply (s : Store K V A) : Edit K V A → Store K V A
  | .add key val =>
      { s with lists := Function.update s.lists key (insert val (s.lists key)) }
  | .del key val =>
      { s with lists := Function.update s.lists key (s.lists key \ {val}) }
  | .set key val => { s with scalars := Function.update s.scalars key val }

def Store.applyAll (s : Store K V A) (edits : List (Edit K V A)) :
    Store K V A :=
  edits.foldl Store.apply s

@[simp] theorem Store.applyAll_nil (s : Store K V A) : s.applyAll [] = s := rfl

theorem Store.applyAll_append (s : Store K V A)
    (first second : List (Edit K V A)) :
    s.applyAll (first ++ second) = (s.applyAll first).applyAll second :=
  List.foldl_append

theorem Store.mem_lists_apply {s : Store K V A} {e : Edit K V A} {key : K}
    {val : V} :
    val ∈ (s.apply e).lists key ↔
      e = .add key val ∨ (val ∈ s.lists key ∧ e ≠ .del key val) := by
  cases e with
  | add key' val' =>
      by_cases hkey : key = key'
      · subst hkey
        simp [Store.apply, eq_comm]
      · simp [Store.apply, hkey, Ne.symm hkey]
  | del key' val' =>
      by_cases hkey : key = key'
      · subst hkey
        simp [Store.apply, eq_comm]
      · simp [Store.apply, hkey, Ne.symm hkey]
  | set key' val' => simp [Store.apply]

/-- Where no value is both added and removed, the order of the edits makes no
difference to the lists. -/
theorem Store.mem_lists_applyAll {s : Store K V A} {edits : List (Edit K V A)}
    {key : K} {val : V}
    (hdisjoint : .add key val ∈ edits → .del key val ∉ edits) :
    val ∈ (s.applyAll edits).lists key ↔
      .add key val ∈ edits ∨ (val ∈ s.lists key ∧ .del key val ∉ edits) := by
  induction edits generalizing s with
  | nil => simp
  | cons e rest ih =>
      have hrest : (.add key val : Edit K V A) ∈ rest →
          (.del key val : Edit K V A) ∉ rest := fun hadd hdel =>
        hdisjoint (List.mem_cons_of_mem e hadd) (List.mem_cons_of_mem e hdel)
      change val ∈ ((s.apply e).applyAll rest).lists key ↔ _
      rw [ih hrest, Store.mem_lists_apply]
      simp only [List.mem_cons]
      by_cases hadd : e = .add key val
      · subst hadd
        have hnot : (.del key val : Edit K V A) ∉ rest := fun hdel =>
          hdisjoint List.mem_cons_self (List.mem_cons_of_mem _ hdel)
        simp [hnot]
      · simp only [hadd, Ne.symm hadd, false_or, ne_eq, @eq_comm _ _ e]
        tauto

theorem Store.scalars_apply_set (s : Store K V A) (key : K)
    (val : Option A) : (s.apply (.set key val)).scalars key = val := by
  simp [Store.apply]

theorem Store.scalars_apply_of_ne {s : Store K V A} {e : Edit K V A} {key : K}
    (hne : ∀ val, e ≠ .set key val) :
    (s.apply e).scalars key = s.scalars key := by
  cases e with
  | add | del => rfl
  | set key' val =>
      have hkey : key ≠ key' := by
        rintro rfl
        exact hne val rfl
      simp [Store.apply, hkey]

/-! ## Reaching a goal -/

/-- After an edit towards the goal, the other needed edits are left. -/
theorem Edit.Needed.of_apply {goal s : Store K V A} {e e' : Edit K V A}
    (hagrees : e.Agrees goal) (hneeded : e'.Needed goal (s.apply e)) :
    e'.Needed goal s ∧ e' ≠ e := by
  cases e' with
  | add key val =>
      obtain ⟨hgoal, hnot⟩ := hneeded
      rw [Store.mem_lists_apply, not_or, not_and, not_not] at hnot
      refine ⟨⟨hgoal, fun hval => ?_⟩, Ne.symm hnot.1⟩
      have hdel := hnot.2 hval
      subst hdel
      exact hagrees hgoal
  | del key val =>
      obtain ⟨hgoal, hmem⟩ := hneeded
      rw [Store.mem_lists_apply] at hmem
      rcases hmem with rfl | ⟨hval, hne⟩
      · exact absurd hagrees hgoal
      · exact ⟨⟨hgoal, hval⟩, Ne.symm hne⟩
  | set key val =>
      obtain ⟨hgoal, hval⟩ := hneeded
      have hne : ∀ val', e ≠ .set key val' := by
        rintro val' rfl
        rw [Store.scalars_apply_set] at hval
        exact hval (hagrees.symm.trans hgoal)
      rw [Store.scalars_apply_of_ne hne] at hval
      exact ⟨⟨hgoal, hval⟩, Ne.symm (hne val)⟩

/-- Edits that lead towards the goal and include all it needs reach it, in
any order. -/
theorem Store.applyAll_eq_goal {goal s : Store K V A}
    {edits : List (Edit K V A)} (hagrees : ∀ e ∈ edits, e.Agrees goal)
    (hcover : ∀ e : Edit K V A, e.Needed goal s → e ∈ edits) :
    s.applyAll edits = goal := by
  induction edits generalizing s with
  | nil =>
      apply Store.eq_of_not_needed
      intro e hneeded
      exact absurd (hcover e hneeded) List.not_mem_nil
  | cons e rest ih =>
      have hrest : ∀ e' : Edit K V A,
          e'.Needed goal (s.apply e) → e' ∈ rest := by
        intro e' hneeded
        obtain ⟨hbefore, hne⟩ :=
          Edit.Needed.of_apply (hagrees e List.mem_cons_self) hneeded
        exact (List.mem_cons.mp (hcover e' hbefore)).resolve_left hne
      exact ih (fun e' he' => hagrees e' (List.mem_cons_of_mem e he')) hrest

/-! ## Goals computed from the store -/

/-- Edits towards the goal of a store do not move the goal. -/
def Stable (plan : Store K V A → Store K V A) : Prop :=
  ∀ (s : Store K V A) (e : Edit K V A),
    e.Agrees (plan s) → plan (s.apply e) = plan s

theorem Stable.applyAll {plan : Store K V A → Store K V A}
    (hstable : Stable plan) {s : Store K V A} {edits : List (Edit K V A)}
    (hagrees : ∀ e ∈ edits, e.Agrees (plan s)) :
    plan (s.applyAll edits) = plan s := by
  induction edits generalizing s with
  | nil => rfl
  | cons e rest ih =>
      have hfirst := hstable s e (hagrees e List.mem_cons_self)
      have hrest : plan ((s.apply e).applyAll rest) = plan (s.apply e) := by
        apply ih
        intro e' he'
        rw [hfirst]
        exact hagrees e' (List.mem_cons_of_mem e he')
      exact hrest.trans hfirst

end Apply

/-- What is wanted comes on top of what the store has. -/
def Store.merge (want s : Store K V A) : Store K V A where
  lists key := s.lists key ∪ want.lists key
  scalars key := (want.scalars key).or (s.scalars key)

/-- What is wanted replaces what the store has under the given list and
scalar keys. -/
def Store.override (listKeys scalarKeys : K → Prop) [DecidablePred listKeys]
    [DecidablePred scalarKeys] (want s : Store K V A) : Store K V A where
  lists key := if listKeys key then want.lists key else s.lists key
  scalars key := if scalarKeys key then want.scalars key else s.scalars key

section Override

variable (listKeys scalarKeys : K → Prop) [DecidablePred listKeys]
  [DecidablePred scalarKeys]

variable [DecidableEq K]

end Override

end Reconcile
