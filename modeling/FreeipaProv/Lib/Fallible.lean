import Mathlib.Tactic

/-!
# Computations that may fail

Rules for taking apart successful runs of `Except` computations, and a filter
whose predicate may fail.
-/

namespace Fallible

variable {ε α β : Type}

theorem bind_eq_ok_iff {step : Except ε α} {next : α → Except ε β}
    {result : β} :
    (step >>= next) = .ok result ↔
      ∃ value, step = .ok value ∧ next value = .ok result := by
  cases step <;> simp [bind, Except.bind]

theorem map_eq_ok_iff {f : α → β} {step : Except ε α} {result : β} :
    step.map f = .ok result ↔ ∃ value, step = .ok value ∧ f value = result := by
  cases step <;> simp [Except.map]

@[simp] theorem ok_bind (value : α) (next : α → Except ε β) :
    ((Except.ok value : Except ε α) >>= next) = next value := rfl

@[simp] theorem error_bind (err : ε) (next : α → Except ε β) :
    ((Except.error err : Except ε α) >>= next) = .error err := rfl

/-- Keep the members on which `keep` holds; the first failure of `keep` is
the failure of the filter. -/
def filter (keep : α → Except ε Bool) : List α → Except ε (List α)
  | [] => .ok []
  | a :: rest => do
      let kept ← keep a
      let others ← filter keep rest
      .ok (if kept then a :: others else others)

/-- A filter that does not fail keeps what a predicate that agrees with it
keeps. -/
theorem filter_eq_ok_filter {keep : α → Except ε Bool} {p : α → Bool}
    (hagree : ∀ a b, keep a = .ok b → p a = b) {items kept : List α}
    (hok : filter keep items = .ok kept) : kept = items.filter p := by
  induction items generalizing kept with
  | nil => exact (Except.ok.inj hok).symm
  | cons a rest ih =>
      obtain ⟨b, hb, htail⟩ := bind_eq_ok_iff.mp hok
      obtain ⟨others, hothers, hresult⟩ := bind_eq_ok_iff.mp htail
      rw [← Except.ok.inj hresult, ih hothers, List.filter_cons, hagree a b hb]

theorem filter_map {f : β → α} {keep : α → Except ε Bool} {items : List β} :
    filter keep (items.map f) =
      (filter (keep ∘ f) items).map fun kept => kept.map f := by
  induction items with
  | nil => rfl
  | cons b rest ih =>
      rw [List.map_cons, filter, filter, ih, Function.comp_apply]
      cases keep (f b) with
      | error err => rfl
      | ok kept =>
          cases filter (keep ∘ f) rest with
          | error err => rfl
          | ok others => cases kept <;> rfl

theorem filter_isOk {keep : α → Except ε Bool} {items : List α}
    (hsteps : ∀ a ∈ items, ∃ b, keep a = .ok b) :
    ∃ kept, filter keep items = .ok kept := by
  induction items with
  | nil => exact ⟨[], rfl⟩
  | cons a rest ih =>
      obtain ⟨b, hb⟩ := hsteps a List.mem_cons_self
      obtain ⟨others, hothers⟩ :=
        ih fun c hc => hsteps c (List.mem_cons_of_mem a hc)
      exact ⟨if b then a :: others else others, by simp [filter, hb, hothers]⟩

/-- A filter that does not fail has tested every item. -/
theorem filter_step_isOk {keep : α → Except ε Bool} {items kept : List α}
    (hok : filter keep items = .ok kept) {a : α} (ha : a ∈ items) :
    ∃ b, keep a = .ok b := by
  induction items generalizing kept with
  | nil => contradiction
  | cons c rest ih =>
      obtain ⟨b, hb, htail⟩ := bind_eq_ok_iff.mp hok
      obtain ⟨others, hothers, -⟩ := bind_eq_ok_iff.mp htail
      rcases List.mem_cons.mp ha with rfl | hrest
      · exact ⟨b, hb⟩
      · exact ih hothers hrest

/-- What each item is read as. -/
theorem mapM_map_eq_ok {γ : Type} {write : γ → α} {read : α → Except ε β}
    {value : γ → β} {items : List γ}
    (hread : ∀ c ∈ items, read (write c) = .ok (value c)) :
    (items.map write).mapM read = .ok (items.map value) := by
  induction items with
  | nil => rfl
  | cons c rest ih =>
      rw [List.map_cons, List.mapM_cons, hread c List.mem_cons_self,
        ih fun d hd => hread d (List.mem_cons_of_mem c hd)]
      rfl

/-! ## Runs of steps that may fail -/

section RunAll

variable {σ : Type} {step : σ → α → Except ε σ}

/-- Take the steps one after the other. -/
def runAll (step : σ → α → Except ε σ) : σ → List α → Except ε σ
  | s, [] => .ok s
  | s, a :: rest => do
      let s ← step s a
      runAll step s rest

theorem runAll_append {s s' : σ} {first second : List α} :
    runAll step s (first ++ second) = .ok s' ↔
      ∃ mid, runAll step s first = .ok mid ∧
        runAll step mid second = .ok s' := by
  induction first generalizing s with
  | nil => simp [runAll]
  | cons a rest ih =>
      rw [List.cons_append, runAll, runAll]
      cases step s a with
      | error err => simp
      | ok s₁ => simpa using ih

/-- What every step keeps holds after the run. -/
theorem runAll_invariant (inv : σ → Prop) {items : List α} {s s' : σ}
    (hstep : ∀ a ∈ items, ∀ s s', inv s → step s a = .ok s' → inv s')
    (hinv : inv s) (hrun : runAll step s items = .ok s') : inv s' := by
  induction items generalizing s with
  | nil => exact Except.ok.inj hrun ▸ hinv
  | cons a rest ih =>
      obtain ⟨s₁, hs₁, hrest⟩ := bind_eq_ok_iff.mp hrun
      exact ih (fun b hb => hstep b (List.mem_cons_of_mem a hb))
        (hstep a List.mem_cons_self s s₁ hinv hs₁) hrest

end RunAll

end Fallible
