import Mathlib.Tactic

/-!
# Dialogues with a server

A party that asks one question after the other and chooses each one by the
answers it has got.  Its questions may be put through another dialogue, as
when each request of an interface is sent over a wire; a run of the
translated dialogue is a run of the original one against the server that the
wire makes of the one behind it.
-/

namespace Dialogue

variable {Q A Q' A' R S σ τ ε : Type}

inductive Talk (Q A R : Type) where
  | done (result : R)
  | ask (question : Q) (next : A → Talk Q A R)

namespace Talk

def bind : Talk Q A R → (R → Talk Q A S) → Talk Q A S
  | .done result, rest => rest result
  | .ask question next, rest => .ask question fun answer =>
      (next answer).bind rest

/-- Go on with the result of a computation that may fail. -/
def attempt {α : Type} (outcome : Except ε α)
    (next : α → Talk Q A (Except ε R)) : Talk Q A (Except ε R) :=
  match outcome with
  | .ok value => next value
  | .error err => .done (.error err)

/-- Ask each question through a dialogue of its own. -/
def through (translate : Q → Talk Q' A' A) : Talk Q A R → Talk Q' A' R
  | .done result => .done result
  | .ask question next => (translate question).bind fun answer =>
      (next answer).through translate

/-- The result, and the server afterwards. -/
def run (serve : σ → Q → A × σ) (s : σ) : Talk Q A R → R × σ
  | .done result => (result, s)
  | .ask question next =>
      (next (serve s question).1).run serve (serve s question).2

/-- The questions a run asks. -/
def asked (serve : σ → Q → A × σ) (s : σ) : Talk Q A R → List Q
  | .done _ => []
  | .ask question next =>
      question :: (next (serve s question).1).asked serve (serve s question).2

@[simp] theorem run_done (serve : σ → Q → A × σ) (s : σ) (result : R) :
    (done result : Talk Q A R).run serve s = (result, s) := rfl

@[simp] theorem asked_done (serve : σ → Q → A × σ) (s : σ) (result : R) :
    (done result : Talk Q A R).asked serve s = [] := rfl

@[simp] theorem attempt_ok {α : Type} (value : α)
    (next : α → Talk Q A (Except ε R)) :
    attempt (.ok value) next = next value := rfl

@[simp] theorem attempt_error {α : Type} (err : ε)
    (next : α → Talk Q A (Except ε R)) :
    attempt (.error err) next = done (.error err) := rfl

/-! ## One dialogue after another -/

theorem run_bind (serve : σ → Q → A × σ) (s : σ) (talk : Talk Q A R)
    (rest : R → Talk Q A S) :
    (talk.bind rest).run serve s =
      (rest (talk.run serve s).1).run serve (talk.run serve s).2 := by
  induction talk generalizing s with
  | done result => rfl
  | ask question next ih =>
      exact ih (serve s question).1 (serve s question).2

theorem asked_bind (serve : σ → Q → A × σ) (s : σ) (talk : Talk Q A R)
    (rest : R → Talk Q A S) :
    (talk.bind rest).asked serve s = talk.asked serve s ++
      (rest (talk.run serve s).1).asked serve (talk.run serve s).2 := by
  induction talk generalizing s with
  | done result => rfl
  | ask question next ih =>
      rw [bind, asked, asked, run, List.cons_append,
        ih (serve s question).1 (serve s question).2]

/-! ## Translated dialogues -/

/-- The server that the translation makes of the one behind it. -/
def served (serve : τ → Q' → A' × τ) (translate : Q → Talk Q' A' A) (t : τ)
    (question : Q) : A × τ :=
  (translate question).run serve t

theorem run_through (serve : τ → Q' → A' × τ)
    (translate : Q → Talk Q' A' A) (t : τ) (talk : Talk Q A R) :
    (talk.through translate).run serve t =
      talk.run (served serve translate) t := by
  induction talk generalizing t with
  | done result => rfl
  | ask question next ih =>
      rw [through, run_bind, ih]
      rfl

/-- A translation that asks one question for each asks the translated
questions. -/
theorem asked_through (serve : τ → Q' → A' × τ)
    {translate : Q → Talk Q' A' A} {image : Q → Q'}
    (hone : ∀ t question,
      (translate question).asked serve t = [image question])
    (t : τ) (talk : Talk Q A R) :
    (talk.through translate).asked serve t =
      (talk.asked (served serve translate) t).map image := by
  induction talk generalizing t with
  | done result => rfl
  | ask question next ih =>
      rw [through, asked_bind, hone, ih]
      rfl

/-! ## Answers that get lost -/

/-- A channel that is ready may lose a question or its answer.  A question
it does not lose is answered as the server answers it; for a lost one the
party gets a failure, and cannot tell whether the question has reached the
server. -/
def Loses (ready : τ → Prop) (abs : τ → σ)
    (channel : τ → Q → Except ε A × τ) (serve : σ → Q → Except ε A × σ) :
    Prop :=
  ∀ t question, ready t → ready (channel t question).2 ∧
    ((channel t question).1 = (serve (abs t) question).1 ∧
        abs (channel t question).2 = (serve (abs t) question).2 ∨
      (∃ err, (channel t question).1 = .error err) ∧
        (abs (channel t question).2 = abs t ∨
          abs (channel t question).2 = (serve (abs t) question).2))

/-- It ends with a failure at the first answer that is one. -/
def GivesUp : Talk Q (Except ε A) (Except ε R) → Prop
  | .done _ => True
  | .ask _ next => (∀ err, ∃ err', next (.error err) = .done (.error err')) ∧
      ∀ answer, (next answer).GivesUp

/-- The server after some questions. -/
def after (serve : σ → Q → A × σ) (s : σ) (questions : List Q) : σ :=
  questions.foldl (fun s question => (serve s question).2) s

theorem GivesUp.attempt {α : Type} {outcome : Except ε α}
    {next : α → Talk Q (Except ε A) (Except ε R)}
    (hnext : ∀ value, (next value).GivesUp) :
    (attempt outcome next).GivesUp := by
  cases outcome with
  | ok value => exact hnext value
  | error err => trivial

/-- A success over the channel is a success with the server.  After a failure
the server has got some of the first questions it would have been asked. -/
theorem GivesUp.run_channel {ready : τ → Prop} {abs : τ → σ}
    {channel : τ → Q → Except ε A × τ} {serve : σ → Q → Except ε A × σ}
    (hloses : Loses ready abs channel serve)
    {talk : Talk Q (Except ε A) (Except ε R)} (hgives : talk.GivesUp) {t : τ}
    (hready : ready t) :
    (∀ result, (talk.run channel t).1 = .ok result →
      talk.run serve (abs t) = (.ok result, abs (talk.run channel t).2)) ∧
    ∀ err, (talk.run channel t).1 = .error err →
      ∃ sent, sent <+: talk.asked serve (abs t) ∧
        abs (talk.run channel t).2 = after serve (abs t) sent := by
  induction talk generalizing t with
  | done outcome =>
      constructor
      · intro result hresult
        rw [run_done] at hresult ⊢
        rw [run_done, ← hresult]
      · intro err _
        exact ⟨[], List.nil_prefix, rfl⟩
  | ask question next ih =>
      obtain ⟨hnext, ⟨hanswer, hstate⟩ | ⟨⟨err, hlost⟩, hstate⟩⟩ :=
        hloses t question hready
      · obtain ⟨hok, herror⟩ :=
          ih (channel t question).1 (hgives.2 _) hnext
        rw [hstate] at hok herror
        constructor
        · intro result hresult
          rw [run, ← hanswer]
          exact hok result hresult
        · intro err herr
          obtain ⟨sent, hsent, hafter⟩ := herror err herr
          rw [hanswer] at hsent
          exact ⟨question :: sent, List.cons_prefix_cons.mpr ⟨rfl, hsent⟩,
            hafter⟩
      · obtain ⟨err', hdone⟩ := hgives.1 err
        have hrun : (ask question next).run channel t =
            (.error err', (channel t question).2) := by
          rw [run, hlost, hdone, run_done]
        rw [hrun]
        constructor
        · intro result hresult
          contradiction
        · intro _ _
          rcases hstate with hstate | hstate
          · exact ⟨[], List.nil_prefix, hstate⟩
          · exact ⟨[question], List.cons_prefix_cons.mpr
              ⟨rfl, List.nil_prefix⟩, hstate⟩

end Talk

end Dialogue
