import Mathlib.Logic.Relation
import Mathlib.Tactic

/-!
# Machines and their runs

A machine is a partial step function: an action either is not possible in a state or leads to exactly
one next state. A run is a finite sequence of actions; a guarded run is one in which every action meets
a condition in the state it is taken in.

Main results:

* `Machine.GuardedRun.invariant` — what every guarded step preserves, every guarded run preserves.
* `Machine.GuardedRun.monotone` — a quantity no guarded step lowers is never lowered by a guarded run.
* `Machine.GuardedRun.of_run`, `of_runGuarded` — an executed sequence of actions is a run.
* `Machine.Traced.relates` — what relates every state of a history to the present one.
-/

namespace Machine

variable {σ α : Type*}

/-- Execute a sequence of actions. -/
def run (step : α → σ → Option σ) : List α → σ → Option σ
  | [], s => some s
  | a :: as, s => (step a s).bind (run step as)

/-- Execute a sequence of actions that each pass a test first. -/
def runGuarded (step : α → σ → Option σ) (test : σ → α → Bool) : List α → σ → Option σ
  | [], s => some s
  | a :: as, s => if test s a then (step a s).bind (runGuarded step test as) else none

/-- `s'` is reached from `s` by actions that each meet the guard. -/
def GuardedRun (step : α → σ → Option σ) (guard : σ → α → Prop) : σ → σ → Prop :=
  Relation.ReflTransGen fun s s' => ∃ a, guard s a ∧ step a s = some s'

/-- `s'` is reached from `s` by any actions. -/
abbrev Run (step : α → σ → Option σ) : σ → σ → Prop := GuardedRun step fun _ _ => True

namespace GuardedRun

variable {step : α → σ → Option σ} {guard guard' : σ → α → Prop} {s s' : σ}

theorem refl (s : σ) : GuardedRun step guard s s := Relation.ReflTransGen.refl

theorem trans {s'' : σ} (h : GuardedRun step guard s s') (h' : GuardedRun step guard s' s'') :
    GuardedRun step guard s s'' := Relation.ReflTransGen.trans h h'

/-- A weaker guard allows the run as well. -/
theorem mono (hg : ∀ s a, guard s a → guard' s a) (h : GuardedRun step guard s s') :
    GuardedRun step guard' s s' :=
  Relation.ReflTransGen.mono (fun _ _ ⟨a, ha, hstep⟩ => ⟨a, hg _ a ha, hstep⟩) _ _ h

variable {Inv : σ → Prop} {as : List α} {s' : σ}

/-- **Invariants.** -/
theorem invariant (hstep : ∀ s a s', Inv s → guard s a → step a s = some s' → Inv s')
    (h : GuardedRun step guard s s') (hs : Inv s) : Inv s' := by
  induction h with
  | refl => exact hs
  | tail _ hlast ih =>
    obtain ⟨a, hguard, hstep'⟩ := hlast
    exact hstep _ a _ ih hguard hstep'

/-- A relation to a later state that holds of every step, under an invariant, holds along a run. -/
theorem relates {R : σ → σ → Prop} (hrefl : ∀ s, R s s) (htrans : ∀ s s' s'', R s s' → R s' s'' → R s s'')
    (hstep : ∀ s a s', Inv s → guard s a → step a s = some s' → Inv s' ∧ R s s')
    (h : GuardedRun step guard s s') (hs : Inv s) : Inv s' ∧ R s s' := by
  induction h with
  | refl => exact ⟨hs, hrefl s⟩
  | tail _ hlast ih =>
    obtain ⟨a, hguard, hstep'⟩ := hlast
    obtain ⟨hinv, hR⟩ := hstep _ a _ ih.1 hguard hstep'
    exact ⟨hinv, htrans _ _ _ ih.2 hR⟩

/-- **Monotone quantities.** -/
theorem monotone {f : σ → ℕ} (hstep : ∀ s a s', Inv s → guard s a → step a s = some s' → Inv s' ∧ f s ≤ f s')
    (h : GuardedRun step guard s s') (hs : Inv s) : f s ≤ f s' :=
  (relates (R := fun s s' => f s ≤ f s') (fun _ => le_rfl) (fun _ _ _ => le_trans) hstep h hs).2

/-- An executed sequence of tested actions is a run whose guard is the test. -/
theorem of_runGuarded {test : σ → α → Bool} {s : σ} (h : Machine.runGuarded step test as s = some s') :
    GuardedRun step (fun s a => test s a = true) s s' := by
  -- the sequence is executed from the front, while a run grows at its end: hence `head`
  induction as generalizing s with
  | nil =>
    cases h
    exact refl _
  | cons a as ih =>
    simp only [runGuarded] at h
    split at h
    · next hguard =>
      obtain ⟨s₁, h₁, hrest⟩ := Option.bind_eq_some_iff.mp h
      exact Relation.ReflTransGen.head ⟨a, hguard, h₁⟩ (ih hrest)
    · cases h

/-- The actions of an executed sequence may be judged one by one. -/
theorem of_run_of_forall {P : α → Prop} {s : σ} (hP : ∀ a ∈ as, P a) (h : Machine.run step as s = some s') :
    GuardedRun step (fun _ a => P a) s s' := by
  induction as generalizing s with
  | nil =>
    cases h
    exact refl _
  | cons a as ih =>
    obtain ⟨s₁, h₁, hrest⟩ := Option.bind_eq_some_iff.mp h
    exact Relation.ReflTransGen.head ⟨a, hP a List.mem_cons_self, h₁⟩
      (ih (fun a ha => hP a (List.mem_cons_of_mem _ ha)) hrest)

theorem of_run {s : σ} (h : Machine.run step as s = some s') : Run step s s' :=
  of_run_of_forall (fun _ _ => trivial) h

end GuardedRun

/-! ## Histories -/

/-- A state together with the states before it, each with the action taken there, the latest first. -/
structure Traced (σ α : Type*) where
  now : σ
  past : List (σ × α) := []

namespace Traced

variable {step : α → σ → Option σ}

/-- Every state of the history, the present one included. -/
def states (h : Traced σ α) : List σ := h.now :: h.past.map Prod.fst

/-- A machine that remembers. -/
def next (step : α → σ → Option σ) (a : α) (h : Traced σ α) : Option (Traced σ α) :=
  (step a h.now).map fun s => ⟨s, (h.now, a) :: h.past⟩

/-- The remembering machine takes the step of the machine and records where it was taken. -/
theorem next_some {h h' : Traced σ α} {a : α} (hstep : Traced.next step a h = some h') :
    step a h.now = some h'.now ∧ h'.past = (h.now, a) :: h.past := by
  obtain ⟨s, hs, rfl⟩ := Option.map_eq_some_iff.mp hstep
  exact ⟨hs, rfl⟩

/-- **Histories.** A relation to later states that every step keeps, under an invariant, relates every state of
a history to the present one. -/
theorem relates {Inv : σ → Prop} {R : σ → σ → Prop} (hrefl : ∀ s, R s s)
    (htrans : ∀ s s' s'', R s s' → R s' s'' → R s s'')
    (hstep : ∀ s a s', Inv s → step a s = some s' → Inv s' ∧ R s s') {s₀ : σ} {h : Traced σ α}
    (hrun : Run (Traced.next step) { now := s₀ } h) (hs : Inv s₀) :
    ∀ s ∈ h.states, Inv s ∧ R s h.now := by
  induction hrun with
  | refl =>
    intro s hmem
    rw [show s = s₀ by simpa [states] using hmem]
    exact ⟨hs, hrefl s₀⟩
  | @tail h₁ h₂ _ hlast ih =>
    obtain ⟨a, -, hstep'⟩ := hlast
    obtain ⟨hnow, hpast⟩ := next_some hstep'
    obtain ⟨hinv, hlater⟩ := hstep h₁.now a h₂.now (ih h₁.now List.mem_cons_self).1 hnow
    intro s hmem
    rcases List.mem_cons.mp hmem with rfl | hold
    · exact ⟨hinv, hrefl _⟩
    · rw [hpast] at hold
      obtain ⟨hs', hR⟩ := ih s hold
      exact ⟨hs', htrans s h₁.now h₂.now hR hlater⟩

end Traced

end Machine
