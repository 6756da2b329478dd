import Mathlib.Data.Finset.Card
import Mathlib.Tactic

/-!
# Ballots

Elections by majority, term by term. A ballot remembers the term of every voter, the vote each of them
has cast in each term, and who has been elected in each term. Votes and elections are never taken back.

Main results:

* `Ballot.Fair.raise`, `Fair.grant`, `Fair.elect` — what a voter may do keeps the ballot fair.
* `Ballot.Fair.elected_unique` — in a fair ballot a majority can only stand behind the one elected.
* `Ballot.Moved` — what one voter does leaves the others alone and takes nothing back.
-/

/-- More than half of the voters. -/
structure Majority {V : Type*} (voters Q : Finset V) : Prop where
  subset : Q ⊆ voters
  half : voters.card < 2 * Q.card

/-- **Two majorities meet.** -/
theorem Majority.inter {V : Type*} [DecidableEq V] {voters Q Q' : Finset V} (h : Majority voters Q)
    (h' : Majority voters Q') : ∃ v, v ∈ Q ∧ v ∈ Q' := by
  have hunion : (Q ∪ Q').card ≤ voters.card := Finset.card_le_card (Finset.union_subset h.subset h'.subset)
  have hsum := Finset.card_union_add_card_inter Q Q'
  have hpos : 0 < (Q ∩ Q').card := by
    have := h.half
    have := h'.half
    omega
  obtain ⟨v, hv⟩ := Finset.card_pos.mp hpos
  exact ⟨v, Finset.mem_inter.mp hv⟩

structure Ballot (V : Type*) where
  term : V → ℕ := fun _ => 0
  vote : ℕ → V → Option V := fun _ _ => none
  lead : ℕ → Option V := fun _ => none

namespace Ballot

variable {V : Type*} [DecidableEq V]

/-! ## What can happen -/

/-- Voter `v` enters term `t`. -/
@[simps vote lead]
def raise (b : Ballot V) (v : V) (t : ℕ) : Ballot V := { b with term := Function.update b.term v t }

/-- Voter `v` votes for `c` in its term. -/
@[simps term lead]
def grant (b : Ballot V) (v c : V) : Ballot V :=
  { b with
    vote := Function.update b.vote (b.term v) (Function.update (b.vote (b.term v)) v (some c)) }

/-- Voter `c` is elected in its term. -/
@[simps term vote]
def elect (b : Ballot V) (c : V) : Ballot V :=
  { b with lead := Function.update b.lead (b.term c) (some c) }

@[simp] theorem raise_term_self (b : Ballot V) (v : V) (t : ℕ) : (b.raise v t).term v = t := by
  simp [raise]

variable {v c : V} {t : ℕ} {Q : Finset V}

theorem raise_term_of_ne (b : Ballot V) {u : V} (t : ℕ) (h : u ≠ v) :
    (b.raise v t).term u = b.term u := by
  simp [raise, h]

@[simp] theorem grant_vote_self (b : Ballot V) (v c : V) :
    (b.grant v c).vote (b.term v) v = some c := by
  simp [grant]

/-- A vote is written for one voter in one term only. -/
theorem grant_vote_of_ne (b : Ballot V) {u : V} (h : u ≠ v ∨ t ≠ b.term v) :
    (b.grant v c).vote t u = b.vote t u := by
  unfold grant
  by_cases ht : t = b.term v
  · subst ht
    simp [Function.update_of_ne (h.resolve_right (not_not.mpr rfl))]
  · simp [Function.update_of_ne ht]

omit [DecidableEq V] in
@[simp] theorem elect_lead_self (b : Ballot V) (c : V) : (b.elect c).lead (b.term c) = some c := by
  simp [elect]

omit [DecidableEq V] in
theorem elect_lead_of_ne (b : Ballot V) (h : t ≠ b.term c) :
    (b.elect c).lead t = b.lead t := by
  simp [elect, Function.update_of_ne h]

/-! ## Fair ballots -/

/-- Nobody has voted in a term it has not entered, and a majority stands behind everyone elected. -/
structure Fair (voters : Finset V) (b : Ballot V) : Prop where
  entered : ∀ {t v}, b.vote t v ≠ none → t ≤ b.term v
  backed : ∀ {t c}, b.lead t = some c → ∃ Q, Majority voters Q ∧ ∀ u ∈ Q, b.vote t u = some c

variable {voters : Finset V} {b : Ballot V}

omit [DecidableEq V] in
theorem Fair.empty (voters : Finset V) : Fair voters ({} : Ballot V) :=
  ⟨fun h => absurd rfl h, fun h => by cases h⟩

/-- **One winner.** -/
theorem Fair.elected_unique (h : b.Fair voters) {c' : V} (hQ : Majority voters Q)
    (hvotes : ∀ u ∈ Q, b.vote t u = some c) (hlead : b.lead t = some c') :
    c' = c := by
  obtain ⟨Q', hQ', hvotes'⟩ := h.backed hlead
  -- a voter of both majorities voted for both, and a voter has one vote a term
  obtain ⟨u, hu, hu'⟩ := hQ.inter hQ'
  have hsame := (hvotes' u hu').symm.trans (hvotes u hu)
  exact Option.some.inj hsame

/-- Entering a later term keeps every vote within the terms entered. -/
theorem Fair.raise (h : b.Fair voters) (hle : b.term v ≤ t) :
    (b.raise v t).Fair voters := by
  refine ⟨fun {t' u} hvote => ?_, fun hlead => h.backed hlead⟩
  have hentered := h.entered hvote
  by_cases hu : u = v
  · subst hu
    rw [raise_term_self]
    exact hentered.trans hle
  · rwa [raise_term_of_ne b t hu]

/-- A vote may be cast once in a term, or repeated for the same candidate. -/
theorem Fair.grant (h : b.Fair voters) (hfree : b.vote (b.term v) v = none ∨ b.vote (b.term v) v = some c) :
    (b.grant v c).Fair voters := by
  refine ⟨fun {t u} hvote => ?_, fun {t c'} hlead => ?_⟩
  · by_cases hu : u ≠ v ∨ t ≠ b.term v
    · rw [grant_vote_of_ne b hu] at hvote
      exact h.entered hvote
    · obtain ⟨rfl, rfl⟩ : u = v ∧ t = b.term v := by
        simpa only [not_or, not_not] using hu
      exact le_rfl
  · obtain ⟨Q, hQ, hvotes⟩ := h.backed hlead
    refine ⟨Q, hQ, fun u hu => ?_⟩
    by_cases hne : u ≠ v ∨ t ≠ b.term v
    · rw [grant_vote_of_ne b hne]
      exact hvotes u hu
    · -- the vote was cast before, so it is the same one
      obtain ⟨rfl, rfl⟩ : u = v ∧ t = b.term v := by
        simpa only [not_or, not_not] using hne
      rcases hfree with hnone | hsome
      · rw [hvotes u hu] at hnone
        cases hnone
      · rw [grant_vote_self, ← hsome]
        exact hvotes u hu

omit [DecidableEq V] in
/-- An election needs the votes of a majority in the candidate's own term. -/
theorem Fair.elect (h : b.Fair voters) (hQ : Majority voters Q)
    (hvotes : ∀ u ∈ Q, b.vote (b.term c) u = some c) : (b.elect c).Fair voters := by
  refine ⟨fun hvote => h.entered hvote, fun {t c'} hlead => ?_⟩
  by_cases ht : t = b.term c
  · subst ht
    rw [elect_lead_self] at hlead
    cases hlead
    exact ⟨Q, hQ, hvotes⟩
  · rw [elect_lead_of_ne b ht] at hlead
    exact h.backed hlead

/-! ## One voter moves -/

/-- What may have happened at voter `v`. -/
structure Moved (v : V) (b b' : Ballot V) : Prop where
  term : ∀ {u}, u ≠ v → b'.term u = b.term u
  vote : ∀ {t u}, u ≠ v → b'.vote t u = b.vote t u
  voted : ∀ {t u c}, b.vote t u = some c → b'.vote t u = some c
  led : ∀ {t c}, b.lead t = some c → b'.lead t = some c

omit [DecidableEq V] in
theorem Moved.refl (v : V) (b : Ballot V) : Moved v b b :=
  ⟨fun _ => rfl, fun _ => rfl, fun h => h, fun h => h⟩

omit [DecidableEq V] in
/-- Moves of one voter compose. -/
theorem Moved.trans {b b' b'' : Ballot V} (h : Moved v b b') (h' : Moved v b' b'') :
    Moved v b b'' :=
  ⟨fun hu => (h'.term hu).trans (h.term hu), fun hu => (h'.vote hu).trans (h.vote hu),
    fun hv => h'.voted (h.voted hv), fun hl => h'.led (h.led hl)⟩

theorem Moved.raise (b : Ballot V) (v : V) (t : ℕ) : Moved v b (b.raise v t) :=
  ⟨fun hu => raise_term_of_ne b t hu, fun _ => rfl, fun h => h, fun h => h⟩

/-- A repeated vote takes nothing back, since it is the same vote. -/
theorem Moved.grant (hfree : b.vote (b.term v) v = none ∨ b.vote (b.term v) v = some c) :
    Moved v b (b.grant v c) := by
  refine ⟨fun _ => rfl, fun hu => grant_vote_of_ne b (.inl hu), fun {t u c'} hvote => ?_, fun h => h⟩
  by_cases hne : u ≠ v ∨ t ≠ b.term v
  · rwa [grant_vote_of_ne b hne]
  · obtain ⟨rfl, rfl⟩ : u = v ∧ t = b.term v := by
      simpa only [not_or, not_not] using hne
    rw [grant_vote_self, ← hvote]
    -- `c'` had been voted for already, so the free vote is one for `c'`
    rw [hvote] at hfree
    rcases hfree with hnone | hsome
    · cases hnone
    · rw [hvote, hsome]

/-- An election takes no election back: in its term the same candidate has won before, if anyone has. -/
theorem Moved.elect (h : b.Fair voters) (hQ : Majority voters Q)
    (hvotes : ∀ u ∈ Q, b.vote (b.term c) u = some c) : Moved c b (b.elect c) := by
  refine ⟨fun _ => rfl, fun _ => rfl, fun h => h, fun {t c'} hlead => ?_⟩
  by_cases ht : t = b.term c
  · subst ht
    rw [elect_lead_self, h.elected_unique hQ hvotes hlead]
  · rwa [elect_lead_of_ne b ht]

end Ballot
