import AdvisKV.Model.Apply
import Mathlib.Logic.Relation

/-!
# AdvisKV — what applying can do

The apply loop as a chain of moves, in the manner of `Micro` for the handlers of the core: an entry is
handed to the state machine, `last_applied` moves over it, or a config entry changes the membership.
Every move is about a committed entry of the log.

Main results:

* `ApplyState.applyCommittedEntriesInline_moves` — the loop is a chain of moves, whatever it reports.
* `ApplyMove.frame` — no move touches the log, the commit index, the term or the vote.
-/

namespace AdvisKV

/-- The log holds `e` at or below the commit index. -/
def RaftCore.HasCommitted (c : RaftCore) (e : LogEntry) : Prop :=
  ∃ i, i ≤ c.raftApply.commitIndex ∧ c.raftLog.entryAt i = some e

inductive ApplyMove : ApplyState → ApplyState → Prop
  | pass (s : ApplyState) (e : LogEntry) (committed : s.core.HasCommitted e) :
    ApplyMove s (s.pass e).2
  | advance (s : ApplyState) (e : LogEntry) (committed : s.core.HasCommitted e)
    (plain : e.opType.isConfigChangeOp = false) :
    ApplyMove s { s with core := s.core.advanceLastApplied e.index }
  | config (s : ApplyState) (e : LogEntry) (committed : s.core.HasCommitted e)
    (change : e.opType.isConfigChangeOp = true) (ok : (s.core.applyConfigEntry e).1.fail = false) :
    ApplyMove s { s with core := (s.core.applyConfigEntry e).2 }

/-- What no move changes; a replica may only step down. -/
structure ApplyFrame (c c' : RaftCore) : Prop where
  selfId : c'.selfId = c.selfId
  raftLog : c'.raftLog = c.raftLog
  commit : c'.raftApply.commitIndex = c.raftApply.commitIndex
  applied : c.raftApply.lastApplied ≤ c'.raftApply.lastApplied
  term : c'.election.currentTerm = c.election.currentTerm
  vote : c'.election.votedFor = c.election.votedFor
  electionSelf : c'.election.selfId = c.election.selfId
  role : c'.election = c.election ∨ c'.election.role = .follower
  replication : c'.replication = c.replication
  recovering : c'.recovering = c.recovering

namespace ApplyFrame

theorem refl (c : RaftCore) : ApplyFrame c c :=
  ⟨rfl, rfl, rfl, le_rfl, rfl, rfl, rfl, Or.inl rfl, rfl, rfl⟩

theorem trans {a b c : RaftCore} (h₁ : ApplyFrame a b) (h₂ : ApplyFrame b c) : ApplyFrame a c where
  selfId := h₂.selfId.trans h₁.selfId
  raftLog := h₂.raftLog.trans h₁.raftLog
  commit := h₂.commit.trans h₁.commit
  applied := h₁.applied.trans h₂.applied
  term := h₂.term.trans h₁.term
  vote := h₂.vote.trans h₁.vote
  electionSelf := h₂.electionSelf.trans h₁.electionSelf
  role := by
    rcases h₂.role with h | h
    · rw [h]
      exact h₁.role
    · exact Or.inr h
  replication := h₂.replication.trans h₁.replication
  recovering := h₂.recovering.trans h₁.recovering

theorem hasCommitted {c c' : RaftCore} (h : ApplyFrame c c') {e : LogEntry}
    (he : c.HasCommitted e) : c'.HasCommitted e := by
  obtain ⟨i, hi, hentry⟩ := he
  exact ⟨i, h.commit ▸ hi, by rw [h.raftLog]; exact hentry⟩

end ApplyFrame

/-- `last_applied` moves to the larger of the two and nothing else changes. -/
theorem RaftCore.advanceLastApplied_frame (c : RaftCore) (i : Nat) :
    ApplyFrame c (c.advanceLastApplied i) := by
  refine { ApplyFrame.refl c with commit := ?_, applied := ?_ }
  · simp only [advanceLastApplied, RaftApply.advanceLastApplied]
    split <;> rfl
  · simp only [advanceLastApplied, RaftApply.advanceLastApplied]
    split
    · next h => exact h.le
    · exact le_rfl

theorem RaftElection.becomeFollower_currentTerm_frame (e : RaftElection) :
    (e.becomeFollower e.currentTerm).currentTerm = e.currentTerm ∧
      (e.becomeFollower e.currentTerm).votedFor = e.votedFor ∧
      (e.becomeFollower e.currentTerm).selfId = e.selfId ∧
      (e.becomeFollower e.currentTerm).role = .follower := by
  simp [becomeFollower]

/-- A replica that is no longer a member follows in its term, with its vote. -/
theorem RaftCore.stepDownIfBecomeNonMember_applyFrame (c : RaftCore) :
    ApplyFrame c c.stepDownIfBecomeNonMember := by
  unfold stepDownIfBecomeNonMember
  split
  · exact .refl c
  · obtain ⟨hterm, hvote, hself, hrole⟩ := c.election.becomeFollower_currentTerm_frame
    by_cases hf : c.election.isFollower = true
    · simp only [hf, if_true]
      exact { ApplyFrame.refl c with }
    · simp only [hf, Bool.false_eq_true, if_false]
      exact { ApplyFrame.refl c with
        term := hterm, vote := hvote, electionSelf := hself, role := Or.inr hrole }

theorem RaftCore.applyConfigEntry_frame (c : RaftCore) (e : LogEntry) :
    ApplyFrame c (c.applyConfigEntry e).2 := by
  simp only [applyConfigEntry]
  split
  · exact .refl c
  · -- the new membership first, then a possible step down, then `last_applied`
    have hmembers : ApplyFrame c { c with membership := (applyMembershipChange c.membership e).2 } :=
      { ApplyFrame.refl c with }
    exact (hmembers.trans (stepDownIfBecomeNonMember_applyFrame _)).trans
      (advanceLastApplied_frame _ _)

namespace ApplyMove

variable {s s' : ApplyState}

theorem frame (h : ApplyMove s s') : ApplyFrame s.core s'.core := by
  cases h with
  | pass e committed => exact .refl _
  | advance e committed plain => exact s.core.advanceLastApplied_frame e.index
  | config e committed change ok => exact s.core.applyConfigEntry_frame e

theorem frame_star (h : Relation.ReflTransGen ApplyMove s s') : ApplyFrame s.core s'.core := by
  induction h with
  | refl => exact .refl _
  | tail _ hm ih => exact ih.trans hm.frame

end ApplyMove

/-! ## The loop as a chain -/

namespace ApplyState

variable {s : ApplyState}

/-- One entry is at most two moves, and a failure stops between them. -/
theorem applyOneEntry_moves {e : LogEntry} (he : s.core.HasCommitted e) :
    Relation.ReflTransGen ApplyMove s (s.applyOneEntry e).2 := by
  simp only [applyOneEntry]
  split
  · next hcfg =>
    split
    · exact .refl
    · next hok =>
      have hconfig := ApplyMove.config s e he hcfg (by simpa using hok)
      exact (Relation.ReflTransGen.single hconfig).tail
        (.pass _ e ((s.core.applyConfigEntry_frame e).hasCommitted he))
  · next hplain =>
    have hpass := ApplyMove.pass s e he
    split
    · exact .single hpass
    · exact (Relation.ReflTransGen.single hpass).tail
        (.advance _ e he (by simpa using hplain))

/-- One committed entry after the other. -/
abbrev AppliesEntries : ApplyState → ApplyState → Prop :=
  Relation.ReflTransGen fun s s' => ∃ e, s.core.HasCommitted e ∧ s' = (s.applyOneEntry e).2

/-- A batch, as far as it gets. -/
theorem applyBatch_entries {es : List LogEntry} (h : ∀ e ∈ es, s.core.HasCommitted e) :
    AppliesEntries s (s.applyBatch es).2 := by
  induction es generalizing s with
  | nil => exact .refl
  | cons e es ih =>
    have he := h e List.mem_cons_self
    have hone : AppliesEntries s (s.applyOneEntry e).2 := .single ⟨e, he, rfl⟩
    simp only [applyBatch]
    split
    · exact hone
    · refine hone.trans (ih fun x hx => ?_)
      exact (ApplyMove.frame_star (applyOneEntry_moves he)).hasCommitted (h x (List.mem_cons_of_mem _ hx))

/-- An extracted entry is one of the log, at one of the indexes visited. -/
theorem mem_extractLoop {log : RaftLog} {budget bytes : Nat} {e : LogEntry} {is : List Nat} :
    ∀ {kvc kvb : Nat} {exhausted hasMore : Bool},
      e ∈ (RaftApply.extractLoop log budget bytes is kvc kvb exhausted hasMore).1 →
      ∃ i ∈ is, log.entryAt i = some e := by
  induction is with
  | nil =>
    intro kvc kvb exhausted hasMore h
    simp [RaftApply.extractLoop] at h
  | cons i is ih =>
    intro kvc kvb exhausted hasMore h
    have later : ∀ {kvc kvb : Nat} {exhausted hasMore : Bool},
        e ∈ (RaftApply.extractLoop log budget bytes is kvc kvb exhausted hasMore).1 →
        ∃ j ∈ i :: is, log.entryAt j = some e := fun h =>
      let ⟨j, hj, hentry⟩ := ih h
      ⟨j, List.mem_cons_of_mem _ hj, hentry⟩
    have here : ∀ {entry : LogEntry} {rest : List LogEntry}, log.entryAt i = some entry →
        e ∈ entry :: rest → (e ∈ rest → ∃ j ∈ i :: is, log.entryAt j = some e) →
        ∃ j ∈ i :: is, log.entryAt j = some e := by
      intro entry rest hentry hmem hrest
      rcases List.mem_cons.mp hmem with rfl | hmem
      · exact ⟨i, List.mem_cons_self, hentry⟩
      · exact hrest hmem
    simp only [RaftApply.extractLoop] at h
    -- an index without an entry is skipped, a config entry is always taken, others as the budget allows
    split at h
    · exact later h
    next entry hentry =>
    split at h
    · exact here hentry h later
    split at h
    · simp at h
    split at h
    · exact later h
    split at h
    · simp at h
    · exact here hentry h later

/-- All rounds, by induction on the fuel. -/
theorem applyRounds_entries {fuel : Nat} {s' : ApplyState} {st : Status}
    (h : applyRounds fuel s = some (st, s')) : AppliesEntries s s' := by
  induction fuel generalizing s with
  | zero => cases h
  | succ fuel ih =>
    simp only [applyRounds] at h
    have hbatch : AppliesEntries s (s.applyBatch
        (s.core.raftApply.extractCommittedEntries s.core.raftLog replicaInlineApplyBatchSize 0).1).2 := by
      refine applyBatch_entries fun e he => ?_
      obtain ⟨i, hi, hentry⟩ := mem_extractLoop he
      have := List.mem_range'_1.mp hi
      exact ⟨i, by omega, hentry⟩
    split at h
    · cases h
      exact .refl
    split at h
    · rw [Option.some.inj h] at hbatch
      exact hbatch
    split at h
    · cases h
      exact hbatch
    · exact hbatch.trans (ih h)

/-- **The loop is a chain of moves.** -/
theorem applyCommittedEntriesInline_moves {s' : ApplyState} {st : Status}
    (h : s.applyCommittedEntriesInline = some (st, s')) : Relation.ReflTransGen ApplyMove s s' := by
  have hentries := applyRounds_entries h
  clear h
  induction hentries with
  | refl => exact .refl
  | tail _ hlast ih =>
    obtain ⟨e, he, rfl⟩ := hlast
    exact ih.trans (applyOneEntry_moves he)

end ApplyState

end AdvisKV
