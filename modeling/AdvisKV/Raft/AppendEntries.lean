import AdvisKV.Model.RaftCore

/-!
# AdvisKV — following a leader

What a message of the current leader does to a core: `follow_leader` touches only the election state
and the timers, and an accepted AppendEntries merges its slice and then adopts the leader's commit
index, bounded by the follower's own last index.

Main results:

* `handleAppendEntries_success` — everything an accepted AppendEntries tells about the core before
  and after.
* `prepareInstallSnapshot_ok` — when a snapshot that arrives is wanted.
-/

namespace AdvisKV.CoreState

/-! ## What stepping down leaves alone -/

section Frame

variable (s : CoreState) (t : Nat)

theorem becomeFollower_core :
    (s.becomeFollower t).core =
      { s.core with
        recentLeaderActive := false
        heartbeatTickTrigger := s.core.heartbeatTickTrigger.stop
        electionTickTrigger := s.core.electionTickTrigger.reset
        election := s.core.election.becomeFollower t } := by
  simp only [becomeFollower]
  split <;> rfl

@[simp] theorem election_becomeFollower_currentTerm (e : RaftElection) :
    (e.becomeFollower t).currentTerm = t := by
  unfold RaftElection.becomeFollower; split
  · next h => exact h.symm
  · rfl

@[simp] theorem election_becomeFollower_role (e : RaftElection) :
    (e.becomeFollower t).role = .follower := by
  unfold RaftElection.becomeFollower; split <;> rfl

@[simp] theorem followLeader_raftLog : (s.followLeader t).core.raftLog = s.core.raftLog := by
  simp only [followLeader]; split <;> simp [becomeFollower_core]

@[simp] theorem followLeader_raftApply :
    (s.followLeader t).core.raftApply = s.core.raftApply := by
  simp only [followLeader]; split <;> simp [becomeFollower_core]

@[simp] theorem followLeader_membership :
    (s.followLeader t).core.membership = s.core.membership := by
  simp only [followLeader]; split <;> simp [becomeFollower_core]

@[simp] theorem followLeader_recovering :
    (s.followLeader t).core.recovering = s.core.recovering := by
  simp only [followLeader]; split <;> simp [becomeFollower_core]

end Frame

variable {s : CoreState} {param : AppendEntriesParam}

/-- A message of term at least the current one leaves the core a follower in that term. -/
theorem followLeader_election {t : Nat} (ht : s.core.election.currentTerm ≤ t) :
    (s.followLeader t).core.election.currentTerm = t ∧
      (s.followLeader t).core.election.role = .follower := by
  unfold followLeader
  by_cases h : (decide (s.core.election.currentTerm < t) || !s.core.election.isFollower) = true
  · simp only [h, if_true, becomeFollower_core, election_becomeFollower_currentTerm,
      election_becomeFollower_role, and_self]
  · simp only [h, Bool.false_eq_true, if_false]
    simp only [Bool.or_eq_true, decide_eq_true_eq, Bool.not_eq_true', not_or, not_lt,
      Bool.not_eq_false, RaftElection.isFollower, beq_iff_eq] at h
    exact ⟨by omega, h.2⟩

/-! ## An accepted AppendEntries -/

/-- What an accepted AppendEntries says: who sent it, that the prev-log test passed, which merge took
place, and the log, commit index, term and role it leaves. -/
structure Accepted (s : CoreState) (param : AppendEntriesParam) (s' : CoreState) : Prop where
  member : s.core.membership.contains param.fromReplicaId = true
  term_le : s.core.election.currentTerm ≤ param.term
  prev : prevLogMatches s.core.raftLog param = true
  merged : ∃ r, s.core.raftLog.appendEntriesFromLeader param.entries = .ok (s'.core.raftLog, r)
  apply_eq : s'.core.raftApply =
    s.core.raftApply.advanceCommitIndexFromLeader s'.core.raftLog param.leaderCommit
  term_eq : s'.core.election.currentTerm = param.term
  role_eq : s'.core.election.role = .follower
  ready : s'.core.recovering = false

/-- Leaving recovery changes nothing but the flag and the election timer. -/
theorem acceptAppend_core (s : CoreState) (lc : Nat) :
    (s.acceptAppend lc).core.raftLog = s.core.raftLog ∧
    (s.acceptAppend lc).core.raftApply =
      s.core.raftApply.advanceCommitIndexFromLeader s.core.raftLog lc ∧
    (s.acceptAppend lc).core.election = s.core.election ∧
    (s.acceptAppend lc).core.recovering = false := by
  unfold acceptAppend RaftCore.finishRecovering
  split
  · next h => simpa using h
  · simp

/-- **A success** says that the core followed and merged. -/
theorem handleAppendEntries_success (h : (s.handleAppendEntries param).1.success = true) :
    Accepted s param (s.handleAppendEntries param).2 := by
  unfold handleAppendEntries at h ⊢
  by_cases hm : s.core.membership.contains param.fromReplicaId = true
  swap
  · simp [hm] at h
  by_cases ht : param.term < s.core.election.currentTerm
  · simp [hm, ht] at h
  have hle : s.core.election.currentTerm ≤ param.term := by omega
  obtain ⟨hterm, hrole⟩ := followLeader_election hle
  by_cases hp : prevLogMatches s.core.raftLog param = true
  swap
  · simp [hm, ht, hp] at h
  -- without entries the merge is empty and the log stays
  by_cases he : param.entries = []
  · simp only [hm, ht, hp, he, Bool.not_true, Bool.false_eq_true, if_false, if_true,
      followLeader_raftLog]
    obtain ⟨hl, ha, hel, hr⟩ := acceptAppend_core (s.followLeader param.term) param.leaderCommit
    refine ⟨hm, hle, hp, ⟨{}, ?_⟩, ?_, ?_, ?_, hr⟩
    · rw [hl, he]; simp [RaftLog.appendEntriesFromLeader]
    · rw [ha, hl]; simp
    · rw [hel, hterm]
    · rw [hel, hrole]
  · rcases hmerge : s.core.raftLog.appendEntriesFromLeader param.entries with st | ⟨log, r⟩
    · simp [hm, ht, hp, he, hmerge] at h
    · simp only [hm, ht, hp, he, hmerge, Bool.not_true, Bool.false_eq_true, if_false,
        followLeader_raftLog]
      obtain ⟨hl, ha, hel, hr⟩ := acceptAppend_core
        ((s.followLeader param.term).storeMerge log r) param.leaderCommit
      refine ⟨hm, hle, hp, ⟨r, ?_⟩, ?_, ?_, ?_, hr⟩
      · rw [hl]; exact hmerge
      · rw [ha, hl]; simp [storeMerge]
      · rw [hel]; exact hterm
      · rw [hel]; exact hrole

/-- A refused AppendEntries at most makes the core follow its sender. -/
theorem handleAppendEntries_failure (h : (s.handleAppendEntries param).1.success = false) :
    (s.handleAppendEntries param).2 = s ∨
      (s.core.election.currentTerm ≤ param.term ∧
        (s.handleAppendEntries param).2 = s.followLeader param.term) := by
  simp only [handleAppendEntries] at h ⊢
  split
  · exact Or.inl rfl
  next hmember =>
  split
  · exact Or.inl rfl
  next hterm =>
  rw [if_neg hmember, if_neg hterm] at h
  -- past the first two checks the sender is followed, whatever comes next
  refine Or.inr ⟨Nat.le_of_not_lt hterm, ?_⟩
  split
  · rfl
  next hprev =>
  rw [if_neg hprev] at h
  split
  · next hnil =>
    rw [if_pos hnil] at h
    cases h
  · next hnil =>
    rw [if_neg hnil] at h
    split
    · rfl
    · next log r hmerge =>
      rw [hmerge] at h
      cases h

/-! ## Preparing for a snapshot -/

/-- Stepping down asks for no WAL change. -/
theorem followLeader_effects (s : CoreState) (t : Nat) :
    (s.followLeader t).effects.entriesToAppend = s.effects.entriesToAppend ∧
      (s.followLeader t).effects.entriesToRewrite = s.effects.entriesToRewrite := by
  simp only [followLeader]
  split
  · simp only [becomeFollower]
    split <;> exact ⟨rfl, rfl⟩
  · exact ⟨rfl, rfl⟩

/-- An accepted `prepare_install_snapshot` follows the leader and nothing else. When it does not find
the snapshot covered, the snapshot lies above the commit index and the log does not end the question
by itself. -/
theorem prepareInstallSnapshot_ok {param : InstallSnapshotParam}
    (h : (s.prepareInstallSnapshot param).1.fail = false) :
    (s.prepareInstallSnapshot param).2.2 = s.followLeader param.term ∧
    s.core.membership.contains param.fromReplicaId = true ∧
    s.core.election.currentTerm ≤ param.term ∧
    ((s.prepareInstallSnapshot param).2.1 < param.snapshotIndex →
      s.core.raftApply.commitIndex < param.snapshotIndex ∧
      (s.core.recovering = true ∨ s.core.raftLog.lastLogIndex < param.snapshotIndex ∨
        s.core.raftLog.termAt param.snapshotIndex ≠ param.snapshotTerm)) := by
  unfold prepareInstallSnapshot at h ⊢
  by_cases hm : s.core.membership.contains param.fromReplicaId = true
  swap
  · simp [hm, Status.fail] at h
  by_cases ht : param.term < s.core.election.currentTerm
  · simp [hm, ht, Status.fail] at h
  simp only [hm, ht, Bool.not_true, Bool.false_eq_true, if_false, followLeader_raftApply,
    followLeader_raftLog, followLeader_recovering] at h ⊢
  refine ⟨?_, trivial, by omega, ?_⟩
  · -- the core is the same in all three answers
    repeat' split
    all_goals rfl
  · split
    · next hc => exact fun hw => absurd hw (Nat.not_lt.mpr hc)
    · next hc =>
        split
        · exact fun hw => absurd hw (lt_irrefl _)
        · next hcov =>
            refine fun _ => ⟨by omega, ?_⟩
            simp only [Bool.and_eq_true, Bool.not_eq_true', decide_eq_true_eq, beq_iff_eq, not_and,
              and_imp] at hcov
            by_cases hr : s.core.recovering = true
            · exact Or.inl hr
            · by_cases hl : s.core.raftLog.lastLogIndex < param.snapshotIndex
              · exact Or.inr (Or.inl hl)
              · exact Or.inr (Or.inr (hcov (Bool.eq_false_of_not_eq_true hr) (by omega)))

end AdvisKV.CoreState
