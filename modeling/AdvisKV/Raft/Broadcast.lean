import AdvisKV.Raft.Steps

/-!
# AdvisKV — the leader's follow-up work

A leader sends the log around, moves its commit index and promotes learners behind many events: a
proposal, an answer, a tick, its own election. None of this changes who it is, which term and group it
leads, or what it knows about its followers.

Main results:

* `broadcastAppendEntries_attends`, `tryUpdateCommitIndex_attends` — the log stays as it is.
* `propose_attends`, `maybePromoteReadyLearner_attends` — the log grows by at most one entry.
-/

namespace AdvisKV

/-- The follow-up work of a leader: who it is, what it knows to match and every next index it has chosen
stay as they are. -/
structure RaftCore.Attends (c c' : RaftCore) : Prop where
  selfId : c'.selfId = c.selfId
  election : c'.election = c.election
  recovering : c'.recovering = c.recovering
  membership : c'.membership = c.membership
  matchIndex : c'.replication.matchIndex = c.replication.matchIndex
  nextIndex : ∀ id, c.replication.nextIndex id ≠ 0 →
    c'.replication.nextIndex id = c.replication.nextIndex id

theorem RaftCore.Attends.refl (c : RaftCore) : Attends c c := ⟨rfl, rfl, rfl, rfl, rfl, fun _ _ => rfl⟩

theorem RaftCore.Attends.trans {c c' c'' : RaftCore} (h : Attends c c') (h' : Attends c' c'') :
    Attends c c'' where
  selfId := h'.selfId.trans h.selfId
  election := h'.election.trans h.election
  recovering := h'.recovering.trans h.recovering
  membership := h'.membership.trans h.membership
  matchIndex := h'.matchIndex.trans h.matchIndex
  nextIndex id hid := by
    have hnext := h.nextIndex id hid
    rw [h'.nextIndex id (by rwa [hnext]), hnext]

/-- What a log may become while its leader handles one event. -/
def RaftLog.Grown (l l' : RaftLog) : Prop := l' = l ∨ ∃ term param, l' = l.appendNewEntry term param

namespace CoreState

/-- One message: a peer without a next index gets one, everything else stays. -/
theorem broadcastTo_attends (s : CoreState) (member : RaftMember) :
    s.core.Attends (s.broadcastTo member).core ∧ (s.broadcastTo member).core.raftLog = s.core.raftLog := by
  have hbuild : ∀ (r : RaftReplication) (next : Nat),
      let built := r.buildAppendEntriesMessage s.core.selfId s.core.raftLog s.core.raftApply member.peer
        next s.core.election.currentTerm
      built.1.matchIndex = r.matchIndex ∧ built.1.nextIndex = r.nextIndex := by
    intro r next
    simp only [RaftReplication.buildAppendEntriesMessage, RaftReplication.markSnapshotInflight]
    split
    · split
      · exact ⟨rfl, rfl⟩
      · next hmark =>
        split at hmark <;> cases hmark
        exact ⟨rfl, rfl⟩
    · exact ⟨rfl, rfl⟩
  have hknown : (nextKnown s.core member.peer.replicaId).matchIndex = s.core.replication.matchIndex ∧
      ∀ id, s.core.replication.nextIndex id ≠ 0 →
        (nextKnown s.core member.peer.replicaId).nextIndex id = s.core.replication.nextIndex id := by
    unfold nextKnown
    split
    · next hzero =>
      refine ⟨rfl, fun id hid => Function.update_of_ne ?_ _ _⟩
      rintro rfl
      exact hid hzero
    · exact ⟨rfl, fun _ _ => rfl⟩
  obtain ⟨hmatch, hnext⟩ := hbuild (nextKnown s.core member.peer.replicaId)
    ((nextKnown s.core member.peer.replicaId).nextIndex member.peer.replicaId)
  simp only [broadcastTo]
  split
  · exact ⟨.refl _, rfl⟩
  · split <;> exact ⟨⟨rfl, rfl, rfl, rfl, hmatch.trans hknown.1, fun id hid =>
      (congrFun hnext id).trans (hknown.2 id hid)⟩, rfl⟩

/-- A round of messages. -/
theorem broadcastAppendEntries_attends (s : CoreState) :
    s.core.Attends s.broadcastAppendEntries.core ∧
      s.broadcastAppendEntries.core.raftLog = s.core.raftLog := by
  have hfold : ∀ (members : List RaftMember) (s : CoreState),
      s.core.Attends (members.foldl broadcastTo s).core ∧
        (members.foldl broadcastTo s).core.raftLog = s.core.raftLog := by
    intro members
    induction members with
    | nil => exact fun s => ⟨.refl _, rfl⟩
    | cons member members ih =>
      intro s
      obtain ⟨hone, hlog⟩ := broadcastTo_attends s member
      obtain ⟨hrest, hlogs⟩ := ih (s.broadcastTo member)
      exact ⟨hone.trans hrest, hlogs.trans hlog⟩
  unfold broadcastAppendEntries
  split
  · exact ⟨.refl _, rfl⟩
  split
  · exact ⟨.refl _, rfl⟩
  · exact hfold _ s

/-- A new commit index, and the messages that announce it. -/
theorem tryUpdateCommitIndex_attends (s : CoreState) :
    s.core.Attends s.tryUpdateCommitIndex.core ∧
      s.tryUpdateCommitIndex.core.raftLog = s.core.raftLog := by
  simp only [tryUpdateCommitIndex]
  split
  · exact ⟨.refl _, rfl⟩
  set s' : CoreState := { s with core := { s.core with
    raftApply := s.core.raftApply.setCommitIndex _ } }
  have hcommit : s.core.Attends s'.core := ⟨rfl, rfl, rfl, rfl, rfl, fun _ _ => rfl⟩
  split
  · obtain ⟨hsent, hlog⟩ := broadcastAppendEntries_attends s'
    exact ⟨hcommit.trans hsent, hlog⟩
  · exact ⟨hcommit, rfl⟩

theorem broadcastAndCommit_attends (s : CoreState) :
    s.core.Attends s.broadcastAndCommit.core ∧
      s.broadcastAndCommit.core.raftLog = s.core.raftLog := by
  obtain ⟨hsent, hlog⟩ := broadcastAppendEntries_attends s
  simp only [broadcastAndCommit]
  split
  · obtain ⟨htried, hlog'⟩ := tryUpdateCommitIndex_attends s.broadcastAppendEntries
    exact ⟨hsent.trans htried, hlog'.trans hlog⟩
  · exact ⟨hsent, hlog⟩

theorem appendNewEntry_attends (s : CoreState) (param : ProposeParam) :
    s.core.Attends (s.appendNewEntry param).core := ⟨rfl, rfl, rfl, rfl, rfl, fun _ _ => rfl⟩

/-- A proposal adds at most its own entry. -/
theorem propose_attends (s : CoreState) (param : ProposeParam) :
    s.core.Attends (s.propose param).2.core ∧ s.core.raftLog.Grown (s.propose param).2.core.raftLog := by
  simp only [propose]
  split
  · exact ⟨.refl _, Or.inl rfl⟩
  split
  · exact ⟨.refl _, Or.inl rfl⟩
  · obtain ⟨hsent, hlog⟩ := broadcastAndCommit_attends (s.appendNewEntry param)
    exact ⟨(appendNewEntry_attends s param).trans hsent, Or.inr ⟨_, param, hlog⟩⟩

/-- A ready learner costs the leader one more entry, the proposal to promote it. -/
theorem maybePromoteReadyLearner_attends (s : CoreState) :
    s.core.Attends s.maybePromoteReadyLearner.core ∧
      s.core.raftLog.Grown s.maybePromoteReadyLearner.core.raftLog := by
  simp only [maybePromoteReadyLearner]
  split
  · exact ⟨.refl _, Or.inl rfl⟩
  split
  · exact ⟨.refl _, Or.inl rfl⟩
  split
  · exact ⟨.refl _, Or.inl rfl⟩
  · exact propose_attends s _

end CoreState

end AdvisKV
