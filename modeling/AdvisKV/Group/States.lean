import AdvisKV.Group.Follow
import AdvisKV.Replica.AckRuns
import AdvisKV.Replica.Replay

/-!
# AdvisKV — the states of a fixed group

A replica of the group holds its part of the replicated log, its state machine is where the applied part of
that log leads to, and the snapshots it has published or is about to publish are states of that log. One
iteration of its loop keeps this, and all that it sends or answers is so in the replicated log.

Main results:

* `ReplicaLoop.Outcome` — what a handler does, with what it sends.
* `ReplicaLoop.Outcome.mirrors` — a handler, followed on the replicated log.
* `ReplicaLoop.Mirrors.iterate` — a whole iteration.
-/

namespace AdvisKV

open Replicated (lastTerm Grows)

/-! ## Replicas -/

/-- Replica `id`: its core, its state machine and its published snapshot. -/
structure ReplicaState.Mirrors (g : Group) (R : GroupLog) (id : ReplicaID) (s : ReplicaState) : Prop where
  core : s.core.Mirrors g R id
  machine : s.stateMachine.After ((R.log id).take s.core.raftApply.lastApplied)
  published : ∀ {d}, s.persist.snapshot = some d →
    d.Of ((R.log id).take s.core.raftLog.snapshotIndex)

/-- A snapshot taken where the replica had applied entries. -/
structure SnapshotData.Taken (R : GroupLog) (id : ReplicaID) (c : RaftCore) (d : SnapshotData) : Prop where
  applied : d.header.applyIndex ≤ c.raftApply.lastApplied
  state : d.Of ((R.log id).take d.header.applyIndex)

structure ReplicaLoop.Mirrors (g : Group) (R : GroupLog) (id : ReplicaID) (l : ReplicaLoop) : Prop where
  state : l.state.Mirrors g R id
  writing : ∀ {d}, l.writing = some d → d.Taken R id l.state.core
  written : ∀ d ∈ l.written, d.Taken R id l.state.core

/-- A snapshot of a log whose entries are all leaders' entries. -/
def SnapshotData.Backed (R : GroupLog) (d : SnapshotData) : Prop := ∃ ℓ, d.Of ℓ ∧ R.Traced ℓ

section

variable {g : Group} {R R' : GroupLog} {id : ReplicaID} {c c' : RaftCore} {s : ReplicaState}

theorem SnapshotData.Backed.mono {d : SnapshotData} (h : d.Backed R) (hg : Grows R R') :
    d.Backed R' := by
  obtain ⟨ℓ, hof, htraced⟩ := h
  exact ⟨ℓ, hof, htraced.mono hg⟩

/-- Two replicas, at two times, share what both have committed. -/
theorem Group.Keeps.take_agree {v v' : ReplicaID} {e e' : RaftElection} {l l' : RaftLog} {a a' : RaftApply}
    (h : g.Keeps R v e l a) (h' : g.Keeps R' v' e' l' a') (hg : Grows R R') {n : ℕ}
    (hn : n ≤ a.commitIndex) (hn' : n ≤ a'.commitIndex) : (R'.log v').take n = (R.log v).take n := by
  have htake := h'.chosen.take_eq (h.chosen.mono hg le_rfl) h'.charts.sound (n := n)
    (by rw [List.length_take_of_le h'.held]; exact hn') (by rw [List.length_take_of_le h.held]; exact hn)
  rwa [List.take_take, List.take_take, Nat.min_eq_left hn, Nat.min_eq_left hn'] at htake

/-- The indexes a replica has reached do not fall. -/
structure RaftCore.Advances (c c' : RaftCore) : Prop where
  snapshot : c.raftLog.snapshotIndex ≤ c'.raftLog.snapshotIndex
  applied : c.raftApply.lastApplied ≤ c'.raftApply.lastApplied
  commit : c.raftApply.commitIndex ≤ c'.raftApply.commitIndex

theorem RaftCore.Advances.refl (c : RaftCore) : c.Advances c := ⟨le_rfl, le_rfl, le_rfl⟩

theorem RaftCore.Advances.trans {c'' : RaftCore} (h : c.Advances c') (h' : c'.Advances c'') :
    c.Advances c'' :=
  ⟨h.snapshot.trans h'.snapshot, h.applied.trans h'.applied, h.commit.trans h'.commit⟩

theorem SnapshotData.Taken.stays {d : SnapshotData} (hd : d.Taken R id c) (h : c.Mirrors g R id)
    (h' : c'.Mirrors g R' id) (hg : Grows R R') (hadv : c.Advances c') : d.Taken R' id c' := by
  refine ⟨hd.applied.trans hadv.applied, ?_⟩
  have hin := hd.applied.trans h.applied
  rw [h.take_agree h'.toKeeps hg hin (hin.trans hadv.commit)]
  exact hd.state

theorem RaftCore.Mirrors.applicable (h : c.Mirrors g R id) : Applicable c :=
  ⟨h.log.consecutive, h.compacted, h.applied, h.log.lastLogIndex.symm ▸ h.held⟩

/-- The entries still to be applied. -/
theorem RaftCore.Mirrors.outstanding_eq (h : c.Mirrors g R id) :
    (R.log id).take c.raftApply.lastApplied ++ outstanding c =
      (R.log id).take c.raftApply.commitIndex := by
  unfold outstanding
  rw [h.log.entries, List.drop_drop, Nat.add_sub_cancel' h.compacted, ← List.take_add,
    Nat.add_sub_cancel' h.applied]

/-- Applying moves `last_applied` only. -/
theorem RaftCore.Mirrors.applies (h : c.Mirrors g R id) (hframe : ApplyFrame c c')
    (happlied : c'.raftApply.lastApplied ≤ c.raftApply.commitIndex) : c'.Mirrors g R id := by
  obtain ⟨-, hlog, hcommit, hlater, hterm, hvote, -, hrole, hreplication, -⟩ := hframe
  have hkeeps : g.Keeps R id c'.election c'.raftLog c'.raftApply := by
    refine ⟨h.charts, h.voter, h.term.trans hterm.symm, ?_, hlog.symm ▸ h.log, hcommit.symm ▸ h.held, ?_,
      hlog.symm ▸ h.compacted.trans hlater, happlied.trans_eq hcommit.symm⟩
    · rw [hterm, hvote]
      exact h.vote
    · rw [hterm, hcommit]
      exact h.chosen
  rcases hrole with hsame | hfollower
  · refine ⟨hkeeps, ?_, ?_⟩
    · rw [hsame]
      exact h.stands
    · rw [hsame, hreplication]
      exact h.heads
  · exact .passive hkeeps (.inl hfollower)

namespace ReplicaState.Mirrors

/-- A replica whose applied part and snapshot stay while the replicated log grows. -/
theorem stays {s' : ReplicaState} (h : s.Mirrors g R id) (hg : Grows R R')
    (hcore : s'.core.Mirrors g R' id)
    (hsnapshot : s'.core.raftLog.snapshotIndex = s.core.raftLog.snapshotIndex)
    (happlied : s'.core.raftApply.lastApplied = s.core.raftApply.lastApplied)
    (hcommit : s.core.raftApply.commitIndex ≤ s'.core.raftApply.commitIndex)
    (hmachine : s'.stateMachine = s.stateMachine) (hpersist : s'.persist.snapshot = s.persist.snapshot) :
    s'.Mirrors g R' id ∧ s.core.Advances s'.core := by
  have hstays : ∀ {n}, n ≤ s.core.raftApply.commitIndex → (R'.log id).take n = (R.log id).take n :=
    fun hn => h.core.take_agree hcore.toKeeps hg hn (hn.trans hcommit)
  refine ⟨⟨hcore, ?_, fun {d} hd => ?_⟩, hsnapshot.ge, happlied.ge, hcommit⟩
  · rw [hmachine, happlied, hstays h.core.applied]
    exact h.machine
  · rw [hpersist] at hd
    rw [hsnapshot, hstays h.core.snapshot_le]
    exact h.published hd

/-- The handler of an event, run through the executor. -/
theorem runs (h : s.Mirrors g R id) {e : CoreEvent} (hkeeps : e.KeepsSnapshot) (hshaped : s.core.Shaped)
    (hg : Grows R R') (hcore : (e.step { core := s.core }).core.Mirrors g R' id)
    (happlied : (e.step { core := s.core }).core.raftApply.lastApplied = s.core.raftApply.lastApplied)
    (hcommit : s.core.raftApply.commitIndex ≤ (e.step { core := s.core }).core.raftApply.commitIndex) :
    (s.executeEvent e).2.1.Mirrors g R' id ∧ s.core.Advances (s.executeEvent e).2.1.core := by
  have hindex := (CoreEvent.step_snapshot hkeeps hshaped.consecutive).1
  rw [← executeEvent_core] at hcore happlied hcommit hindex
  exact h.stays hg hcore hindex happlied hcommit (executeEvent_stateMachine s e) (executeEvent_snapshot s e)

/-- **Applying** what has become committed. -/
theorem caughtUp (h : s.Mirrors g R id) {sm' : KvStateMachine}
    (hup : CaughtUp s.core s.stateMachine c' sm') :
    ReplicaState.Mirrors g R id { s with core := c', stateMachine := sm' } ∧ s.core.Advances c' := by
  have hlog := hup.frame.raftLog
  refine ⟨⟨RaftCore.Mirrors.applies h.core hup.frame hup.applied.le, ?_, fun {d} hd => ?_⟩,
    hlog.symm ▸ le_rfl, hup.frame.applied, hup.frame.commit.ge⟩
  · have hlen : ((R.log id).take s.core.raftApply.lastApplied).length = s.core.raftApply.lastApplied :=
      List.length_take_of_le (h.core.applied.trans h.core.held)
    have hafter := h.machine.applyAll hup.accepts
      (by rw [hlen]; exact outstanding_consecutive (RaftCore.Mirrors.applicable h.core))
    rw [RaftCore.Mirrors.outstanding_eq h.core] at hafter
    rw [hup.machine, hup.applied]
    exact hafter
  · show d.Of ((R.log id).take c'.raftLog.snapshotIndex)
    rw [hlog]
    exact h.published hd

/-- The copy the worker is handed. -/
theorem capture (h : s.Mirrors g R id) : (ReplicaLoop.captured s).Taken R id s.core := by
  have hindex : (ReplicaLoop.captured s).header.applyIndex = s.core.raftApply.lastApplied :=
    h.machine.index.trans (List.length_take_of_le (h.core.applied.trans h.core.held))
  refine ⟨hindex.le, ?_⟩
  rw [hindex]
  exact h.machine.captured rfl

end ReplicaState.Mirrors

/-- A loop that stands still while the replicated log grows. -/
theorem ReplicaLoop.Mirrors.stays {l : ReplicaLoop} (h : l.Mirrors g R id) (hg : Grows R R')
    (hcore : l.state.core.Mirrors g R' id) : l.Mirrors g R' id :=
  ⟨(h.state.stays hg hcore rfl rfl le_rfl rfl rfl).1,
    fun hd => (h.writing hd).stays h.state.core hcore hg (.refl _),
    fun d hd => (h.written d hd).stays h.state.core hcore hg (.refl _)⟩

end

/-! ## Handlers and what they send -/

namespace ReplicaLoop

/-- What the handler of an event does to the replica, and what it sends. -/
inductive Outcome (codec : SnapshotCodec) (l : ReplicaLoop) :
    LoopEvent → Status → Bool → ReplicaState → List RaftMessage → Prop
  | idle {ev : LoopEvent} {st : Status} {faulted : Bool} (append : ∀ param, ev ≠ .appendEntries param)
    (chunk : ∀ param, ev ≠ .installSnapshot param) : Outcome codec l ev st faulted l.state []
  | runs {ev : LoopEvent} {e : CoreEvent} {st : Status} {faulted : Bool} {ms : List RaftMessage}
    (h : Runs ev e) (chunk : ∀ param, ev ≠ .installSnapshot param)
    (sent : ms ⊆ (e.step { core := l.state.core }).effects.messages) :
    Outcome codec l ev st faulted (l.state.executeEvent e).2.1 ms
  | reads {key : Key} {seq : Nat} {st : Status} {faulted : Bool} {ms : List RaftMessage}
    (sent : ms ⊆ (CoreEvent.step (.readQuorumCheck seq) { core := l.state.core }).effects.messages) :
    Outcome codec l (.submitRead key) st faulted l.state ms
  | chunk {param : InstallSnapshotParam} {st : Status} {l' : ReplicaLoop}
    (h : ChunkStep codec l param st l') :
    Outcome codec l (.installSnapshot param) st l'.faulted l'.state []
  | stale {candidate : SnapshotData} {rest : List SnapshotData} {st : Status} {faulted : Bool}
    (queued : l.written = candidate :: rest)
    (covered : candidate.header.applyIndex ≤ l.state.core.snapshotIndex) :
    Outcome codec l .snapshotDone st faulted
      { l.state with persist := l.state.persist.publishLocalSnapshot candidate } []
  | captured {candidate : SnapshotData} {rest : List SnapshotData} {st : Status} {faulted : Bool}
    (queued : l.written = candidate :: rest)
    (newer : l.state.core.snapshotIndex < candidate.header.applyIndex) :
    Outcome codec l .snapshotDone st faulted
      ({ l.state with persist := l.state.persist.publishLocalSnapshot candidate }.executeEvent
        (.installSnapshot { applyIndex := candidate.header.applyIndex
                            applyTerm := candidate.header.applyTerm })).2.1 []

variable {codec : SnapshotCodec} {l : ReplicaLoop}

/-- **Handlers.** -/
theorem handle_outcome (codec : SnapshotCodec) (l : ReplicaLoop) (ev : LoopEvent) :
    Outcome codec l ev (l.handle codec ev).status (l.handle codec ev).loop.faulted
      (l.handle codec ev).loop.state (l.handle codec ev).messages := by
  have hruns : ∀ {e : CoreEvent}, Runs ev e → (∀ param, ev ≠ .installSnapshot param) →
      ∀ {st f}, Outcome codec l ev st f (l.state.executeEvent e).2.1 (l.state.executeEvent e).2.2 :=
    fun h hchunk => .runs h hchunk fun _ hm => mem_executeEvent_messages hm
  cases ev with
  | propose params =>
    simp only [handle, submitBatch]
    split
    · exact .idle (by simp) (by simp)
    · exact hruns (runs_propose _ _ _ _ (batch_params params l.nextCompletion) _ rfl) (by simp)
  | submitRead key =>
    have hsent : ∃ seq, (l.handle codec (.submitRead key)).messages ⊆
        (CoreEvent.step (.readQuorumCheck seq) { core := l.state.core }).effects.messages := by
      simp only [handle, submitRead, ReadTracker.establish]
      split
      · exact ⟨0, List.nil_subset _⟩
      split
      · exact ⟨0, List.nil_subset _⟩
      · exact ⟨_, List.Subset.refl _⟩
    obtain ⟨seq, hsub⟩ := hsent
    exact .reads hsub
  | preVote param => exact .idle (by simp) (by simp)
  | readQuorumResponse sender readSeq responseTerm => exact .idle (by simp) (by simp)
  | installSnapshot param => exact .chunk (onInstallSnapshotChunk_step codec l param)
  | snapshotDone =>
    simp only [handle]
    split
    · exact .idle (by simp) (by simp)
    next candidate rest hqueue =>
    simp only [onSnapshotDone]
    split
    · next hle => exact .stale hqueue hle
    · next hgt =>
      -- installing a header sends nothing
      have hsilent : ∀ s : ReplicaState, ∀ header,
          (s.executeEvent (.installSnapshot header)).2.2 = [] := by
        intro s header
        rw [List.eq_nil_iff_forall_not_mem]
        intro m hm
        cases mem_executeEvent_messages hm
      simp only [runCore, hsilent]
      exact .captured hqueue (Nat.lt_of_not_le hgt)
  | tick => exact hruns .tick (by simp)
  | addMember member => exact hruns .addMember (by simp)
  | removeMember id => exact hruns .removeMember (by simp)
  | requestVote param => exact hruns .requestVote (by simp)
  | appendEntries param => exact hruns .appendEntries (by simp)
  | voteResponse sender result => exact hruns .voteResponse (by simp)
  | preVoteResponse sender result => exact hruns .preVoteResponse (by simp)
  | appendResponse sender sent result => exact hruns .appendResponse (by simp)
  | snapshotResponse sender sent result => exact hruns .snapshotResponse (by simp)
  | snapshotSendFailed sender sent => exact hruns .snapshotSendFailed (by simp)

end ReplicaLoop

/-! ## Handlers on the replicated log -/

/-- What an event that reaches the loop of `id` says is so. -/
def LoopEvent.Informed (g : Group) (R : GroupLog) (id : ReplicaID) : LoopEvent → Prop
  | .requestVote param => param.Backed R
  | .appendEntries param => param.toReplicaId = id ∧ param.Backed g R
  | .installSnapshot param => param.toReplicaId = id ∧ param.Backed g R
  | .voteResponse sender result => (CoreEvent.voteResponse sender result).Informed R id
  | .appendResponse sender sent result => (CoreEvent.appendResponse sender sent result).Informed R id
  | .snapshotResponse sender sent result =>
    (CoreEvent.snapshotResponse sender sent result).Informed R id
  | _ => True

/-- What the answer to an event says is so; `c` is the core that was asked. -/
def LoopEvent.Answered (R : GroupLog) (id : ReplicaID) (c : RaftCore) (status : Status) (faulted : Bool) :
    LoopEvent → Prop
  | .appendEntries param =>
    (CoreEvent.appendResponse id param (CoreState.handleAppendEntries { core := c } param).1).Informed R
      param.fromReplicaId
  | .installSnapshot param => status.fail = false → faulted = false → param.done = true →
    R.Holds param.term id param.snapshotIndex ∧ R.Synced param.term id
  | _ => True

theorem LoopEvent.answered_of_ne {R : GroupLog} {id : ReplicaID} {c : RaftCore} {status : Status}
    {faulted : Bool} {ev : LoopEvent} (happend : ∀ param, ev ≠ .appendEntries param)
    (hchunk : ∀ param, ev ≠ .installSnapshot param) : ev.Answered R id c status faulted := by
  cases ev with
  | appendEntries param => exact absurd rfl (happend param)
  | installSnapshot param => exact absurd rfl (hchunk param)
  | _ => trivial

/-- An AppendEntries is answered, and nothing else is sent. -/
theorem CoreState.handleAppendEntries_messages (s : CoreState) (param : AppendEntriesParam) :
    (s.handleAppendEntries param).2.effects.messages = s.effects.messages := by
  have hfollow : (s.followLeader param.term).effects.messages = s.effects.messages := by
    simp only [followLeader, becomeFollower]
    repeat' split
    all_goals rfl
  unfold handleAppendEntries
  dsimp only
  split
  · rfl
  split
  · rfl
  split
  · exact hfollow
  split
  · exact hfollow
  split
  · exact hfollow
  · simp only [acceptAppend, storeMerge]
    split <;> exact hfollow

/-- Asking for a read quorum only sends. -/
theorem CoreState.buildReadQuorumCheck_core (s : CoreState) (seq : Nat) :
    (s.buildReadQuorumCheck seq).2.core = s.core := by
  simp only [buildReadQuorumCheck]
  split
  · rfl
  · exact List.foldlRecOn _ _ (motive := fun s' : CoreState => s'.core = s.core) rfl fun _ h _ _ => h

variable {param : InstallSnapshotParam}

/-- A transfer that is let through makes the replica follow its sender and touches nothing else. -/
theorem ReplicaState.prepareInstallSnapshot_follows {s : ReplicaState}
    (hok : (s.prepareInstallSnapshot param).1.fail = false) :
    (s.prepareInstallSnapshot param).2.2.core.election.currentTerm = param.term ∧
      (s.prepareInstallSnapshot param).2.2.core.raftLog = s.core.raftLog ∧
      (s.prepareInstallSnapshot param).2.2.core.raftApply = s.core.raftApply := by
  obtain ⟨heq, -, hterm, -⟩ := CoreState.prepareInstallSnapshot_ok (prepareInstallSnapshot_ok hok)
  have hcore : (s.prepareInstallSnapshot param).2.2.core =
      (CoreState.followLeader { core := s.core } param.term).core := by
    rw [prepareInstallSnapshot_eq, executeEvent_core]
    exact congrArg CoreState.core heq
  rw [hcore]
  exact ⟨(CoreState.followLeader_election hterm).1, CoreState.followLeader_raftLog _ _,
    CoreState.followLeader_raftApply _ _⟩

/-- A transfer the replica has no use for. -/
theorem ReplicaState.prepareInstallSnapshot_covers {s : ReplicaState}
    (hok : (s.prepareInstallSnapshot param).1.fail = false) (hpos : 0 < param.snapshotIndex)
    (hcovered : param.snapshotIndex ≤ (s.prepareInstallSnapshot param).2.1) : s.core.Covers param := by
  have hcore := prepareInstallSnapshot_ok hok
  replace hcovered : param.snapshotIndex ≤
      (CoreState.prepareInstallSnapshot { core := s.core } param).2.1 := hcovered
  unfold CoreState.prepareInstallSnapshot at hcore hcovered
  split at hcovered
  · exact absurd hcovered (Nat.not_le.mpr hpos)
  split at hcovered
  · exact absurd hcovered (Nat.not_le.mpr hpos)
  simp only [CoreState.followLeader_raftApply, CoreState.followLeader_raftLog] at hcovered
  split at hcovered
  · next hcommitted => exact .inl hcommitted
  split at hcovered
  · next hheld =>
    simp only [Bool.and_eq_true, decide_eq_true_eq, beq_iff_eq] at hheld
    exact .inr ⟨hheld.1.2, hheld.2⟩
  · exact absurd hcovered (Nat.not_le.mpr hpos)

section

variable {g : Group} {R R' : GroupLog} {F : Published} {id : ReplicaID} {s : ReplicaState}
  {l : ReplicaLoop} {ev : LoopEvent}

namespace ReplicaState.Mirrors

/-- A published snapshot is installed into the log. -/
theorem installs {d : SnapshotData} {header : SnapshotHeader} {a : RaftApply}
    (hd : s.persist.snapshot = some d) (happly : s.core.raftApply.installSnapshot header.applyIndex = a)
    (hcore : g.Mirrors R id s.core.election
      (s.core.raftLog.installSnapshot header.applyIndex header.applyTerm) a s.core.replication)
    (hmachine : s.stateMachine.After ((R.log id).take a.lastApplied))
    (hof : d.Of ((R.log id).take header.applyIndex))
    (hlater : s.core.raftLog.snapshotIndex ≤ header.applyIndex) :
    (s.executeEvent (.installSnapshot header)).2.1.Mirrors g R id ∧
      s.core.Advances (s.executeEvent (.installSnapshot header)).2.1.core := by
  have hstep : (s.executeEvent (.installSnapshot header)).2.1.core = s.core.installSnapshotIntoLog header :=
    executeEvent_core _ _
  have hlog := s.core.installSnapshotIntoLog_raftLog header
  have hindexes := (s.core.installSnapshotIntoLog_raftApply header).trans happly
  refine ⟨⟨?_, ?_, fun {d'} hd' => ?_⟩, ?_⟩
  · unfold RaftCore.Mirrors
    rw [hstep, hlog, hindexes, s.core.installSnapshotIntoLog_election, s.core.installSnapshotIntoLog_replication]
    exact hcore
  · rw [executeEvent_stateMachine, hstep, hindexes]
    exact hmachine
  · rw [executeEvent_snapshot, hd] at hd'
    rw [hstep, hlog, ← Option.some.inj hd']
    exact hof
  · rw [hstep]
    refine ⟨?_, ?_, ?_⟩
    · rw [hlog]
      exact hlater
    · rw [hindexes, ← happly]
      show s.core.raftApply.lastApplied ≤ if _ then _ else _
      split <;> omega
    · rw [hindexes, ← happly]
      show s.core.raftApply.commitIndex ≤ if _ then _ else _
      split <;> omega

/-- A snapshot that has been received whole. -/
theorem received (h : s.Mirrors g R id) (hrole : s.core.election.role = .follower)
    {param : InstallSnapshotParam} (hparam : param.Backed g R) (hto : param.toReplicaId = id)
    (hterm : s.core.election.currentTerm = param.term)
    (hlater : s.core.raftApply.commitIndex < param.snapshotIndex) {d : SnapshotData} (hd : d.Backed R)
    (hindex : d.header.applyIndex = param.snapshotIndex)
    (hheader : d.header.applyTerm = param.snapshotTerm) :
    ∃ R', R.Moved id R' ∧ (s.finishInstallSnapshot d).2.Mirrors g R' id ∧
      s.core.Advances (s.finishInstallSnapshot d).2.core ∧
      R'.Holds param.term id param.snapshotIndex ∧ R'.Synced param.term id := by
  obtain ⟨ℓ, hof, htraced⟩ := hd
  obtain ⟨sm, hrestore, hafter⟩ := hof.restore
  obtain ⟨R', hmoved, hcore, hholds, hsynced, hlast⟩ := h.core.installReceived hrole hparam hto hterm hlater
  have hlen : ℓ.length = param.snapshotIndex := hof.index.symm.trans hindex
  have hwhole : ℓ.take param.snapshotIndex = ℓ := List.take_of_length_le hlen.le
  -- the snapshot is of the log the replica has now
  have hlog : (R'.log id).take param.snapshotIndex = ℓ := by
    refine Eq.trans ?_ hwhole
    refine (hcore.charts.sound.traced id).take_eq_of_lastTerm (htraced.mono hmoved.grows) hcore.log.covered
      hlen.ge ?_
    rw [hwhole, ← hof.term, hheader]
    exact hlast
  have happly : s.core.raftApply.installSnapshot d.header.applyIndex =
      ⟨param.snapshotIndex, param.snapshotIndex⟩ := by
    rw [hindex, RaftApply.installSnapshot, if_pos hlater, if_pos (h.core.applied.trans_lt hlater)]
  rw [ReplicaState.finishInstallSnapshot_of_restore hrestore]
  obtain ⟨hmirrors, hadvances⟩ := installs (R := R') (s := { s with
    persist := { s.persist with snapshot := some d }, stateMachine := sm }) rfl happly
    (by rw [hindex, hheader]; exact hcore) (hlog.symm ▸ hafter) (by rw [hindex, hlog]; exact hof)
    (by rw [hindex]; exact h.core.snapshot_le.trans hlater.le)
  exact ⟨R', hmoved, hmirrors, hadvances, hholds, hsynced⟩

/-- A snapshot the worker has written. -/
theorem captured (h : s.Mirrors g R id) {d : SnapshotData} (hd : d.Taken R id s.core)
    (hnewer : s.core.raftLog.snapshotIndex < d.header.applyIndex)
    (hpublish : s.persist.publishLocalSnapshot d = { s.persist with snapshot := some d })
    {s' : ReplicaState} (hs' : s' = (({ s with persist := s.persist.publishLocalSnapshot d } :
      ReplicaState).executeEvent (.installSnapshot
        { applyIndex := d.header.applyIndex, applyTerm := d.header.applyTerm })).2.1) :
    s'.Mirrors g R id ∧ s.core.Advances s'.core := by
  have hcore := h.core
  have hcommit := hd.applied.trans hcore.applied
  subst hs'
  refine installs (s := { s with persist := s.persist.publishLocalSnapshot d }) (d := d)
    (a := s.core.raftApply) (by rw [hpublish]) ?_ ?_ h.machine hd.state hnewer.le
  · rw [RaftApply.installSnapshot, if_neg (Nat.not_lt.mpr hcommit), if_neg (Nat.not_lt.mpr hd.applied)]
  · exact ⟨⟨hcore.charts, hcore.voter, hcore.term, hcore.vote, hcore.log.install_kept hnewer.le
      (hcommit.trans hcore.held) hd.state.term.symm, hcore.held, hcore.chosen, hd.applied, hcore.applied⟩,
      hcore.stands, hcore.heads⟩

end ReplicaState.Mirrors

variable {e : CoreEvent}

theorem ReplicaLoop.Runs.informed (h : ReplicaLoop.Runs ev e) (hinf : ev.Informed g R id)
    (hne : ∀ param, e ≠ .appendEntries param) : e.Informed R id := by
  cases h with
  | requestVote => exact hinf
  | voteResponse => exact hinf
  | appendResponse => exact hinf
  | snapshotResponse => exact hinf
  | appendEntries => exact absurd rfl (hne _)
  | _ => trivial

/-- The handler of the core that an event runs. -/
theorem ReplicaLoop.Runs.mirrors (h : ReplicaLoop.Runs ev e) (hev : ev.Regular) (hinf : ev.Informed g R id)
    (hreg : s.core.Regular g id) (hs : s.Mirrors g R id) :
    ∃ R', R.Moved id R' ∧ (s.executeEvent e).2.1.Mirrors g R' id ∧
      s.core.Advances (s.executeEvent e).2.1.core ∧
      (∀ m ∈ (e.step { core := s.core }).effects.messages, m.Backed g R') ∧
      ∀ {param}, ev = .appendEntries param → (CoreEvent.appendResponse id param
        (CoreState.handleAppendEntries { core := s.core } param).1).Informed R' param.fromReplicaId := by
  obtain ⟨hplain, hkeeps⟩ := h.regular (g := g) hev
  -- a merge may replace entries, every other handler only appends
  by_cases happend : ∃ param, e = .appendEntries param
  · obtain ⟨param, rfl⟩ := happend
    cases h
    obtain ⟨hto, hparam⟩ := hinf
    obtain ⟨R', hmoved, hcore, happlied, hcommit, hanswer⟩ :=
      RaftCore.Mirrors.handleAppendEntries hs.core hreg hparam hto
    obtain ⟨hmirrors, hadvances⟩ := hs.runs hkeeps hreg.shaped hmoved.grows hcore happlied hcommit
    refine ⟨R', hmoved, hmirrors, hadvances, fun m hm => ?_, ?_⟩
    · have hnone := CoreState.handleAppendEntries_messages { core := s.core } param
      replace hm : m ∈ (CoreState.handleAppendEntries { core := s.core } param).2.effects.messages := hm
      rw [hnone] at hm
      cases hm
    · rintro _ ⟨⟩
      exact hanswer
  · have hne : ∀ param, e ≠ .appendEntries param := fun param heq => happend ⟨param, heq⟩
    obtain ⟨R', hmoved, hcore, hsent⟩ := CoreEvent.step_mirrors hplain hreg hs.core (h.informed hinf hne)
    have hgrows := CoreEvent.step_grows ⟨hne, hkeeps⟩ hreg.shaped
      (RaftCore.Mirrors.applicable hs.core).commit_le
    obtain ⟨hmirrors, hadvances⟩ :=
      hs.runs hkeeps hreg.shaped hmoved.grows hcore hgrows.applied hgrows.commit_ge
    refine ⟨R', hmoved, hmirrors, hadvances, hsent, fun {param} heq => ?_⟩
    subst heq
    cases h
    exact absurd rfl (hne _)

/-- The snapshots on file are snapshots of the replicated log. -/
structure Published.Backed (g : Group) (R : GroupLog) (F : Published) : Prop where
  regular : ∀ {v i d}, F v i = some d → d.Regular g ∧ d.header.applyIndex = i
  backed : ∀ {v i d}, F v i = some d → d.Backed R

/-- A chunk of a snapshot. -/
theorem ReplicaLoop.ChunkStep.mirrors {param : InstallSnapshotParam} {st : Status} {l' : ReplicaLoop}
    (h : ReplicaLoop.ChunkStep g.codec l param st l') (hl : l.Mirrors g R id)
    (hreg : l.Regular g F id) (hF : F.Backed g R) (hchunk : (Packet.chunk param).Regular g F)
    (hto : param.toReplicaId = id) (hparam : param.Backed g R) :
    ∃ R', R.Moved id R' ∧ l'.state.Mirrors g R' id ∧ l.state.core.Advances l'.state.core ∧
      (LoopEvent.installSnapshot param).Answered R' id l.state.core st l'.faulted := by
  -- preparing comes first, whatever follows
  have hruns : ReplicaLoop.Runs (.installSnapshot param) (.prepareInstallSnapshot param) := .prepare
  obtain ⟨R₁, hmoved, h₁, hadvances, -, -⟩ := hruns.mirrors (R := R) (s := l.state) trivial
    ⟨hto, hparam⟩ hreg.state.core hl.state
  rw [← ReplicaState.prepareInstallSnapshot_eq] at h₁ hadvances
  have hparam₁ := hparam.mono hl.state.core.charts hmoved.grows
  cases h with
  | refused failed =>
    refine ⟨R₁, hmoved, h₁, hadvances, fun hok _ _ => ?_⟩
    rw [hok] at failed
    cases failed
  | unreadable => exact ⟨R₁, hmoved, h₁, hadvances, fun _ hserving _ => nomatch hserving⟩
  | covered ok covered =>
    refine ⟨R₁, hmoved, h₁, hadvances, fun _ _ _ => ?_⟩
    obtain ⟨hterm, hlog, happly⟩ := ReplicaState.prepareInstallSnapshot_follows ok
    obtain ⟨p, hp, -⟩ := hparam.probed
    have hcovers := ReplicaState.prepareInstallSnapshot_covers ok (by omega) covered
    unfold RaftCore.Covers at hcovers
    rw [← hlog, ← happly] at hcovers
    exact Group.Mirrors.covered h₁.core hparam₁ hto hterm hcovers
  | part _ more =>
    refine ⟨R₁, hmoved, h₁, hadvances, fun _ _ hdone => ?_⟩
    rw [more] at hdone
    cases hdone
  | @installed received _ _ _ hr =>
    obtain ⟨hterm, -, happly⟩ := ReplicaState.prepareInstallSnapshot_follows hr.ok
    have hwanted := ReplicaState.prepareInstallSnapshot_wanted hr.ok hr.wanted
    rw [← happly] at hwanted
    obtain ⟨d, hd, hpart⟩ := hchunk
    obtain rfl := hreg.received hd hpart hr
    obtain ⟨R₂, hmoved', h₂, hadvances', hanswer⟩ := h₁.received
      (ReplicaState.prepareInstallSnapshot_role hr.ok) hparam₁ hto hterm hwanted
      ((hF.backed hd).mono hmoved.grows) (hF.regular hd).2 hpart.term
    exact ⟨R₂, hmoved.trans hmoved', h₂, hadvances.trans hadvances', fun _ _ _ => hanswer⟩

/-- **Handlers.** -/
theorem ReplicaLoop.Outcome.mirrors {st : Status} {faulted : Bool} {ms : List RaftMessage}
    (h : ReplicaLoop.Outcome g.codec l ev st faulted s ms) (hl : l.Mirrors g R id)
    (hreg : l.Regular g F id) (hF : F.Backed g R) (hev : ev.Regular) (hinf : ev.Informed g R id)
    (hchunk : ∀ {param}, ev = .installSnapshot param → (Packet.chunk param).Regular g F) :
    ∃ R', R.Moved id R' ∧ s.Mirrors g R' id ∧ l.state.core.Advances s.core ∧
      (∀ m ∈ ms, m.Backed g R') ∧ ev.Answered R' id l.state.core st faulted := by
  have hindex := hreg.state.index
  rw [← PersistEngine.publishedIndex_eq] at hindex
  cases h with
  | idle append chunk =>
    exact ⟨R, .refl id R, hl.state, .refl _, by simp, LoopEvent.answered_of_ne append chunk⟩
  | @runs _ e _ _ _ hruns chunk sent =>
    obtain ⟨R', hmoved, hs, hadvances, hsent, hanswer⟩ := hruns.mirrors hev hinf hreg.state.core hl.state
    refine ⟨R', hmoved, hs, hadvances, fun m hm => hsent m (sent hm), ?_⟩
    cases ev with
    | appendEntries param => exact hanswer rfl
    | installSnapshot param => exact absurd rfl (chunk param)
    | _ => trivial
  | @reads key seq _ _ _ sent =>
    have hasked : (CoreEvent.readQuorumCheck seq).Regular g := trivial
    obtain ⟨R', hmoved, hcore, hsent⟩ := CoreEvent.step_mirrors hasked hreg.state.core hl.state.core trivial
    have hsame : (CoreEvent.step (.readQuorumCheck seq) { core := l.state.core }).core = l.state.core :=
      CoreState.buildReadQuorumCheck_core _ seq
    rw [hsame] at hcore
    obtain ⟨hs, hadvances⟩ := hl.state.stays hmoved.grows hcore rfl rfl le_rfl rfl rfl
    exact ⟨R', hmoved, hs, hadvances, fun m hm => hsent m (sent hm), trivial⟩
  | chunk hout =>
    obtain ⟨hto, hparam⟩ := hinf
    obtain ⟨R', hmoved, hs, hadvances, hanswer⟩ := hout.mirrors hl hreg hF (hchunk rfl) hto hparam
    exact ⟨R', hmoved, hs, hadvances, by simp, hanswer⟩
  | @stale candidate rest _ _ queued covered =>
    have hsame : l.state.persist.publishLocalSnapshot candidate = l.state.persist :=
      if_pos (covered.trans_eq hindex.symm)
    rw [hsame]
    exact ⟨R, .refl id R, hl.state, .refl _, by simp, trivial⟩
  -- the log is cut at a state that this replica has applied itself
  | @captured candidate rest _ _ queued newer =>
    have hpublish : l.state.persist.publishLocalSnapshot candidate =
        { l.state.persist with snapshot := some candidate } :=
      if_neg (Nat.not_le.mpr (hindex.trans_lt newer))
    have htaken := hl.written candidate (by rw [queued]; exact List.mem_cons_self)
    obtain ⟨hs, hadvances⟩ := hl.state.captured htaken newer hpublish rfl
    exact ⟨R, .refl id R, hs, hadvances, by simp, trivial⟩

/-! ## Iterations -/

/-- The end of a dispatch: a faulted loop does nothing more, any other applies all that is committed. -/
theorem ReplicaLoop.finishDispatch_plain (hc : Applicable l.state.core)
    (hplain : ∀ e ∈ l.state.core.raftLog.logEntries, e.Plain) (status : Status) :
    (l.faulted = true ∧ (l.finishDispatch status).2.state = l.state ∧
      (l.finishDispatch status).1.fail = true) ∨
    (l.faulted = false ∧ (l.finishDispatch status).1.fail = status.fail ∧
      ∃ c' sm', CaughtUp l.state.core l.state.stateMachine c' sm' ∧
        (l.finishDispatch status).2.state = { l.state with core := c', stateMachine := sm' }) := by
  unfold ReplicaLoop.finishDispatch
  split
  · next hfaulted =>
    refine .inl ⟨hfaulted, rfl, ?_⟩
    dsimp only
    split
    · next hfail => exact hfail
    · rfl
  · next hserving =>
    obtain ⟨st, a, happly, hok, hup⟩ := @caughtUp_of_plain _ l.state.stateMachine hc hplain
    refine .inr ⟨by simpa using hserving, ?_, a.core, a.stateMachine, hup, ?_⟩
    · simp only [happly]
      split
      · next hfail => exact hfail.symm ▸ hfail
      · next hfine => rw [hok, Bool.eq_false_of_not_eq_true hfine]
    · simp only [happly]

/-- A dispatch that went well hands back the handler's reply. -/
theorem LoopReply.appendResult_replyOf {status : Status} (hok : status.fail = false)
    (r : AppendEntriesResult) :
    LoopReply.appendResult (ReplicaLoop.replyOf status (some (.append r))) = r := by
  simp [ReplicaLoop.replyOf, LoopReply.appendResult, hok]

/-- The files take what a handler has recorded. -/
theorem ReplicaState.executeEvent_ok (hfiles : s.persist.Matches s.core)
    (hconsecutive : s.core.raftLog.Consecutive) (hstatus : (e.status { core := s.core }).fail = false) :
    (s.executeEvent e).1.fail = false := by
  have hpersist := (PersistEngine.persistEffects_matches hfiles (e.step_noted hconsecutive)).1
  simp only [executeEvent, execute, hpersist, hstatus, Status.fail_OK, Bool.false_eq_true, if_false]

/-- **An iteration.** -/
theorem ReplicaLoop.Mirrors.iterate (hl : l.Mirrors g R id) (hreg : l.Regular g F id)
    (hserving : l.faulted = false) (hF : F.Backed g R) (hev : ev.Regular) (hinf : ev.Informed g R id)
    (hchunk : ∀ {param}, ev = .installSnapshot param → (Packet.chunk param).Regular g F) :
    ∃ R', R.Moved id R' ∧ (l.iterate g.codec ev).loop.Mirrors g R' id ∧
      l.state.core.Advances (l.iterate g.codec ev).loop.state.core ∧
      (∀ m ∈ (l.iterate g.codec ev).messages, m.Backed g R') ∧
      (∀ {param}, ev = .appendEntries param → (CoreEvent.appendResponse id param
        (LoopReply.appendResult (l.iterate g.codec ev).reply)).Informed R' param.fromReplicaId) ∧
      ∀ {param}, ev = .installSnapshot param → (l.iterate g.codec ev).status.fail = false →
        param.done = true → R'.Holds param.term id param.snapshotIndex ∧ R'.Synced param.term id := by
  obtain ⟨R', hmoved, hs, hadvances, hsent, hanswer⟩ :=
    (handle_outcome g.codec l ev).mirrors hl hreg hF hev hinf hchunk
  obtain ⟨F', -, -, hreg', -⟩ := hreg.iterate hserving hF.regular hev hchunk
  obtain ⟨hwriting, hwritten⟩ := iterate_worker g.codec hserving ev
  set h := l.handle g.codec ev with hhandle
  obtain ⟨hloop, hstatus, hmessages, hreply⟩ :
      (l.iterate g.codec ev).loop.state = (h.loop.finishDispatch h.status).2.state ∧
      (l.iterate g.codec ev).status = (h.loop.finishDispatch h.status).1 ∧
      (l.iterate g.codec ev).messages = h.messages ∧
      (l.iterate g.codec ev).reply = replyOf (h.loop.finishDispatch h.status).1 h.reply := by
    simp only [ReplicaLoop.iterate, hserving, Bool.false_eq_true, if_false, endIteration_state,
      answerRead_state, ← hhandle, and_self]
  have hplain : ∀ e ∈ h.loop.state.core.raftLog.logEntries, e.Plain := by
    have hframe := (h.loop.finishDispatch_applies h.status).frame.1
    rw [← hframe.raftLog, ← hloop]
    exact hreg'.state.core.plain
  have hfinish := finishDispatch_plain (RaftCore.Mirrors.applicable hs.core) hplain h.status
  rw [← hloop] at hfinish
  -- the replica after the iteration
  obtain ⟨hstate, happlied⟩ : (l.iterate g.codec ev).loop.state.Mirrors g R' id ∧
      h.loop.state.core.Advances (l.iterate g.codec ev).loop.state.core := by
    rcases hfinish with ⟨-, hsame, -⟩ | ⟨-, -, c', sm', hup, heq⟩
    · rw [hsame]
      exact ⟨hs, .refl _⟩
    · rw [heq]
      exact hs.caughtUp hup
  have hall := hadvances.trans happlied
  refine ⟨R', hmoved, ⟨hstate, fun {d} hd => ?_, fun d hd => ?_⟩, hall, ?_, ?_, ?_⟩
  · rcases hwriting with hsame | ⟨-, hnew⟩
    · rw [hsame] at hd
      exact (hl.writing hd).stays hl.state.core hstate.core hmoved.grows hall
    · rw [hnew] at hd
      cases hd
      exact hstate.capture
  · rw [hwritten] at hd
    exact (hl.written d (queueAfter_subset ev _ hd)).stays hl.state.core hstate.core hmoved.grows hall
  · rw [hmessages]
    exact hsent
  · rintro param rfl
    have hok : (h.loop.finishDispatch h.status).1.fail = false := by
      have hexecuted : h.status.fail = false :=
        ReplicaState.executeEvent_ok hreg.state.files hreg.state.core.shaped.consecutive rfl
      rcases hfinish with ⟨hfaulted, -, -⟩ | ⟨-, hfail, -⟩
      · rw [show h.loop.faulted = l.faulted from rfl, hserving] at hfaulted
        cases hfaulted
      · rw [hfail]
        exact hexecuted
    rw [hreply, show h.reply = some (.append
      (CoreState.handleAppendEntries { core := l.state.core } param).1) from rfl,
      LoopReply.appendResult_replyOf hok]
    exact hanswer
  · rintro param rfl hok hdone
    rw [hstatus] at hok
    rcases hfinish with ⟨-, -, hfail⟩ | ⟨hfine, hfail, -⟩
    · rw [hok] at hfail
      cases hfail
    · rw [hok] at hfail
      exact hanswer hfail.symm hfine hdone

end

end AdvisKV
