import AdvisKV.Lib.Machine
import AdvisKV.Model.SampleCodec
import AdvisKV.Recovery.Boot

/-!
# AdvisKV — a replica that lost log records

A restart that finds the WAL torn, damaged or with a gap keeps what it can read and sets the
`recovering` flag, which keeps the replica out of every election. The flag lives in memory only, and the
first accepted AppendEntries or the first installed snapshot clears it, however little of the leader's
committed log it brings. `Standing` keeps the account the code does not keep: whether records are still
missing, and up to which index.

Main results:

* `WoundedReplica.step_inv` — one event, restart or action of the worker.
* `lost_records_stay_out_of_elections` — over runs that meet `WoundedReplica.CaughtUp`, a replica that
  lost records neither votes nor stands before its log covers what the leader that ended its recovery had
  committed.
-/

namespace AdvisKV

/-! ## The account -/

/-- Whether the replica has lost records: not (or it has caught up), yes and no leader has ended its
recovery yet, or yes and the leader that ended it had committed up to an index the log does not reach. -/
inductive Standing where
  | whole
  | lost
  | owing (leaderCommit : Nat)
deriving DecidableEq, Repr

/-- The account of a replica whose recovery was ended by a leader with this commit index. -/
def Standing.owed (leaderCommit : Nat) (c : RaftCore) : Standing :=
  if leaderCommit ≤ c.lastLogIndex then .whole else .owing leaderCommit

/-- The account after an event has left the core as `c`. -/
def Standing.after (leaderCommit : Nat) (c : RaftCore) : Standing → Standing
  | .whole => .whole
  | .lost => if c.recovering then .lost else owed leaderCommit c
  | .owing n => owed n c

structure WoundedReplica where
  loop : ReplicaLoop
  standing : Standing := .whole

/-- An InstallSnapshot does not carry the commit index of the leader that sends it; the action names
it. At a restart the WAL may have become any list of records. -/
inductive WoundedAction where
  | event (ev : LoopEvent) (leaderCommit : Nat)
  | restart (wal : List WalRecord)
  | workerPost
  | workerClear

namespace WoundedReplica

/-- The commit index of the leader that is speaking. -/
def announcedCommit (leaderCommit : Nat) : LoopEvent → Nat
  | .appendEntries param => param.leaderCommit
  | _ => leaderCommit

/-- The files a restart finds. -/
def damagedDisk (w : WoundedReplica) (wal : List WalRecord) : PersistEngine :=
  { w.loop.state.persist with wal }

def step (codec : SnapshotCodec) (cfg : ReplicaConfig) : WoundedAction → WoundedReplica →
    Option WoundedReplica
  | .event ev leaderCommit, w =>
    let loop := (w.loop.iterate codec ev).loop
    some { loop, standing := w.standing.after (announcedCommit leaderCommit ev) loop.state.core }
  | .restart wal, w =>
    match ReplicaLoop.boot cfg.selfId cfg.members cfg.limits cfg.snapshotLimit (w.damagedDisk wal) with
    | .error _ => none
    | .ok loop =>
      some { loop, standing := if (w.damagedDisk wal).walResult.needRecover then .lost else w.standing }
  | .workerPost, w => some { w with loop := w.loop.workerPost }
  | .workerClear, w => some { w with loop := w.loop.workerClear }

/-- The tests of `handle_append_entries` let the message through: its sender is a member, its term is not
behind, the previous entry matches and the entries can be merged into the log. -/
def Accepts (c : RaftCore) (param : AppendEntriesParam) : Prop :=
  c.membership.contains param.fromReplicaId = true ∧ c.election.currentTerm ≤ param.term ∧
    CoreState.prevLogMatches c.raftLog param = true ∧
    ∃ merged, c.raftLog.appendEntriesFromLeader param.entries = .ok merged

/-- The chunk finishes a transfer: it is the last one, it comes from a member whose term is not behind,
for a snapshot above the commit index, it continues the file received so far, and that file holds
`received`, which the state machine takes. -/
structure Finishes (codec : SnapshotCodec) (l : ReplicaLoop) (param : InstallSnapshotParam)
    (received : SnapshotData) : Prop where
  done : param.done = true
  member : l.state.core.membership.contains param.fromReplicaId = true
  term_le : l.state.core.election.currentTerm ≤ param.term
  wanted : l.state.core.raftApply.commitIndex < param.snapshotIndex
  continues : param.offset = 0 ∨ (l.receivingFiles param.snapshotIndex).length = param.offset ∧
    ∃ s, l.receiving = some s ∧ s.fromReplicaId = param.fromReplicaId ∧ s.term = param.term ∧
      s.snapshotIndex = param.snapshotIndex ∧ s.nextOffset = param.offset
  decoded : codec.decode (l.receivedFile param) = .ok received
  restored : ∃ sm, KvStateMachine.restore received = .ok sm

/-- What an event brings to a recovering replica covers what the leader has committed: the entries of
an AppendEntries that is accepted reach its `leader_commit`, or the log already did and held them all; a
snapshot whose transfer finishes reaches the leader's commit index. -/
def Covers (codec : SnapshotCodec) (l : ReplicaLoop) (leaderCommit : Nat) : LoopEvent → Prop
  | .appendEntries param => Accepts l.state.core param →
    (∃ e ∈ param.entries.getLast?, param.leaderCommit ≤ e.index) ∨
      ((∀ e ∈ param.entries, l.state.core.raftLog.holds e = true) ∧
        param.leaderCommit ≤ l.state.core.lastLogIndex)
  | .installSnapshot param =>
    ∀ received, Finishes codec l param received → leaderCommit ≤ received.header.applyIndex
  | _ => True

/-- The condition on one step: while records are missing, a leader that is accepted brings everything it
has committed, and a restart finds the WAL damaged again. -/
def CaughtUp (codec : SnapshotCodec) (w : WoundedReplica) : WoundedAction → Prop
  | .event ev leaderCommit => w.standing ≠ .whole → Covers codec w.loop leaderCommit ev
  | .restart wal => w.standing ≠ .whole → (w.damagedDisk wal).walResult.needRecover = true
  | _ => True

/-- A reply that supports a candidate. -/
def Grants : Option LoopReply → Prop
  | some (.vote result) => result.voteGranted = true
  | some (.preVote result) => result.voteGranted = true
  | _ => False

/-! ## A recovering core -/

/-- A core that is recovering: a follower with nothing left to apply. -/
structure Recovering (c : RaftCore) : Prop where
  recovering : c.recovering = true
  role : c.election.role = .follower
  shaped : c.Shaped
  commit_le : c.raftApply.commitIndex ≤ c.raftApply.lastApplied

variable {c : RaftCore} {members : List PeerMember} {disk : PersistEngine} {codec : SnapshotCodec}
  {l : ReplicaLoop} {leaderCommit : Nat}

theorem Recovering.of_boot {id : ReplicaID} (h : c.RecoveredFrom id members disk)
    (hneed : disk.walResult.needRecover = true) : Recovering c where
  recovering := by rw [h.recovering, hneed]
  role := by rw [h.election]
  shaped := h.shaped
  commit_le := by rw [h.raftApply]

theorem Recovering.followLeader {s : CoreState} (h : Recovering s.core) {t : Nat}
    (ht : s.core.election.currentTerm ≤ t) : Recovering (s.followLeader t).core where
  recovering := by rw [CoreState.followLeader_recovering, h.recovering]
  role := (CoreState.followLeader_election ht).2
  shaped := ⟨by rw [CoreState.followLeader_raftLog]; exact h.shaped.consecutive,
    by rw [CoreState.followLeader_raftLog, CoreState.followLeader_raftApply]
       exact h.shaped.snapshot_le⟩
  commit_le := by
    rw [CoreState.followLeader_raftApply]
    exact h.commit_le

/-- No move but an accepted AppendEntries or an install takes a recovering core anywhere. -/
theorem Recovering.micro {e : CoreEvent} {s s' : CoreState} (hm : Micro e s s')
    (happend : ∀ param, e ≠ .appendEntries param) (hinstall : e.KeepsSnapshot)
    (h : Recovering s.core) :
    Recovering s'.core ∧ s'.core.raftLog = s.core.raftLog := by
  obtain ⟨hrec, hrole, hshaped, hcommit⟩ := h
  -- most handlers ask for a core that is ready, the rest for a role other than follower
  have hbusy : ∀ {P : Prop}, s.core.recovering = false → P := by
    intro P hready
    rw [hrec] at hready
    cases hready
  have hother : ∀ {P : Prop} {r : ReplicaRole}, s.core.election.role = r → r ≠ .follower → P :=
    fun hr hne => absurd (hr.symm.trans hrole) hne
  cases hm with
  | timers election heartbeat active => exact ⟨⟨hrec, hrole, ⟨hshaped.1, hshaped.2⟩, hcommit⟩, rfl⟩
  | follow term hle =>
    rw [CoreState.becomeFollower_core]
    exact ⟨⟨hrec, CoreState.election_becomeFollower_role _ _, ⟨hshaped.1, hshaped.2⟩, hcommit⟩, rfl⟩
  | preCandidate ready voter role => exact hbusy ready
  | preVoteCounted sender role => exact hother role (by decide)
  | candidate ready voter role => exact hbusy ready
  | voteCounted sender result event role => exact hother role (by decide)
  | lead ready voter role quorum => exact hbusy ready
  | grantVote param event ready => exact hbusy ready
  | append param ready => exact hbusy ready
  | send m built => exact ⟨⟨hrec, hrole, hshaped, hcommit⟩, rfl⟩
  | setNext id role => exact hother role (by decide)
  | offer target built => exact hbusy built.2.1
  | settle sender sent event role => exact hother role (by decide)
  | ackOk sender sent result event ready => exact hbusy ready
  | ackFailed sender sent result event role term noLater fresh failure => exact hother role (by decide)
  | watermark sender sent result event ready => exact hbusy ready
  | leaderCommit new ready => exact hbusy ready
  | accept param log r event => exact absurd event (happend param)
  | install header event => exact absurd event (hinstall header)

/-- Hence no other event does. -/
theorem Recovering.step {e : CoreEvent} (happend : ∀ param, e ≠ .appendEntries param)
    (hinstall : e.KeepsSnapshot) (h : Recovering c) :
    Recovering (e.step { core := c }).core ∧ (e.step { core := c }).core.raftLog = c.raftLog :=
  CoreEvent.step_induction
    (P := fun s => Recovering s.core ∧ s.core.raftLog = c.raftLog)
    (fun _ _ hm hs =>
      have hnext := Recovering.micro hm happend hinstall hs.1
      ⟨hnext.1, hnext.2.trans hs.2⟩)
    ⟨h, rfl⟩

/-- The core after a leader's message has ended its recovery. -/
structure Recovered (leaderCommit : Nat) (c : RaftCore) : Prop where
  ready : c.recovering = false
  role : c.election.role = .follower
  covered : leaderCommit ≤ c.lastLogIndex

theorem Recovering.appendEntries (h : Recovering l.state.core) {param : AppendEntriesParam}
    (hcovers : Covers codec l leaderCommit (.appendEntries param)) :
    (Recovering ((CoreEvent.appendEntries param).step { core := l.state.core }).core ∧
        ((CoreEvent.appendEntries param).step { core := l.state.core }).core.raftLog =
          l.state.core.raftLog) ∨
      Recovered param.leaderCommit
        ((CoreEvent.appendEntries param).step { core := l.state.core }).core := by
  simp only [CoreEvent.step]
  cases hsuccess : (CoreState.handleAppendEntries { core := l.state.core } param).1.success
  · refine Or.inl ?_
    rcases CoreState.handleAppendEntries_failure hsuccess with heq | ⟨hterm, heq⟩
    · rw [heq]
      exact ⟨h, rfl⟩
    · rw [heq, CoreState.followLeader_raftLog]
      exact ⟨Recovering.followLeader h hterm, rfl⟩
  · have haccepted := CoreState.handleAppendEntries_success hsuccess
    obtain ⟨r, hmerged⟩ := haccepted.merged
    refine Or.inr ⟨haccepted.ready, haccepted.role_eq, ?_⟩
    rcases hcovers ⟨haccepted.member, haccepted.term_le, haccepted.prev, _, hmerged⟩
      with ⟨e, he, hle⟩ | ⟨hholds, hle⟩
    · have hreach := (RaftLog.appendEntriesFromLeader_keeps h.shaped.consecutive hmerged).2.2.2
      exact hle.trans (hreach e he)
    · -- nothing is appended, so the log reaches as far as before
      rw [RaftLog.appendEntriesFromLeader_of_holds hholds] at hmerged
      have hsame := (Prod.mk.inj (Except.ok.inj hmerged)).1
      show param.leaderCommit ≤ RaftLog.lastLogIndex _
      rw [← hsame]
      exact hle

/-- A file the loop installs is one whose transfer finishes. -/
theorem Finishes.of_receives {param : InstallSnapshotParam} {received : SnapshotData} {sm : KvStateMachine}
    (h : ReplicaLoop.Receives codec l param received) (hrestore : KvStateMachine.restore received = .ok sm) :
    Finishes codec l param received := by
  obtain ⟨-, hmember, hterm, hwanted⟩ :=
    CoreState.prepareInstallSnapshot_ok (ReplicaState.prepareInstallSnapshot_ok h.ok)
  refine ⟨h.done, hmember, hterm, (hwanted h.wanted).1, ?_, h.decoded, sm, hrestore⟩
  rcases h.length with hzero | hlength
  · exact Or.inl hzero
  · exact h.session.imp id fun hsession => ⟨hlength, hsession⟩

theorem Recovering.installed {c : RaftCore} (h : Recovering c) {header : SnapshotHeader}
    {leaderCommit : Nat} (hcovers : leaderCommit ≤ header.applyIndex) :
    Recovered leaderCommit ((CoreEvent.installSnapshot header).step { core := c }).core := by
  show Recovered leaderCommit (c.installSnapshotIntoLog header)
  refine ⟨c.installSnapshotIntoLog_recovering header, ?_, ?_⟩
  · rw [c.installSnapshotIntoLog_election]
    exact h.role
  · have hcons := RaftLog.installSnapshot_consecutive h.shaped.consecutive header.applyIndex
      header.applyTerm
    rw [RaftCore.lastLogIndex, c.installSnapshotIntoLog_raftLog]
    exact hcovers.trans (RaftLog.snapshotIndex_le_lastLogIndex hcons)

/-- Applying keeps a replica that has just left recovery a follower. -/
theorem Recovered.frame {c' : RaftCore} (h : Recovered leaderCommit c) (hframe : ApplyFrame c c') :
    Recovered leaderCommit c' where
  ready := hframe.recovering.trans h.ready
  role := by
    rcases hframe.role with heq | hrole
    · rw [heq, h.role]
    · exact hrole
  covered := by
    rw [RaftCore.lastLogIndex, hframe.raftLog]
    exact h.covered

/-! ## A recovering replica -/

/-- A replica whose recovery has not ended. No snapshot of its own can end it: the state machine and
every candidate of the worker stay at or below the published one. -/
structure Quiet (l : ReplicaLoop) : Prop where
  core : Recovering l.state.core
  machine : l.state.stateMachine.applyIndex ≤ l.state.core.snapshotIndex
  writing : ∀ d ∈ l.writing, d.header.applyIndex ≤ l.state.core.snapshotIndex
  written : ∀ d ∈ l.written, d.header.applyIndex ≤ l.state.core.snapshotIndex

theorem Quiet.of_boot {id : ReplicaID} {snapshotLimit : Nat} (h : l.BootedFrom id members snapshotLimit disk)
    (hneed : disk.walResult.needRecover = true) : Quiet l := by
  have hmachine : l.state.stateMachine.applyIndex ≤ l.state.core.snapshotIndex := by
    rw [PersistEngine.restored_applyIndex h.stateMachine, RaftCore.snapshotIndex, h.core.raftLog]
  obtain ⟨hwriting, hwritten, -⟩ := h.worker
  refine ⟨.of_boot h.core hneed, hmachine, fun d hd => ?_, fun d hd => ?_⟩
  · rw [hwriting d hd]
    exact hmachine
  · rw [hwritten] at hd
    cases hd

/-- What the handler of an event leaves of a recovering replica. -/
theorem Quiet.change (h : Quiet l) {ev : LoopEvent} (hcovers : Covers codec l leaderCommit ev)
    {s : ReplicaState} (hchange : ReplicaLoop.Change codec l ev s) :
    (Recovering s.core ∧ s.core.raftLog = l.state.core.raftLog ∧
        s.stateMachine = l.state.stateMachine) ∨
      Recovered (announcedCommit leaderCommit ev) s.core := by
  have hother : ∀ e : CoreEvent, (∀ param, e ≠ .appendEntries param) → e.KeepsSnapshot →
      Recovering (l.state.executeEvent e).2.1.core ∧
        (l.state.executeEvent e).2.1.core.raftLog = l.state.core.raftLog ∧
        (l.state.executeEvent e).2.1.stateMachine = l.state.stateMachine := by
    intro e happend hinstall
    rw [ReplicaState.executeEvent_core, ReplicaState.executeEvent_stateMachine]
    obtain ⟨hrec, hlog⟩ := h.core.step happend hinstall
    exact ⟨hrec, hlog, rfl⟩
  have hprepare : ∀ param, Recovering (l.state.prepareInstallSnapshot param).2.2.core ∧
      (l.state.prepareInstallSnapshot param).2.2.core.raftLog = l.state.core.raftLog ∧
      (l.state.prepareInstallSnapshot param).2.2.stateMachine = l.state.stateMachine := by
    intro param
    rw [ReplicaState.prepareInstallSnapshot_eq]
    exact hother _ (by simp) (by simp [CoreEvent.KeepsSnapshot])
  cases hchange with
  | idle => exact Or.inl ⟨h.core, rfl, rfl⟩
  | runs hruns =>
    cases hruns with
    | appendEntries =>
      rw [ReplicaState.executeEvent_core, ReplicaState.executeEvent_stateMachine]
      rcases h.core.appendEntries hcovers with ⟨hrec, hlog⟩ | hdone
      · exact Or.inl ⟨hrec, hlog, rfl⟩
      · exact Or.inr hdone
    | _ => exact Or.inl (hother _ (by simp) (by simp [CoreEvent.KeepsSnapshot]))
  | received hreceives hrestore =>
    refine Or.inr ?_
    rw [ReplicaState.finishInstallSnapshot_of_restore hrestore, ReplicaState.executeEvent_core]
    exact (hprepare _).1.installed (hcovers _ (.of_receives hreceives hrestore))
  | stale hqueue hle => exact Or.inl ⟨h.core, rfl, rfl⟩
  | captured hqueue hlt =>
    have hmem := h.written _ (hqueue ▸ List.mem_cons_self)
    exact absurd hlt (Nat.not_lt.mpr hmem)
  | unrestorable hreceives hrefused =>
    rw [ReplicaState.finishInstallSnapshot_of_error hrefused]
    exact Or.inl (hprepare _)

/-- **One event.** A recovering replica stays as it is, or the event ends its recovery and the log
covers what the leader had committed. -/
theorem Quiet.iterate (h : Quiet l) {ev : LoopEvent} (hcovers : Covers codec l leaderCommit ev) :
    Quiet (l.iterate codec ev).loop ∨
      Recovered (announcedCommit leaderCommit ev) (l.iterate codec ev).loop.state.core := by
  obtain ⟨s, hchange, happlies⟩ := ReplicaLoop.iterate_change codec l ev
  rcases h.change hcovers hchange with ⟨hrec, hlog, hsm⟩ | hdone
  · refine Or.inl ?_
    -- a recovering replica has nothing to apply
    have hsame : (l.iterate codec ev).loop.state = s := by
      rcases happlies with heq | ⟨status, a, happly, heq⟩
      · exact heq
      · rw [ApplyState.applyCommittedEntriesInline_idle hrec.commit_le] at happly
        obtain ⟨-, rfl⟩ := Prod.mk.inj (Option.some.inj happly)
        exact heq
    have hsnap : (l.iterate codec ev).loop.state.core.snapshotIndex =
        l.state.core.snapshotIndex := by
      rw [hsame, RaftCore.snapshotIndex, hlog]
      rfl
    have hmachine : (l.iterate codec ev).loop.state.stateMachine.applyIndex ≤
        (l.iterate codec ev).loop.state.core.snapshotIndex := by
      rw [hsnap, hsame, hsm]
      exact h.machine
    cases hfault : l.faulted
    · obtain ⟨hwriting, hwritten⟩ := ReplicaLoop.iterate_worker codec hfault ev
      refine ⟨hsame ▸ hrec, hmachine, ?_, ?_⟩
      · intro d hd
        rcases hwriting with hkeep | ⟨-, hnew⟩
        · rw [hsnap]
          exact h.writing d (hkeep ▸ hd)
        · rw [hnew] at hd
          cases hd
          exact hmachine
      · intro d hd
        rw [hsnap]
        exact h.written d (ReplicaLoop.queueAfter_subset ev _ (hwritten ▸ hd))
    · rw [ReplicaLoop.iterate_of_faulted codec hfault]
      exact h
  · exact Or.inr (hdone.frame happlies.frame.1)

/-! ## Replies -/

/-- A recovering core fails the preconditions of every vote. -/
theorem Recovering.votePreconditions (h : Recovering c) (param : RequestVoteParam) :
    (CoreState.ensureVotePreconditions c param).fail = true := by
  have hready : c.ensureReady.fail = true := by simp [RaftCore.ensureReady, h.recovering, Status.fail]
  unfold CoreState.ensureVotePreconditions
  split
  · rfl
  split
  · rfl
  · exact hready

/-- **No votes.** A recovering replica grants none. -/
theorem Recovering.no_grant (h : Recovering l.state.core) (ev : LoopEvent) :
    ¬ Grants (l.iterate codec ev).reply := by
  have hreply : ∀ status reply, ¬ Grants reply → ¬ Grants (ReplicaLoop.replyOf status reply) := by
    intro status reply hno
    unfold ReplicaLoop.replyOf
    split
    · exact id
    · split
      · exact id
      · exact hno
    · exact id
  -- an answer may be replaced by the failure of the dispatch, which grants nothing
  simp only [ReplicaLoop.iterate]
  split
  · exact id
  · refine hreply _ _ ?_
    cases ev with
    | requestVote param =>
      simp [ReplicaLoop.handle, Grants, CoreState.handleRequestVote, h.votePreconditions]
    | preVote param =>
      simp only [ReplicaLoop.handle, Grants, CoreState.handlePreVote, h.votePreconditions]
      split <;> simp
    | propose params =>
      simp only [ReplicaLoop.handle, ReplicaLoop.submitBatch]
      split <;> exact id
    | snapshotDone =>
      simp only [ReplicaLoop.handle]
      split
      · exact id
      · simp only [ReplicaLoop.onSnapshotDone]
        split <;> exact id
    | _ => exact id

/-! ## Runs -/

/-- Along a run that meets the condition a replica is whole or still recovering. -/
def Inv (w : WoundedReplica) : Prop := w.standing = .whole ∨ (w.standing = .lost ∧ Quiet w.loop)

theorem Quiet.worker {l' : ReplicaLoop} (h : Quiet l) (hstep : l.WorkerStep l') : Quiet l' := by
  have hheld : ∀ d, d ∈ l.writing ∨ d ∈ l.written → d.header.applyIndex ≤ l.state.core.snapshotIndex :=
    fun d hd => hd.elim (h.writing d) (h.written d)
  rw [hstep.same]
  exact ⟨h.core, h.machine, fun d hd => hheld d (hstep.held d (.inl hd)),
    fun d hd => hheld d (hstep.held d (.inr hd))⟩

/-- **One step.** -/
theorem step_inv {cfg : ReplicaConfig} (w : WoundedReplica) (a : WoundedAction) (w' : WoundedReplica)
    (h : w.Inv) (hguard : w.CaughtUp codec a) (hstep : step codec cfg a w = some w') : w'.Inv := by
  cases a with
  | event ev leaderCommit =>
    cases hstep
    rcases h with hwhole | ⟨hlost, hquiet⟩
    · exact Or.inl (by simp only [hwhole, Standing.after])
    · have hcovers : Covers codec w.loop leaderCommit ev := hguard (by simp [hlost])
      rcases hquiet.iterate hcovers with hq | hdone
      · refine Or.inr ⟨?_, hq⟩
        simp only [hlost, Standing.after, hq.core.recovering, if_true]
      · refine Or.inl ?_
        simp only [hlost, Standing.after, hdone.ready, Bool.false_eq_true, if_false, Standing.owed,
          hdone.covered, if_true]
  | restart wal =>
    simp only [step] at hstep
    split at hstep
    · cases hstep
    next loop hboot =>
    cases hstep
    by_cases hneed : (w.damagedDisk wal).walResult.needRecover = true
    · refine Or.inr ⟨if_pos hneed, Quiet.of_boot (ReplicaLoop.boot_ok hboot) hneed⟩
    · -- a clean WAL is only found by a replica that has lost nothing
      have hwhole : w.standing = .whole := by
        by_contra hne
        exact hneed (hguard hne)
      exact Or.inl (by simp only [hneed, if_false, hwhole, Bool.false_eq_true])
  | workerPost =>
    cases hstep
    exact h.imp id fun hq => ⟨hq.1, hq.2.worker (ReplicaLoop.workerPost_step _)⟩
  | workerClear =>
    cases hstep
    exact h.imp id fun hq => ⟨hq.1, hq.2.worker (ReplicaLoop.workerClear_step _)⟩

end WoundedReplica

open WoundedReplica in
/-- **Lost records and elections.** Start from any replica that has lost nothing. In every run that meets
the condition, a replica that has lost records and does not yet cover what the leader that ended its
recovery had committed is a follower and grants no vote and no pre-vote, whatever event comes next. -/
theorem lost_records_stay_out_of_elections (codec : SnapshotCodec) (cfg : ReplicaConfig)
    {w w' : WoundedReplica} (hstart : w.standing = .whole)
    (hrun : Machine.GuardedRun (step codec cfg) (CaughtUp codec) w w')
    (hlost : w'.standing ≠ .whole) :
    w'.loop.state.core.election.role = .follower ∧
      ∀ ev, ¬ Grants (w'.loop.iterate codec ev).reply := by
  have hinv : w'.Inv := hrun.invariant step_inv (Or.inl hstart)
  rcases hinv with hwhole | ⟨-, hquiet⟩
  · exact absurd hwhole hlost
  · exact ⟨hquiet.core.role, hquiet.core.no_grant⟩

/-! ## A replica with a torn WAL -/

/-- Replica 1 of three. -/
def tornConfig : ReplicaConfig :=
  { selfId := ⟨1, 0, 1⟩
    members := [{ replicaId := ⟨1, 0, 1⟩ }, { replicaId := ⟨1, 0, 2⟩ }, { replicaId := ⟨1, 0, 3⟩ }] }

/-- Two entries of term 1 were written and the second record is torn. -/
def tornWal : List WalRecord := [.entry { term := 1, index := 1 }, .torn]

def tornReplica : WoundedReplica :=
  { loop := { state :=
      { core := RaftCore.create tornConfig.selfId tornConfig.members tornConfig.limits
        persist := { raftMeta := { currentTerm := 1 }, wal := tornWal } } } }

/-- A heartbeat of a leader whose log is longer; a log that ends at the first entry refuses it. -/
def farHeartbeat : AppendEntriesParam :=
  { fromReplicaId := ⟨1, 0, 3⟩, toReplicaId := ⟨1, 0, 1⟩, term := 1, prevLogIndex := 3, prevLogTerm := 1,
    leaderCommit := 3 }

open WoundedReplica in
/-- After a restart on the torn WAL and a refused heartbeat. -/
theorem torn_replica_stays_out :
    ∃ w', Machine.run (step (sampleCodec {}) tornConfig)
        [.restart tornWal, .event (.appendEntries farHeartbeat) 0] tornReplica = some w' ∧
      w'.standing = .lost ∧ w'.loop.state.core.election.role = .follower ∧
      ∀ ev, ¬ Grants (w'.loop.iterate (sampleCodec {}) ev).reply := by
  refine ⟨_, rfl, rfl, ?_⟩
  refine lost_records_stay_out_of_elections (sampleCodec {}) tornConfig (w := tornReplica) rfl ?_
    (by decide)
  refine Relation.ReflTransGen.head ⟨.restart tornWal, fun h => absurd rfl h, rfl⟩ ?_
  refine Relation.ReflTransGen.single ⟨.event (.appendEntries farHeartbeat) 0, fun _ haccepts => ?_, rfl⟩
  exact absurd haccepts.2.2.1 (by decide +kernel)

/-- The first of the many entries a leader has committed. -/
def partialBatch : AppendEntriesParam :=
  { fromReplicaId := ⟨1, 0, 3⟩, toReplicaId := ⟨1, 0, 1⟩, term := 1, prevLogIndex := 1, prevLogTerm := 1,
    entries := [{ term := 1, index := 2 }], leaderCommit := 9 }

/-- The vote request of a candidate whose log ends at that entry. -/
def shortCandidate : RequestVoteParam :=
  { fromReplicaId := ⟨1, 0, 2⟩, toReplicaId := ⟨1, 0, 1⟩, term := 2, lastLogIndex := 2,
    lastLogTerm := 1 }

open WoundedReplica in
/-- One entry of a leader that has committed nine ends the recovery; the vote of a candidate with two
entries is granted while seven are missing. -/
theorem torn_replica_votes :
    ∃ w, Machine.run (step (sampleCodec {}) tornConfig)
        [.restart tornWal, .event (.appendEntries partialBatch) 0] tornReplica = some w ∧
      w.standing = .owing 9 ∧
      (w.loop.iterate (sampleCodec {}) (.requestVote shortCandidate)).reply =
        some (.vote { term := 2, voteGranted := true }) := by
  refine ⟨_, rfl, ?_, ?_⟩
  all_goals decide +kernel

end AdvisKV
