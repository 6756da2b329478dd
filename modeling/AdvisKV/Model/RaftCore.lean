import AdvisKV.Model.RaftParts

/-!
# AdvisKV — the Raft core

`RaftCore` with its handlers, one definition per member function, in the order of the
`storage/raft/core` sources. A member function that fills a `RaftEffects` out-parameter maps a
`CoreState` (the core together with the effects collected so far) to a `CoreState`.
-/

namespace AdvisKV

structure RaftCore where
  selfId : ReplicaID
  election : RaftElection
  raftLog : RaftLog := {}
  raftApply : RaftApply := {}
  membership : RaftMembership := {}
  replication : RaftReplication := {}
  electionTickTrigger : TickTrigger := {}
  heartbeatTickTrigger : TickTrigger := {}
  recentLeaderActive : Bool := false
  recovering : Bool := false

/-- A core in the middle of a step, with the effects it has recorded. -/
structure CoreState where
  core : RaftCore
  effects : RaftEffects := {}

namespace RaftCore

/-- The constructor. `limits` is the sequence of random election timeouts this core will draw. -/
def create (selfId : ReplicaID) (members : List PeerMember) (limits : Nat → Nat) : RaftCore :=
  { selfId
    election := { selfId }
    membership := RaftMembership.resetVoters members
    electionTickTrigger := TickTrigger.generated limits
    heartbeatTickTrigger := TickTrigger.fixed heartbeatIntervalTicks }

def currentTerm (c : RaftCore) : Nat := c.election.currentTerm
def commitIndex (c : RaftCore) : Nat := c.raftApply.commitIndex
def lastApplied (c : RaftCore) : Nat := c.raftApply.lastApplied
def lastLogIndex (c : RaftCore) : Nat := c.raftLog.lastLogIndex
def snapshotIndex (c : RaftCore) : Nat := c.raftLog.snapshotIndex
def isLeader (c : RaftCore) : Bool := c.election.isLeader

def laterThanOther (c : RaftCore) (otherTerm otherIndex : Nat) : Bool :=
  if c.raftLog.lastLogTerm ≠ otherTerm then decide (otherTerm < c.raftLog.lastLogTerm)
  else decide (otherIndex < c.raftLog.lastLogIndex)

def hasCommittedCurrentTermEntry (c : RaftCore) : Bool :=
  c.raftApply.hasCommittedCurrentTermEntry c.raftLog c.election.currentTerm

def ensureReady (c : RaftCore) : Status :=
  if c.recovering then ⟨.isRecovering, "raft node is recovering"⟩ else .OK

def ensureWritableLeader (c : RaftCore) : Status :=
  if c.ensureReady.fail then c.ensureReady
  else if !c.election.isLeader then ⟨.notLeader, "not leader"⟩
  else if !c.membership.isVoter c.selfId then ⟨.notVoter, "self is not voter"⟩
  else .OK

def ensureReadableLeader (c : RaftCore) : Status :=
  if c.ensureReady.fail then c.ensureReady
  else if !c.election.isLeader then ⟨.notLeader, "not leader"⟩
  else if !c.hasCommittedCurrentTermEntry then
    ⟨.readIndexNotReady, "current term entry is not committed"⟩
  else .OK

def advanceLastApplied (c : RaftCore) (applied : Nat) : RaftCore :=
  { c with raftApply := c.raftApply.advanceLastApplied applied }

/-! ## Applying config entries -/

def stepDownIfBecomeNonMember (c : RaftCore) : RaftCore :=
  if c.membership.memberType c.selfId ≠ .nonMember then c
  else
    { c with
      recentLeaderActive := false
      election := if c.election.isFollower then c.election
        else c.election.becomeFollower c.election.currentTerm
      heartbeatTickTrigger := c.heartbeatTickTrigger.stop
      -- a replica outside the group must not start an election
      electionTickTrigger := c.electionTickTrigger.stop }

/-- The membership change a config entry stands for. -/
def applyMembershipChange (m : RaftMembership) (entry : LogEntry) : Status × RaftMembership :=
  match entry.opType with
  | .addLearner => m.addLearner entry.configMember
  | .promoteVoter => m.promoteVoter entry.configReplicaId
  | .removeMember => m.removeMember entry.configReplicaId
  | _ => (⟨.invalidArgument, "not a config entry"⟩, m)

def applyConfigEntry (c : RaftCore) (entry : LogEntry) : Status × RaftCore :=
  let r := applyMembershipChange c.membership entry
  if r.1.fail then (r.1, c)
  else
    let c := stepDownIfBecomeNonMember { c with membership := r.2 }
    (.OK, { c with raftApply := c.raftApply.advanceLastApplied entry.index })

/-! ## Proposals -/

def validateProposal : ProposeParam → Status
  | .write w => if !w.op.isKvWriteOp then ⟨.invalidArgument, "invalid write proposal op"⟩ else .OK
  | .noop => .OK
  | .configChange c =>
    if !c.op.isConfigChangeOp then ⟨.invalidArgument, "invalid config change op"⟩ else .OK

def firstUnappliedConfigEntry (c : RaftCore) : Option LogEntry :=
  (List.range' (c.raftApply.lastApplied + 1)
    (c.raftLog.lastLogIndex - c.raftApply.lastApplied)).findSome? fun i =>
      match c.raftLog.entryAt i with
      | some e => if e.opType.isConfigChangeOp then some e else none
      | none => none

/-! ## Reads -/

def confirmReadIndex (c : RaftCore) (readIndex readTerm : Nat) : Status :=
  if c.ensureReadableLeader.fail then c.ensureReadableLeader
  else if readTerm ≠ c.election.currentTerm then
    ⟨.notLeader, "leader term changed during read"⟩
  else if c.raftApply.commitIndex < readIndex then
    ⟨.readIndexNotReady, "commit index moved behind read index"⟩
  else .OK

/-! ## Recovery -/

def updateRaftMeta (c : RaftCore) (m : RaftMeta) : RaftCore :=
  { c with election := c.election.updateMeta m }

def updateLogEntries (c : RaftCore) (es : List LogEntry) : RaftCore :=
  { c with raftLog := c.raftLog.updateEntries es }

def enterRecovering (c : RaftCore) : RaftCore :=
  { c with
    recovering := true
    recentLeaderActive := false
    election := c.election.becomeFollower c.election.currentTerm
    electionTickTrigger := c.electionTickTrigger.stop
    heartbeatTickTrigger := c.heartbeatTickTrigger.stop }

def finishRecovering (c : RaftCore) : RaftCore :=
  if !c.recovering then c
  else { c with recovering := false, electionTickTrigger := c.electionTickTrigger.reset }

/-- Leaving recovery clears the flag and restarts the election timer; nothing else moves. -/
theorem finishRecovering_eq (c : RaftCore) :
    c.finishRecovering = { c with
      recovering := false
      electionTickTrigger :=
        if c.recovering then c.electionTickTrigger.reset else c.electionTickTrigger } := by
  unfold finishRecovering
  cases h : c.recovering
  · obtain ⟨⟩ := c
    simp_all
  · simp

/-- `truncate_log`. -/
def truncateLog (c : RaftCore) (newSnapshotIndex : Nat) : Status × RaftCore :=
  if c.raftApply.lastApplied < newSnapshotIndex then
    (⟨.error, "new_snap_index > last_applied"⟩, c)
  else
    let r := c.raftLog.truncate newSnapshotIndex
    (r.1, { c with raftLog := r.2 })

def installSnapshotIntoLog (c : RaftCore) (header : SnapshotHeader) : RaftCore :=
  finishRecovering
    { c with
      raftLog := c.raftLog.installSnapshot header.applyIndex header.applyTerm
      raftApply := c.raftApply.installSnapshot header.applyIndex
      -- the header made for a local snapshot names no members
      membership := if header.members = [] then c.membership else ⟨header.members⟩ }

section Frame

variable (c : RaftCore) (header : SnapshotHeader)

@[simp] theorem installSnapshotIntoLog_raftLog : (c.installSnapshotIntoLog header).raftLog =
    c.raftLog.installSnapshot header.applyIndex header.applyTerm := by
  rw [installSnapshotIntoLog, finishRecovering_eq]

@[simp] theorem installSnapshotIntoLog_raftApply : (c.installSnapshotIntoLog header).raftApply =
    c.raftApply.installSnapshot header.applyIndex := by
  rw [installSnapshotIntoLog, finishRecovering_eq]

@[simp] theorem installSnapshotIntoLog_election :
    (c.installSnapshotIntoLog header).election = c.election := by
  rw [installSnapshotIntoLog, finishRecovering_eq]

@[simp] theorem installSnapshotIntoLog_membership : (c.installSnapshotIntoLog header).membership =
    if header.members = [] then c.membership else ⟨header.members⟩ := by
  rw [installSnapshotIntoLog, finishRecovering_eq]

@[simp] theorem installSnapshotIntoLog_recovering :
    (c.installSnapshotIntoLog header).recovering = false := by
  rw [installSnapshotIntoLog, finishRecovering_eq]

@[simp] theorem installSnapshotIntoLog_selfId :
    (c.installSnapshotIntoLog header).selfId = c.selfId := by
  rw [installSnapshotIntoLog, finishRecovering_eq]

@[simp] theorem installSnapshotIntoLog_replication :
    (c.installSnapshotIntoLog header).replication = c.replication := by
  rw [installSnapshotIntoLog, finishRecovering_eq]

end Frame

end RaftCore

namespace CoreState

def recordHardState (s : CoreState) : CoreState :=
  { s with effects := { s.effects with hardState := some s.core.election.hardState } }

def send (s : CoreState) (m : RaftMessage) : CoreState :=
  { s with effects := { s.effects with messages := s.effects.messages ++ [m] } }

/-- `become_follower`: the hard state is recorded only when the term changes. -/
def becomeFollower (s : CoreState) (laterTerm : Nat) : CoreState :=
  let c := s.core
  let s' : CoreState :=
    { s with core := { c with
        recentLeaderActive := false
        heartbeatTickTrigger := c.heartbeatTickTrigger.stop
        electionTickTrigger := c.electionTickTrigger.reset
        election := c.election.becomeFollower laterTerm } }
  if laterTerm = c.election.currentTerm then s' else s'.recordHardState

/-! ## Replication -/

def appendNewEntry (s : CoreState) (param : ProposeParam) : CoreState :=
  let log := s.core.raftLog.appendNewEntry s.core.election.currentTerm param
  { core := { s.core with raftLog := log }
    effects := { s.effects with
      entriesToAppend := s.effects.entriesToAppend ++
        (log.entryAt (s.core.raftLog.lastLogIndex + 1)).toList } }

/-- One iteration of the broadcast loop. -/
def broadcastTo (s : CoreState) (member : RaftMember) : CoreState :=
  let c := s.core
  if member.peer.replicaId = c.selfId then s
  else
    -- a member that joined after the election has no progress yet
    let r := if c.replication.nextIndex member.peer.replicaId = 0 then
        c.replication.updateNextIndex member.peer.replicaId (c.raftLog.lastLogIndex + 1)
      else c.replication
    let built := r.buildAppendEntriesMessage c.selfId c.raftLog c.raftApply member.peer
      (r.nextIndex member.peer.replicaId) c.election.currentTerm
    let s' : CoreState := { s with core := { c with replication := built.1 } }
    match built.2 with
    | none => s'
    | some m => s'.send m

def broadcastAppendEntries (s : CoreState) : CoreState :=
  if s.core.ensureReady.fail then s
  else if !s.core.election.isLeader then s
  else s.core.membership.members.foldl broadcastTo s

/-- `try_update_commit_index`: a committed REMOVE_MEMBER triggers one more broadcast. -/
def tryUpdateCommitIndex (s : CoreState) : CoreState :=
  if s.core.ensureReady.fail then s
  else
    let c := s.core
    let old := c.raftApply.commitIndex
    let new := c.replication.tryAdvanceCommitIndex c.selfId c.membership c.raftLog old
      c.election.currentTerm
    let s' : CoreState := { s with core := { c with raftApply := c.raftApply.setCommitIndex new } }
    let committedRemoveMember := (List.range' (old + 1) (new - old)).any fun i =>
      match c.raftLog.entryAt i with
      | some e => e.opType == .removeMember
      | none => false
    if old < new && committedRemoveMember then s'.broadcastAppendEntries else s'

/-- The tail shared by `propose` and `propose_batch`. -/
def broadcastAndCommit (s : CoreState) : CoreState :=
  let s := s.broadcastAppendEntries
  if s.core.election.isLeader && s.core.membership.hasQuorum 1 then s.tryUpdateCommitIndex else s

def propose (s : CoreState) (param : ProposeParam) : Except Status Nat × CoreState :=
  if s.core.ensureWritableLeader.fail then (.error s.core.ensureWritableLeader, s)
  else if (RaftCore.validateProposal param).fail then (.error (RaftCore.validateProposal param), s)
  else (.ok (s.core.raftLog.lastLogIndex + 1), (s.appendNewEntry param).broadcastAndCommit)

/-- The loop of `propose_batch`: an invalid proposal is answered and skipped. -/
def proposeEach (s : CoreState) : List ProposeParam → List (Except Status Nat) × CoreState
  | [] => ([], s)
  | param :: rest =>
    if (RaftCore.validateProposal param).fail then
      let r := proposeEach s rest
      (.error (RaftCore.validateProposal param) :: r.1, r.2)
    else
      let r := proposeEach (s.appendNewEntry param) rest
      (.ok (s.core.raftLog.lastLogIndex + 1) :: r.1, r.2)

def proposeBatch (s : CoreState) (params : List ProposeParam) :
    List (Except Status Nat) × CoreState :=
  if params = [] then ([], s)
  else if s.core.ensureWritableLeader.fail then
    (params.map fun _ => .error s.core.ensureWritableLeader, s)
  else
    let r := s.proposeEach params
    let appendFlag := params.any fun p => (RaftCore.validateProposal p).isOk
    (r.1, if appendFlag then r.2.broadcastAndCommit else r.2)

/-- `maybe_promote_ready_learner`: the first learner that holds the whole log is proposed. -/
def maybePromoteReadyLearner (s : CoreState) : CoreState :=
  if s.core.ensureWritableLeader.fail then s
  else if s.core.firstUnappliedConfigEntry.isSome then s
  else
    match s.core.membership.learners.find? fun l =>
      decide (s.core.raftLog.lastLogIndex ≤ s.core.replication.matchIndex l.replicaId) with
    | none => s
    | some learner =>
      (s.propose (.configChange { op := .promoteVoter, targetReplicaId := learner.replicaId })).2

def ensureAddLearner (s : CoreState) (member : PeerMember) : Status × CoreState :=
  if s.core.ensureWritableLeader.fail then (s.core.ensureWritableLeader, s)
  else if s.core.membership.contains member.replicaId then (.OK, s)
  else match s.core.firstUnappliedConfigEntry with
    | some pending =>
      -- the same change asked for again is no error
      if pending.configMember = member ∧ pending.opType = .addLearner then (.OK, s)
      else (⟨.retryError, "another config change is in progress"⟩, s)
    | none =>
      let r := s.propose (.configChange { op := .addLearner, member })
      (match r.1 with | .ok _ => .OK | .error st => st, r.2)

def ensureRemoveMember (s : CoreState) (id : ReplicaID) : Status × CoreState :=
  if s.core.ensureWritableLeader.fail then (s.core.ensureWritableLeader, s)
  else if !s.core.membership.contains id then (.OK, s)
  else match s.core.firstUnappliedConfigEntry with
    | some pending =>
      if pending.configReplicaId = id ∧ pending.opType = .removeMember then (.OK, s)
      else (⟨.retryError, "another config change is in progress"⟩, s)
    | none =>
      let r := s.propose (.configChange { op := .removeMember, targetReplicaId := id })
      (match r.1 with | .ok _ => .OK | .error st => st, r.2)

/-! ## Elections -/

def becomeLeader (s : CoreState) : CoreState :=
  if s.core.ensureReady.fail then s
  else if !s.core.membership.isVoter s.core.selfId then s
  else
    let c := s.core
    let s : CoreState := { s with core := { c with
      recentLeaderActive := false
      election := c.election.becomeLeader
      electionTickTrigger := c.electionTickTrigger.stop
      heartbeatTickTrigger := c.heartbeatTickTrigger.reset
      replication := RaftReplication.resetForLeader c.selfId c.membership c.raftLog } }
    -- nothing of an earlier term is committed before an entry of its own
    let s := (s.appendNewEntry .noop).broadcastAppendEntries
    if s.core.membership.hasQuorum 1 then s.tryUpdateCommitIndex else s

def sendRequestVoteTo (s : CoreState) (member : PeerMember) : CoreState :=
  s.send (.requestVote member
    { fromReplicaId := s.core.selfId
      toReplicaId := member.replicaId
      term := s.core.election.currentTerm
      lastLogIndex := s.core.raftLog.lastLogIndex
      lastLogTerm := s.core.raftLog.lastLogTerm })

def sendPreVoteTo (s : CoreState) (member : PeerMember) : CoreState :=
  s.send (.preVote member
    { fromReplicaId := s.core.selfId
      toReplicaId := member.replicaId
      term := s.core.election.preVoteTerm
      lastLogIndex := s.core.raftLog.lastLogIndex
      lastLogTerm := s.core.raftLog.lastLogTerm })

/-- The other voters, in membership order. -/
def otherVoters (c : RaftCore) : List PeerMember :=
  c.membership.voters.filter fun m => m.replicaId != c.selfId

def becomeCandidate (s : CoreState) : CoreState :=
  if s.core.ensureReady.fail then s
  else if !s.core.membership.isVoter s.core.selfId then s
  else
    let c := s.core
    let s : CoreState := { s with core := { c with
      recentLeaderActive := false
      election := c.election.becomeCandidate
      heartbeatTickTrigger := c.heartbeatTickTrigger.stop
      electionTickTrigger := c.electionTickTrigger.reset } }
    -- the own vote reaches the disk before any request leaves
    let s := s.recordHardState
    if s.core.membership.hasQuorum s.core.election.grantedVoters.card then s.becomeLeader
    else (otherVoters s.core).foldl sendRequestVoteTo s

def becomePreCandidate (s : CoreState) : CoreState :=
  if s.core.ensureReady.fail then s
  else if !s.core.membership.isVoter s.core.selfId then s
  else if s.core.election.isLeader then s
  else
    let c := s.core
    let s : CoreState := { s with core := { c with
      recentLeaderActive := false
      election := c.election.becomePreCandidate
      heartbeatTickTrigger := c.heartbeatTickTrigger.stop
      electionTickTrigger := c.electionTickTrigger.reset } }
    if s.core.membership.hasQuorum s.core.election.preVoteGrantedVoters.card then s.becomeCandidate
    else (otherVoters s.core).foldl sendPreVoteTo s

def tick (s : CoreState) : CoreState :=
  if s.core.ensureReady.fail then s
  else if s.core.election.isLeader then
    let fired := s.core.heartbeatTickTrigger.tick
    let s : CoreState := { s with core := { s.core with heartbeatTickTrigger := fired.2 } }
    (if fired.1 then s.broadcastAppendEntries else s).maybePromoteReadyLearner
  else
    let fired := s.core.electionTickTrigger.tick
    let s : CoreState := { s with core := { s.core with electionTickTrigger := fired.2 } }
    if fired.1 then s.becomePreCandidate else s

def ensureVotePreconditions (c : RaftCore) (param : RequestVoteParam) : Status :=
  if !c.membership.isVoter c.selfId then ⟨.error, "self is not voter"⟩
  else if !c.membership.isVoter param.fromReplicaId then ⟨.error, "candidate is not voter"⟩
  else c.ensureReady

/-- `handle_pre_vote` answers without touching the core. -/
def handlePreVote (c : RaftCore) (param : PreVoteParam) : PreVoteResult :=
  let reject : PreVoteResult := { term := c.election.currentTerm }
  if param.term < c.election.currentTerm + 1 then reject
  else if (ensureVotePreconditions c param).fail then reject
  else if c.election.isLeader then reject
  -- a leader that is heard of is not voted out
  else if c.recentLeaderActive then reject
  else if c.laterThanOther param.lastLogTerm param.lastLogIndex then reject
  else { reject with voteGranted := true }

def handlePreVoteResponse (s : CoreState) (sender : ReplicaID) (result : PreVoteResult) :
    CoreState :=
  let c := s.core
  if c.ensureReady.fail then s
  else if !c.election.isPreCandidate then s
  else if c.election.currentTerm < result.term then s.becomeFollower result.term
  else if result.term < c.election.currentTerm then s
  else if !result.voteGranted then s
  else if !c.membership.isVoter sender then s
  else if sender ∈ c.election.preVoteGrantedVoters then s
  else
    let s : CoreState := { s with core := { c with election := { c.election with
      preVoteGrantedVoters := insert sender c.election.preVoteGrantedVoters } } }
    if s.core.membership.hasQuorum s.core.election.preVoteGrantedVoters.card then s.becomeCandidate
    else s

def handleRequestVote (s : CoreState) (param : RequestVoteParam) :
    RequestVoteResult × CoreState :=
  if (ensureVotePreconditions s.core param).fail then
    ({ term := s.core.election.currentTerm }, s)
  else if param.term < s.core.election.currentTerm then
    ({ term := s.core.election.currentTerm }, s)
  else
    -- the term is adopted even if the vote is then refused
    let s := if s.core.election.currentTerm < param.term then s.becomeFollower param.term else s
    let c := s.core
    let result : RequestVoteResult := { term := c.election.currentTerm }
    if c.laterThanOther param.lastLogTerm param.lastLogIndex then (result, s)
    else if c.election.canGrantVoteTo param.fromReplicaId then
      let s : CoreState := { s with core := { c with election := { c.election with
        votedFor := some param.fromReplicaId } } }
      let s := s.recordHardState
      ({ result with voteGranted := true },
        { s with core := { s.core with
            electionTickTrigger := s.core.electionTickTrigger.clear } })
    else (result, s)

def handleVoteResponse (s : CoreState) (sender : ReplicaID) (result : RequestVoteResult) :
    CoreState :=
  let c := s.core
  if c.ensureReady.fail then s
  else if !c.election.isCandidate then s
  else if c.election.currentTerm < result.term then s.becomeFollower result.term
  else if result.term < c.election.currentTerm then s
  else if !result.voteGranted then s
  else if !c.membership.isVoter sender then s
  -- a second answer of the same voter does not count
  else if sender ∈ c.election.grantedVoters then s
  else
    let s : CoreState := { s with core := { c with election := { c.election with
      grantedVoters := insert sender c.election.grantedVoters } } }
    if s.core.membership.hasQuorum s.core.election.grantedVoters.card then s.becomeLeader else s

/-! ## AppendEntries -/

/-- The prev-log test of `handle_append_entries`. -/
def prevLogMatches (log : RaftLog) (param : AppendEntriesParam) : Bool :=
  if 0 < param.prevLogIndex then
    if param.prevLogIndex < log.snapshotIndex then false
    else log.termAt param.prevLogIndex == param.prevLogTerm
  else true

/-- A message of the current leader: step down if needed and refresh the election timer. -/
def followLeader (s : CoreState) (term : Nat) : CoreState :=
  let s := if s.core.election.currentTerm < term || !s.core.election.isFollower then
      s.becomeFollower term
    else s
  { s with core := { s.core with
      electionTickTrigger := s.core.electionTickTrigger.clear
      recentLeaderActive := true } }

/-- Keep the outcome of a merge: the log in memory, the rewrite or the append for the WAL. -/
def storeMerge (s : CoreState) (log : RaftLog) (r : LogAppendResult) : CoreState :=
  { core := { s.core with raftLog := log }
    effects := match r.entriesToRewrite with
      | some es => { s.effects with entriesToRewrite := some es }
      | none => { s.effects with entriesToAppend := r.entriesToAppend } }

/-- The tail of `handle_append_entries`: adopt the leader's commit index, leave recovery. -/
def acceptAppend (s : CoreState) (leaderCommit : Nat) : CoreState :=
  { s with core := RaftCore.finishRecovering { s.core with
      raftApply := s.core.raftApply.advanceCommitIndexFromLeader s.core.raftLog leaderCommit } }

def handleAppendEntries (s : CoreState) (param : AppendEntriesParam) :
    AppendEntriesResult × CoreState :=
  -- every answer carries the last index from before the merge
  let lastLogIndex := s.core.raftLog.lastLogIndex
  let reject (term : Nat) : AppendEntriesResult := { term, success := false, lastLogIndex }
  if !s.core.membership.contains param.fromReplicaId then (reject s.core.election.currentTerm, s)
  else if param.term < s.core.election.currentTerm then (reject s.core.election.currentTerm, s)
  else
    let s := s.followLeader param.term
    let term := s.core.election.currentTerm
    if !prevLogMatches s.core.raftLog param then (reject term, s)
    else if param.entries = [] then
      ({ term, success := true, lastLogIndex }, s.acceptAppend param.leaderCommit)
    else match s.core.raftLog.appendEntriesFromLeader param.entries with
      | .error _ => (reject term, s)
      | .ok (log, r) =>
        ({ term, success := true, lastLogIndex }, (s.storeMerge log r).acceptAppend param.leaderCommit)

def handleAppendResponse (s : CoreState) (sender : ReplicaID) (sent : AppendEntriesParam)
    (result : AppendEntriesResult) : Status × CoreState :=
  let c := s.core
  if c.ensureReady.fail then (c.ensureReady, s)
  else if c.election.currentTerm < result.term then
    (⟨.notLeader, "higher term"⟩, s.becomeFollower result.term)
  -- the answer belongs to an earlier term
  else if sent.term ≠ c.election.currentTerm then (.OK, s)
  else if !c.election.isLeader then (⟨.notLeader, ""⟩, s)
  else if c.replication.isStaleAppendResponse sender sent then (.OK, s)
  else if result.success then
    let r := c.replication.handlePeerAppendOk sender sent.prevLogIndex sent.entries.length
    let s : CoreState := { s with core := { c with replication := r } }
    (.OK, s.tryUpdateCommitIndex.maybePromoteReadyLearner)
  else
    let r := c.replication.handlePeerAppendFailed sender result.lastLogIndex c.raftLog.lastLogIndex
    (.OK, { s with core := { c with replication := r } })

/-! ## Reads -/

/-- What `build_read_quorum_check` hands back on success. -/
structure ReadQuorumCheck where
  readIndex : Nat
  readTerm : Nat
  voterIds : List ReplicaID

def buildReadQuorumCheck (s : CoreState) (readQuorumSeq : Nat) :
    Except Status ReadQuorumCheck × CoreState :=
  let c := s.core
  if c.ensureReadableLeader.fail then (.error c.ensureReadableLeader, s)
  else
    (.ok { readIndex := c.raftApply.commitIndex
           readTerm := c.election.currentTerm
           voterIds := c.membership.voters.map PeerMember.replicaId },
      -- an AppendEntries without entries is the probe
      (otherVoters c).foldl (fun s m => s.send (.appendEntries m
        { fromReplicaId := c.selfId
          toReplicaId := m.replicaId
          term := c.election.currentTerm
          prevLogIndex := c.raftLog.lastLogIndex
          prevLogTerm := c.raftLog.lastLogTerm
          leaderCommit := c.raftApply.commitIndex
          readQuorumSeq })) s)

/-! ## Snapshots -/

def installSnapshot (s : CoreState) (header : SnapshotHeader) : CoreState :=
  let c := s.core.installSnapshotIntoLog header
  { core := c, effects := { s.effects with entriesToRewrite := some c.raftLog.logEntries } }

def handleInstallSnapshotResponse (s : CoreState) (sender : ReplicaID)
    (sent : InstallSnapshotParam) (result : InstallSnapshotResult) : CoreState :=
  let c := s.core
  if c.ensureReady.fail then s
  else if c.election.currentTerm < result.term then s.becomeFollower result.term
  else if !c.election.isLeader then s
  else if sent.term ≠ c.election.currentTerm then s
  else
    let cleared := c.replication.clearSnapshotInflight sender sent.snapshotIndex
    -- the receiver may be ahead of the snapshot it was sent
    let r := if result.status.isOk then
        cleared.updateSnapshotWatermark sender (max result.snapshotWatermark sent.snapshotIndex)
      else cleared
    { s with core := { c with replication := r } }

def handleInstallSnapshotSendFailed (c : RaftCore) (sender : ReplicaID)
    (sent : InstallSnapshotParam) : RaftCore :=
  if c.ensureReady.fail then c
  else if !c.election.isLeader then c
  else if sent.term ≠ c.election.currentTerm then c
  else { c with replication := c.replication.clearSnapshotInflight sender sent.snapshotIndex }

/-- `prepare_install_snapshot`: the status, `watermark_out` and the core after it. -/
def prepareInstallSnapshot (s : CoreState) (param : InstallSnapshotParam) :
    Status × Nat × CoreState :=
  if !s.core.membership.contains param.fromReplicaId then
    (⟨.invalidArgument, "install snapshot from non-member"⟩, 0, s)
  else if param.term < s.core.election.currentTerm then
    (⟨.error, "[RaftCore Snapshot] leade term:" ++ toString param.term ++
      " is oldear than current term:" ++ toString s.core.election.currentTerm⟩, 0, s)
  else
    let s := s.followLeader param.term
    let c := s.core
    if param.snapshotIndex ≤ c.raftApply.commitIndex then (.OK, c.raftApply.commitIndex, s)
    -- the log holds the entry the snapshot ends with, so there is nothing to transfer
    else if !c.recovering && decide (param.snapshotIndex ≤ c.raftLog.lastLogIndex) &&
        c.raftLog.termAt param.snapshotIndex == param.snapshotTerm then
      (.OK, param.snapshotIndex, s)
    else (.OK, 0, s)

end CoreState

end AdvisKV
