import AdvisKV.Model.RaftLog
import Mathlib.Data.Finset.Card

/-!
# AdvisKV — the parts of the Raft core

The components `RaftCore` is assembled from: the tick trigger, the election state, the membership
list, the apply progress and the leader's replication progress. Each is a record with the operations
of its C++ class. A component that holds references to the others in the source takes them as
arguments here.
-/

namespace AdvisKV

def electionTimeoutMinTicks : Nat := 15
def heartbeatIntervalTicks : Nat := 3
def maxAppendEntriesPerMessage : Nat := 256

/-! ## TickTrigger -/

/-- A countdown. `limitFunc` is the random limit generator: its `n`-th call returns the `n`-th value of
an arbitrary sequence, and `drawn` counts the calls made so far. -/
structure TickTrigger where
  stopFlag : Bool := false
  curCnt : Nat := 0
  limitFunc : Option (Nat → Nat) := none
  drawn : Nat := 0
  limitCnt : Nat := 0

namespace TickTrigger

def makeNextLimit (t : TickTrigger) : TickTrigger :=
  match t.limitFunc with
  | none => t
  | some f => { t with limitCnt := f t.drawn, drawn := t.drawn + 1 }

/-- The constructor for a fixed limit. -/
def fixed (limitCnt : Nat) : TickTrigger := { limitCnt }

/-- The constructor for a generated limit draws the first one. -/
def generated (f : Nat → Nat) : TickTrigger := makeNextLimit { limitFunc := some f }

/-- `is_catch_up_limit`: whether the trigger fires, with the state after it. -/
def isCatchUpLimit (t : TickTrigger) : Bool × TickTrigger :=
  if t.curCnt < t.limitCnt then (false, t)
  else (true, makeNextLimit { t with curCnt := 0 })

def tick (t : TickTrigger) : Bool × TickTrigger :=
  if t.stopFlag then (false, t) else isCatchUpLimit { t with curCnt := t.curCnt + 1 }

def reset (t : TickTrigger) : TickTrigger :=
  (isCatchUpLimit (makeNextLimit { t with stopFlag := false, curCnt := 0 })).2

def clear (t : TickTrigger) : TickTrigger := if t.stopFlag then t else t.reset

def stop (t : TickTrigger) : TickTrigger := { t with stopFlag := true }

end TickTrigger

/-! ## RaftElection -/

structure RaftElection where
  selfId : ReplicaID
  role : ReplicaRole := .follower
  currentTerm : Nat := 0
  votedFor : Option ReplicaID := none
  grantedVoters : Finset ReplicaID := ∅
  preVoteGrantedVoters : Finset ReplicaID := ∅

namespace RaftElection

def isFollower (e : RaftElection) : Bool := e.role == .follower
def isPreCandidate (e : RaftElection) : Bool := e.role == .preCandidate
def isCandidate (e : RaftElection) : Bool := e.role == .candidate
def isLeader (e : RaftElection) : Bool := e.role == .leader

def hardState (e : RaftElection) : RaftMeta := ⟨e.currentTerm, e.votedFor⟩

def updateMeta (e : RaftElection) (m : RaftMeta) : RaftElection :=
  { e with currentTerm := m.currentTerm, votedFor := m.votedFor }

def becomeCandidate (e : RaftElection) : RaftElection :=
  { e with
    preVoteGrantedVoters := ∅
    role := .candidate
    currentTerm := e.currentTerm + 1
    votedFor := some e.selfId
    grantedVoters := {e.selfId} }

/-- `become_follower`; the source's return value says whether the term changed, which the caller
compares here. -/
def becomeFollower (e : RaftElection) (laterTerm : Nat) : RaftElection :=
  -- the vote of the term is kept
  if laterTerm = e.currentTerm then
    { e with role := .follower, grantedVoters := ∅, preVoteGrantedVoters := ∅ }
  else
    { e with
      role := .follower, grantedVoters := ∅, preVoteGrantedVoters := ∅
      currentTerm := laterTerm, votedFor := none }

def becomeLeader (e : RaftElection) : RaftElection :=
  { e with role := .leader, grantedVoters := ∅ }

def becomePreCandidate (e : RaftElection) : RaftElection :=
  { e with role := .preCandidate, grantedVoters := ∅, preVoteGrantedVoters := {e.selfId} }

def canGrantVoteTo (e : RaftElection) (candidate : ReplicaID) : Bool :=
  match e.votedFor with
  | none => true
  | some v => v == candidate

def preVoteTerm (e : RaftElection) : Nat := e.currentTerm + 1

end RaftElection

/-! ## RaftMembership -/

structure RaftMembership where
  members : List RaftMember := []
deriving DecidableEq, Repr

namespace RaftMembership

def resetVoters (voters : List PeerMember) : RaftMembership :=
  ⟨voters.map fun p => ⟨p, .voter⟩⟩

def voters (m : RaftMembership) : List PeerMember :=
  (m.members.filter fun x => x.memberType == .voter).map RaftMember.peer

def learners (m : RaftMembership) : List PeerMember :=
  (m.members.filter fun x => x.memberType == .learner).map RaftMember.peer

def findRaftMember (m : RaftMembership) (id : ReplicaID) : Option RaftMember :=
  m.members.find? fun x => x.peer.replicaId == id

def contains (m : RaftMembership) (id : ReplicaID) : Bool := (m.findRaftMember id).isSome

def memberType (m : RaftMembership) (id : ReplicaID) : RaftMemberType :=
  match m.findRaftMember id with
  | none => .nonMember
  | some x => x.memberType

def isVoter (m : RaftMembership) (id : ReplicaID) : Bool := m.memberType id == .voter

def addLearner (m : RaftMembership) (member : PeerMember) : Status × RaftMembership :=
  if m.contains member.replicaId then (.OK, m) else (.OK, ⟨m.members ++ [⟨member, .learner⟩]⟩)

/-- The first member with this id becomes a voter. -/
def promoteFirst (id : ReplicaID) : List RaftMember → List RaftMember
  | [] => []
  | x :: xs =>
    if x.peer.replicaId = id then { x with memberType := .voter } :: xs
    else x :: promoteFirst id xs

def promoteVoter (m : RaftMembership) (id : ReplicaID) : Status × RaftMembership :=
  if m.contains id then (.OK, ⟨promoteFirst id m.members⟩)
  else (⟨.invalidArgument, "member " ++ id.toText ++ " not found"⟩, m)

def removeMember (m : RaftMembership) (id : ReplicaID) : Status × RaftMembership :=
  (.OK, ⟨m.members.filter fun x => x.peer.replicaId != id⟩)

def quorumSize (m : RaftMembership) : Nat := m.voters.length / 2 + 1

def hasQuorum (m : RaftMembership) (ackCount : Nat) : Bool := decide (m.quorumSize ≤ ackCount)

end RaftMembership

/-! ## RaftApply -/

structure RaftApply where
  commitIndex : Nat := 0
  lastApplied : Nat := 0
deriving DecidableEq, Repr

namespace RaftApply

def setCommitIndex (a : RaftApply) (i : Nat) : RaftApply := { a with commitIndex := i }

def advanceCommitIndexFromLeader (a : RaftApply) (log : RaftLog) (leaderCommit : Nat) : RaftApply :=
  if a.commitIndex < leaderCommit then
    -- the leader may have committed more than this log holds
    { a with commitIndex := min leaderCommit log.lastLogIndex }
  else a

def advanceLastApplied (a : RaftApply) (applied : Nat) : RaftApply :=
  if a.lastApplied < applied then { a with lastApplied := applied } else a

def installSnapshot (a : RaftApply) (snapshotIndex : Nat) : RaftApply :=
  { commitIndex := if a.commitIndex < snapshotIndex then snapshotIndex else a.commitIndex
    lastApplied := if a.lastApplied < snapshotIndex then snapshotIndex else a.lastApplied }

/-- The loop of `extract_committed_entries` over the indexes still to visit: the entries pushed from
here on, and `has_more`. A missing entry is skipped, a config entry is always taken, and the entry that
finds the count budget used up is passed over with `continue`, while the byte budget stops the loop. -/
def extractLoop (log : RaftLog) (budgetEntries budgetBytes : Nat) :
    List Nat → (kvCount kvBytes : Nat) → (budgetExhausted hasMore : Bool) → List LogEntry × Bool
  | [], _, _, _, hasMore => ([], hasMore)
  | i :: is, kvCount, kvBytes, budgetExhausted, hasMore =>
    match log.entryAt i with
    | none => extractLoop log budgetEntries budgetBytes is kvCount kvBytes budgetExhausted hasMore
    | some entry =>
      if entry.opType.isConfigChangeOp then
        let rest := extractLoop log budgetEntries budgetBytes is kvCount kvBytes budgetExhausted hasMore
        (entry :: rest.1, rest.2)
      else if budgetExhausted then ([], true)
      else if budgetEntries ≤ kvCount then
        extractLoop log budgetEntries budgetBytes is kvCount kvBytes true true
      else
        let entryBytes := entry.key.length + entry.value.length
        if 0 < kvCount ∧ 0 < budgetBytes ∧ budgetBytes < kvBytes + entryBytes then ([], true)
        else
          let rest := extractLoop log budgetEntries budgetBytes is (kvCount + 1)
            (kvBytes + entryBytes) budgetExhausted hasMore
          (entry :: rest.1, rest.2)

/-- `extract_committed_entries`: the committed entries after `last_applied`, within the budget, and
whether some were left behind. -/
def extractCommittedEntries (a : RaftApply) (log : RaftLog) (budgetEntries budgetBytes : Nat) :
    List LogEntry × Bool :=
  extractLoop log budgetEntries budgetBytes
    (List.range' (a.lastApplied + 1) (a.commitIndex - a.lastApplied)) 0 0 false false

def hasCommittedCurrentTermEntry (a : RaftApply) (log : RaftLog) (currentTerm : Nat) : Bool :=
  (decide (0 < log.snapshotIndex) && decide (log.snapshotIndex ≤ a.commitIndex) &&
    decide (log.snapshotTerm = currentTerm)) ||
  (List.range' (log.snapshotIndex + 1) (a.commitIndex - log.snapshotIndex)).any
    fun idx => log.termAt idx == currentTerm

end RaftApply

/-! ## RaftReplication -/

/-- The leader's view of its peers. The four hash maps of the source return 0 for an absent key. -/
structure RaftReplication where
  nextIndex : ReplicaID → Nat := fun _ => 0
  matchIndex : ReplicaID → Nat := fun _ => 0
  snapshotWatermark : ReplicaID → Nat := fun _ => 0
  inflightSnapshotIndex : ReplicaID → Nat := fun _ => 0

namespace RaftReplication

def updateNextIndex (r : RaftReplication) (id : ReplicaID) (i : Nat) : RaftReplication :=
  { r with nextIndex := Function.update r.nextIndex id i }

def updateMatchIndex (r : RaftReplication) (id : ReplicaID) (i : Nat) : RaftReplication :=
  { r with matchIndex := Function.update r.matchIndex id i }

def resetForLeader (selfId : ReplicaID) (membership : RaftMembership) (log : RaftLog) :
    RaftReplication :=
  { nextIndex := fun id =>
      if id ≠ selfId ∧ membership.contains id then log.lastLogIndex + 1 else 0 }

def updateSnapshotWatermark (r : RaftReplication) (id : ReplicaID) (watermark : Nat) :
    RaftReplication :=
  { r with
    snapshotWatermark :=
      Function.update r.snapshotWatermark id (max (r.snapshotWatermark id) watermark)
    matchIndex := Function.update r.matchIndex id (max (r.matchIndex id) watermark)
    nextIndex := Function.update r.nextIndex id (max (r.nextIndex id) (watermark + 1)) }

def handlePeerAppendOk (r : RaftReplication) (id : ReplicaID) (prevLogIndex entriesSize : Nat) :
    RaftReplication :=
  let matchedIndex := prevLogIndex + entriesSize
  let r := if r.matchIndex id < matchedIndex then r.updateMatchIndex id matchedIndex else r
  r.updateNextIndex id (r.matchIndex id + 1)

def handlePeerAppendFailed (r : RaftReplication) (id : ReplicaID)
    (followerLastLogIndex leaderLastLogIndex : Nat) : RaftReplication :=
  let currentNext := r.nextIndex id
  let newNext := min followerLastLogIndex leaderLastLogIndex + 1
  -- a refusal that does not say how far to go back goes back by one
  let newNext := if currentNext ≤ newNext ∧ 1 < currentNext then currentNext - 1 else newNext
  r.updateNextIndex id (max newNext (r.matchIndex id + 1))

def isStaleAppendResponse (r : RaftReplication) (id : ReplicaID) (sent : AppendEntriesParam) :
    Bool :=
  sent.prevLogIndex + 1 != r.nextIndex id

/-- `mark_snapshot_inflight` reports `false` while another transfer is running. -/
def markSnapshotInflight (r : RaftReplication) (id : ReplicaID) (snapshotIndex : Nat) :
    Option RaftReplication :=
  if 0 < r.inflightSnapshotIndex id then none
  else some { r with
    inflightSnapshotIndex := Function.update r.inflightSnapshotIndex id snapshotIndex }

def clearSnapshotInflight (r : RaftReplication) (id : ReplicaID) (snapshotIndex : Nat) :
    RaftReplication :=
  -- the answer to an older transfer leaves the mark
  if r.inflightSnapshotIndex id = snapshotIndex then
    { r with inflightSnapshotIndex := Function.update r.inflightSnapshotIndex id 0 }
  else r

/-- `build_append_entries_message`: a peer whose next entry the snapshot has swallowed gets an
InstallSnapshot, unless one is already in flight; any other gets an AppendEntries. -/
def buildAppendEntriesMessage (r : RaftReplication) (selfId : ReplicaID) (log : RaftLog)
    (apply : RaftApply) (member : PeerMember) (nextIndex currentTerm : Nat) :
    RaftReplication × Option RaftMessage :=
  let prevLogIndex := nextIndex - 1
  if prevLogIndex < log.snapshotIndex then
    match r.markSnapshotInflight member.replicaId log.snapshotIndex with
    | none => (r, none)
    | some r' =>
      (r', some (.installSnapshot member
        { fromReplicaId := selfId
          toReplicaId := member.replicaId
          term := currentTerm
          snapshotIndex := log.snapshotIndex
          snapshotTerm := log.snapshotTerm }))
  else
    (r, some (.appendEntries member
      { fromReplicaId := selfId
        toReplicaId := member.replicaId
        term := currentTerm
        prevLogIndex := prevLogIndex
        prevLogTerm := log.termAt prevLogIndex
        leaderCommit := apply.commitIndex
        entries := log.entriesFrom nextIndex maxAppendEntriesPerMessage }))

/-- The votes for index `idx`: the leader itself and every other voter known to hold it. -/
def successCnt (r : RaftReplication) (selfId : ReplicaID) (membership : RaftMembership)
    (idx : Nat) : Nat :=
  1 + (membership.voters.filter fun v =>
    v.replicaId != selfId && decide (idx ≤ r.matchIndex v.replicaId)).length

/-- `try_advance_commit_index`, as the commit index it leaves behind. -/
def tryAdvanceCommitIndex (r : RaftReplication) (selfId : ReplicaID) (membership : RaftMembership)
    (log : RaftLog) (commitIndex currentTerm : Nat) : Nat :=
  (List.range' (commitIndex + 1) (log.lastLogIndex - commitIndex)).foldl
    (fun commit idx =>
      -- entries of earlier terms are committed only along with a later one
      if log.termAt idx ≠ currentTerm then commit
      else if membership.hasQuorum (r.successCnt selfId membership idx) then idx
      else commit)
    commitIndex

end RaftReplication

end AdvisKV
