import AdvisKV.Model.Persist
import AdvisKV.Model.Apply

/-!
# AdvisKV — completions, tracked proposals and pending reads

A client call waits on a `Completion`. `ProposalTracker` remembers, for every request id, the log index
its write was given and the completions that wait for it; `ReadTracker` remembers every read whose
leadership check is still under way. Both answer their completions from `advance`, which the replica
loop runs after each dispatch.

A completion is named by a number; the table of all completions is a function. The two hash maps of the
trackers are association lists.
-/

namespace AdvisKV

/-! ## Completions -/

/-- `Completion`: waiting, answered, or given up by the waiter. -/
inductive Completion where
  | pending
  | completed (status : Status) (value : Option Value)
  | timedOut
deriving DecidableEq, Repr

namespace Completion

/-- `complete`: only a waiting completion takes the result. -/
def complete (c : Completion) (status : Status) (value : Option Value) : Completion :=
  match c with
  | pending => completed status value
  | c => c

/-- The waiter's side of `wait_for` when the time is up. -/
def timeOut : Completion → Completion
  | pending => timedOut
  | c => c

def needsResult : Completion → Bool
  | pending => true
  | _ => false

end Completion

abbrev Completions := Nat → Completion

/-- Answer completion `id`. -/
def Completions.resolve (cs : Completions) (id : Nat) (status : Status) (value : Option Value) :
    Completions :=
  Function.update cs id ((cs id).complete status value)

/-! ## ProposalTracker -/

/-- A write request with the completion its caller waits on. -/
structure ProposeCall where
  param : ProposeParam
  completion : Nat

/-- `ProposalTracker::Entry`. -/
structure TrackedProposal where
  op : WriteOpType := .none
  payloadHash : UInt64 := 0
  index : Nat := 0
  committed : Bool := false
  completions : List Nat := []
deriving DecidableEq, Repr

structure ProposalTracker where
  entries : List (Bytes × TrackedProposal) := []
deriving DecidableEq, Repr

namespace ProposalTracker

def reusedStatus : Status := ⟨.invalidArgument, "request_id was reused with a different write"⟩

/-- The answer a request record gives to a write with this payload hash. -/
def recordStatus (record : RequestRecord) (payloadHash : UInt64) : Status :=
  if record.payloadHash = payloadHash then record.applyStatus else reusedStatus

def finishCompletions (cs : Completions) (ids : List Nat) (status : Status) : Completions :=
  ids.foldl (fun cs id => cs.resolve id status none) cs

/-- The locals of `submit_batch`. -/
structure Submission where
  entries : List (Bytes × TrackedProposal)
  completions : Completions
  params : List ProposeParam := []
  candidateIds : List Bytes := []

/-- One iteration of `submit_batch`: answer the call from the request records, attach it to a tracked
or logged request with the same id, or queue it for proposing. -/
def submitOne (core : RaftCore) (sm : KvStateMachine) (st : Submission) (call : ProposeCall) :
    Submission :=
  let finish (status : Status) : Submission :=
    { st with completions := st.completions.resolve call.completion status none }
  match call.param with
  | .noop | .configChange _ =>
    finish ⟨.invalidArgument, "request_id is required for every write proposal"⟩
  | .write w =>
    if w.requestId = [] then
      finish ⟨.invalidArgument, "request_id is required for every write proposal"⟩
    else
      let writeHash := requestPayloadHash w.op w.key w.value w.expected
      match sm.findRequest w.requestId with
      -- applied: the record has the answer
      | some record => finish (recordStatus record writeHash)
      | none =>
        match st.entries.lookup w.requestId with
        | some tracked =>
          if tracked.payloadHash ≠ writeHash then finish reusedStatus
          -- a committed write is good, but a CAS has to be applied first
          else if tracked.committed && w.op != .cas then finish .OK
          else
            { st with entries := st.entries.map fun kv =>
                if kv.1 = w.requestId then
                  (kv.1, { kv.2 with completions := kv.2.completions ++ [call.completion] })
                else kv }
        | none =>
          let entry : TrackedProposal :=
            { op := w.op, payloadHash := writeHash, completions := [call.completion] }
          match core.raftLog.findRequest w.requestId with
          -- in the log but not tracked: the call waits for that entry
          | some logged =>
            if requestPayloadHash logged.opType logged.key logged.value logged.expected ≠ writeHash then
              finish reusedStatus
            else if logged.index = 0 then
              finish ⟨.error, "invalid existing proposal log index"⟩
            else
              { st with entries := st.entries ++ [(w.requestId, { entry with index := logged.index })] }
          | none =>
            { st with
              entries := st.entries ++ [(w.requestId, entry)]
              params := st.params ++ [call.param]
              candidateIds := st.candidateIds ++ [w.requestId] }

/-- The entries and completions after a part of `propose_new`. -/
structure Tracking where
  entries : List (Bytes × TrackedProposal)
  completions : Completions

/-- `fail_request`. -/
def failRequest (t : Tracking) (requestId : Bytes) (status : Status) : Tracking :=
  match t.entries.lookup requestId with
  | none => t
  | some e =>
    { entries := t.entries.filter fun kv => kv.1 != requestId
      completions := finishCompletions t.completions e.completions status }

/-- What one result of `propose_batch` does to its request. -/
def settle (t : Tracking) (requestId : Bytes) : Except Status Nat → Tracking
  | .error status => failRequest t requestId status
  | .ok index =>
    if index = 0 then failRequest t requestId ⟨.error, "invalid proposed log index"⟩
    else
      { t with entries := t.entries.map fun kv =>
          if kv.1 = requestId then (kv.1, { kv.2 with index }) else kv }

def settleAll (t : Tracking) (results : List (Bytes × Except Status Nat)) : Tracking :=
  results.foldl (fun t r => settle t r.1 r.2) t

/-- The answer a committed and applied CAS gets from the request records. -/
def casStatus (sm : KvStateMachine) (requestId : Bytes) (payloadHash : UInt64) : Status :=
  match sm.findRequest requestId with
  | some record => recordStatus record payloadHash
  | none =>
    if requestId = [] then ⟨.invalidArgument, "request_id is empty"⟩
    else ⟨.keyNotFound, "request_id not found"⟩

/-- The first half of an iteration of `advance`: a write that has become committed is marked, and unless
it is a CAS it is answered. -/
def markCommitted (commitIndex : Nat) (e : TrackedProposal) (cs : Completions) :
    TrackedProposal × Completions :=
  if !e.committed && decide (0 < e.index) && decide (e.index ≤ commitIndex) then
    if e.op ≠ .cas then
      ({ e with committed := true, completions := [] }, finishCompletions cs e.completions .OK)
    else ({ e with committed := true }, cs)
  else (e, cs)

/-- The second half: a committed and applied write is forgotten, a CAS after answering it. -/
def retireApplied (sm : KvStateMachine) (lastApplied : Nat) (requestId : Bytes) (e : TrackedProposal)
    (cs : Completions) : Option TrackedProposal × Completions :=
  if e.committed && decide (0 < e.index) && decide (e.index ≤ lastApplied) then
    (none,
      if e.op = .cas then
        finishCompletions cs e.completions (casStatus sm requestId e.payloadHash)
      else cs)
  else (some e, cs)

/-- One iteration of `advance`; the entries that stay are collected. -/
def advanceEntry (core : RaftCore) (sm : KvStateMachine) (t : Tracking) (kv : Bytes × TrackedProposal) :
    Tracking :=
  let marked := markCommitted core.raftApply.commitIndex kv.2 t.completions
  let retired := retireApplied sm core.raftApply.lastApplied kv.1 marked.1 marked.2
  { entries := match retired.1 with
      | some e => t.entries ++ [(kv.1, e)]
      | none => t.entries
    completions := retired.2 }

/-- `fail_all`. -/
def failAll (t : Tracking) (status : Status) : Tracking :=
  { entries := []
    completions := t.entries.foldl
      (fun cs kv => finishCompletions cs kv.2.completions status) t.completions }

def advance (core : RaftCore) (sm : KvStateMachine) (t : Tracking) : Tracking :=
  let advanced := t.entries.foldl (advanceEntry core sm) { entries := [], completions := t.completions }
  -- without the leadership it is open what becomes of the rest
  if core.isLeader then advanced
  else failAll advanced ⟨.notLeader, "leader changed before proposal committed"⟩

end ProposalTracker

/-! ## ReadTracker -/

structure PendingRead where
  key : Key
  completion : Nat
  readIndex : Nat
  readTerm : Nat
  voterIds : List ReplicaID
  confirmedVoters : Finset ReplicaID
deriving DecidableEq

structure ReadTracker where
  pendingReads : List (Nat × PendingRead) := []
  nextReadSeq : Nat := 1
deriving DecidableEq

namespace ReadTracker

/-- `establish`: the status, the tracker and the messages of the leadership check. The sequence number
is used up even when the check cannot be built. -/
def establish (t : ReadTracker) (core : RaftCore) (cs : Completions) (key : Key) (completion : Nat) :
    Status × ReadTracker × List RaftMessage :=
  if !(cs completion).needsResult then (.OK, t, [])
  else
    let readSeq := t.nextReadSeq
    let t := { t with nextReadSeq := readSeq + 1 }
    let check := CoreState.buildReadQuorumCheck { core } readSeq
    match check.1 with
    | .error status => (status, t, [])
    | .ok c =>
      let read : PendingRead :=
        { key, completion
          readIndex := c.readIndex
          readTerm := c.readTerm
          voterIds := c.voterIds
          confirmedVoters := if core.selfId ∈ c.voterIds then {core.selfId} else ∅ }
      (.OK, { t with pendingReads := t.pendingReads ++ [(readSeq, read)] },
        check.2.effects.messages)

/-- The confirmation of one voter, if the read takes it. -/
def confirm (cs : Completions) (sender : ReplicaID) (responseTerm : Nat) (read : PendingRead) :
    PendingRead :=
  if !(cs read.completion).needsResult then read
  else if responseTerm ≠ read.readTerm then read
  else if sender ∉ read.voterIds then read
  else { read with confirmedVoters := insert sender read.confirmedVoters }

def onReadQuorumResponse (t : ReadTracker) (cs : Completions) (sender : ReplicaID)
    (readSeq responseTerm : Nat) : ReadTracker :=
  { t with pendingReads := t.pendingReads.map fun kv =>
      if kv.1 = readSeq then (kv.1, confirm cs sender responseTerm kv.2) else kv }

def keyNotFound (key : Key) : Status :=
  ⟨.keyNotFound,
    "key = " ++ String.ofList (key.map fun b => Char.ofNat b.toNat) ++ " not found"⟩

/-- What `advance` decides about one pending read. -/
inductive Verdict where
  | drop
  | keep
  | answer (status : Status) (value : Option Value)
deriving DecidableEq

def judge (core : RaftCore) (sm : KvStateMachine) (cs : Completions) (read : PendingRead) : Verdict :=
  -- the caller has given up
  if !(cs read.completion).needsResult then .drop
  else if !core.isLeader || decide (core.currentTerm ≠ read.readTerm) then
    .answer ⟨.notLeader, "leader or term changed during read"⟩ none
  else if read.confirmedVoters.card < read.voterIds.length / 2 + 1 then .keep
  else if core.lastApplied < read.readIndex then .keep
  else if (core.confirmReadIndex read.readIndex read.readTerm).fail then
    .answer (core.confirmReadIndex read.readIndex read.readTerm) none
  else match sm.get read.key with
    | some value => .answer .OK (some value)
    | none => .answer (keyNotFound read.key) none

/-- One iteration of `advance`. -/
def advanceRead (core : RaftCore) (sm : KvStateMachine) (st : List (Nat × PendingRead) × Completions)
    (kv : Nat × PendingRead) : List (Nat × PendingRead) × Completions :=
  match judge core sm st.2 kv.2 with
  | .drop => st
  | .keep => (st.1 ++ [kv], st.2)
  | .answer status value => (st.1, st.2.resolve kv.2.completion status value)

def advance (t : ReadTracker) (core : RaftCore) (sm : KvStateMachine) (cs : Completions) :
    ReadTracker × Completions :=
  let r := t.pendingReads.foldl (advanceRead core sm) ([], cs)
  ({ t with pendingReads := r.1 }, r.2)

/-- `fail_all`. -/
def failAll (t : ReadTracker) (cs : Completions) (status : Status) : ReadTracker × Completions :=
  ({ t with pendingReads := [] },
    t.pendingReads.foldl (fun cs kv => cs.resolve kv.2.completion status none) cs)

end ReadTracker

end AdvisKV
