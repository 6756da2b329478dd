import AdvisKV.Model.ReplicaLoop

/-!
# AdvisKV — an AppendEntries call

The way of one AppendEntries message: the leader's dispatcher hands it to the transport, the transport
encodes it and calls the target's service, the service finds the replica and waits for its loop, and the
response comes back as an event of the leader's loop. The status of the call travels in `base_rsp`, a
field of the response beside the three result fields.
-/

namespace AdvisKV

/-! ## The wire format -/

/-- `is_valid_enum_value<WriteOpType>` and the cast behind it. -/
def WriteOpType.ofInt : Int → Option WriteOpType
  | 0 => some .none
  | 1 => some .put
  | 2 => some .del
  | 3 => some .addLearner
  | 4 => some .promoteVoter
  | 5 => some .removeMember
  | 6 => some .cas
  | _ => none

/-- `pb::LogEntry`: the operation travels as an `int32`, the other fields as they are. -/
structure WireLogEntry where
  opType : Int := 0
  fields : LogEntry := {}
deriving DecidableEq, Repr

namespace WireLogEntry

def encode (entry : LogEntry) : WireLogEntry := ⟨entry.opType.toNat, entry⟩

def decode (entry : WireLogEntry) : Option LogEntry :=
  (WriteOpType.ofInt entry.opType).map fun op => { entry.fields with opType := op }

end WireLogEntry

/-- `rpc::AppendEntriesRequest`. Every `pb::ReplicaID` decodes, so both ids are kept decoded. -/
structure AppendEntriesRequest where
  sender : ReplicaID := {}
  receiver : ReplicaID := {}
  term : Nat := 0
  prevLogIndex : Nat := 0
  prevLogTerm : Nat := 0
  leaderCommit : Nat := 0
  entries : List WireLogEntry := []
deriving DecidableEq, Repr

/-- `rpc::AppendEntriesResponse`; a field that nobody sets reads 0 or false. -/
structure AppendEntriesResponse where
  baseRsp : Status := {}
  success : Bool := false
  term : Nat := 0
  lastLogIndex : Nat := 0
deriving DecidableEq, Repr

/-! ## The target -/

/-- `Replica::LocalState`. -/
inductive LocalState where
  | created
  | awaitingRecover
  | recovering
  | running
  | faulted
deriving DecidableEq, Repr

/-- The parts of a `Replica` a Raft request goes through. -/
structure Replica where
  gateClosed : Bool := false
  localState : LocalState := .created
  loop : ReplicaLoop

namespace Replica

def ensureRunning (r : Replica) : Status :=
  match r.localState with
  | .running => .OK
  | .faulted => ⟨.isFaulted, "replica is not running, local_state:faulted"⟩
  | .awaitingRecover => ⟨.notInit, "replica awaits recover, start is not allowed yet"⟩
  | .recovering => ⟨.notInit, "replica is not running, local_state:not started"⟩
  | .created => ⟨.notInit, "replica is not running, local_state:not started"⟩

/-- `Replica::handle_append_entries`. `closing` is the status the completion registry hands to a waiting
caller when the loop is closed before it has answered. -/
def handleAppendEntries (codec : SnapshotCodec) (closing : Option Status) (r : Replica)
    (param : AppendEntriesParam) : Status × AppendEntriesResult :=
  if r.gateClosed then (⟨.error, "oper gate is closed"⟩, {})
  else if r.ensureRunning.fail then (r.ensureRunning, {})
  else if r.loop.faulted then (⟨.error, "raft loop is not running"⟩, {})
  else match closing with
    | some status => (status, {})
    | none =>
      let h := r.loop.iterate codec (.appendEntries param)
      match h.reply with
      | some (.append result) => (.OK, result)
      | _ => (h.status, {})

end Replica

/-- `StorageServiceImpl`, with what `get_replica_by_id` finds in its replica manager. -/
structure StorageServiceImpl where
  replicaManager : Option (ReplicaID → Option Replica) := none

/-- `StorageServiceImpl::AppendEntries`. -/
def StorageServiceImpl.appendEntries (codec : SnapshotCodec) (closing : Option Status)
    (service : StorageServiceImpl) (request : AppendEntriesRequest) : AppendEntriesResponse :=
  match service.replicaManager with
  | none => { baseRsp := ⟨.replicaManagerNotFound, "replica manager not found"⟩ }
  | some getReplicaById =>
    match getReplicaById request.receiver with
    | none => { baseRsp := ⟨.replicaNotFound, "target replica not found"⟩ }
    | some replica =>
      match request.entries.mapM WireLogEntry.decode with
      | none => { baseRsp := ⟨.invalidArgument, "invalid log entry"⟩ }
      | some entries =>
        let r := replica.handleAppendEntries codec closing
          { fromReplicaId := request.sender
            toReplicaId := request.receiver
            term := request.term
            entries
            prevLogIndex := request.prevLogIndex
            prevLogTerm := request.prevLogTerm
            leaderCommit := request.leaderCommit }
        { baseRsp := r.1, success := r.2.success, term := r.2.term, lastLogIndex := r.2.lastLogIndex }

/-! ## The leader -/

/-- The server end of a call: the response, or the message of a gRPC failure. -/
abbrev AppendEntriesStub := AppendEntriesRequest → Except String AppendEntriesResponse

namespace GrpcRaftRpcTransport

/-- The request `append_entries` builds; `read_quorum_seq` stays behind. -/
def request (param : AppendEntriesParam) : AppendEntriesRequest :=
  { sender := param.fromReplicaId
    receiver := param.toReplicaId
    term := param.term
    prevLogIndex := param.prevLogIndex
    prevLogTerm := param.prevLogTerm
    leaderCommit := param.leaderCommit
    entries := param.entries.map WireLogEntry.encode }

/-- `GrpcRaftRpcTransport::append_entries`. -/
def appendEntries (stub : AppendEntriesStub) (param : AppendEntriesParam) :
    Except Status AppendEntriesResult :=
  match stub (request param) with
  | .error message => .error ⟨.rpcError, message⟩
  | .ok response =>
    .ok { term := response.term, success := response.success, lastLogIndex := response.lastLogIndex }

end GrpcRaftRpcTransport

/-- The APPEND_ENTRIES case of `ReplicaMessageDispatcher::send_task`: the event it posts. The event of a
failed send only writes a log line, and is left out. -/
def ReplicaMessageDispatcher.sendAppendEntries (stub : AppendEntriesStub) (target : PeerMember)
    (param : AppendEntriesParam) : Option LoopEvent :=
  match GrpcRaftRpcTransport.appendEntries stub param with
  | .ok result =>
    if param.readQuorumSeq ≠ 0 then
      some (.readQuorumResponse target.replicaId param.readQuorumSeq result.term)
    else some (.appendResponse target.replicaId param result)
  | .error _ => none

/-- The leader's loop once the event of this call, if there is one, is handled. -/
def ReplicaLoop.afterAppendCall (codec : SnapshotCodec) (stub : AppendEntriesStub) (l : ReplicaLoop)
    (target : PeerMember) (param : AppendEntriesParam) : ReplicaLoop :=
  match ReplicaMessageDispatcher.sendAppendEntries stub target param with
  | some event => (l.handle codec event).loop
  | none => l

end AdvisKV
