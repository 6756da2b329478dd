import Mathlib.Data.List.Basic
import Mathlib.Tactic

/-!
# AdvisKV — data model

The records that travel between the Raft core, the replica loop, the persistence layer and the
network: replica identities, members, log entries, RPC parameters and results, the effects one core
step asks the executor to carry out, and the status values every fallible operation returns.

`Term` and `LogIndex` are `int64` in the source. Terms and log indexes start at 0 and only grow, so both
are `Nat` here; the three components of a `ReplicaID` may be `-1` and stay integers. A C++
`std::string` is the list of its bytes.
-/

namespace AdvisKV

abbrev Bytes := List UInt8
abbrev Key := Bytes
abbrev Value := Bytes
abbrev NodeID := Bytes

instance lawfulBEqBytes : LawfulBEq Bytes := inferInstance

/-! ## Status -/

inductive StatusCode where
  | ok
  | error
  | keyNotFound
  | invalidArgument
  | notSupported
  | alreadyExist
  | rpcError
  | retryError
  | resourceExhausted
  | conditionNotMet
  | notLeader
  | notYetCommit
  | isRecovering
  | notVoter
  | readIndexNotReady
  | isFaulted
  | dbNotFound
  | tableNotFound
  | notInit
  | replicaNotFound
  | replicaManagerNotFound
  | unknown
  | sdkTryAgain
  | noStub
  | routeNotFound
  | tableMetaCacheNotFound
  | dbMetaCacheNotFound
  | replicaError
  | getEof
  | partialRead
deriving DecidableEq, Repr

structure Status where
  code : StatusCode := .ok
  msg : String := ""
deriving DecidableEq, Repr

namespace Status

def OK : Status := {}

/-- `Status::fail()`; two statuses of the source are equal when their codes are. -/
def fail (s : Status) : Bool := s.code != .ok

def isOk (s : Status) : Bool := s.code == .ok

@[simp] theorem fail_OK : OK.fail = false := rfl

@[simp] theorem isOk_OK : OK.isOk = true := rfl

end Status

/-! ## Identities and members -/

structure Endpoint where
  ip : Bytes := []
  port : Int := 0
deriving DecidableEq, Repr

structure ReplicaID where
  tableId : Int := -1
  shardIndex : Int := -1
  replicaSeq : Int := -1
deriving DecidableEq, Repr

/-- `ReplicaID::to_string`. -/
def ReplicaID.toText (r : ReplicaID) : String :=
  toString r.tableId ++ ":" ++ toString r.shardIndex ++ ":" ++ toString r.replicaSeq

structure PeerMember where
  nodeId : NodeID := []
  replicaId : ReplicaID := {}
  endpoint : Endpoint := {}
deriving DecidableEq, Repr

inductive RaftMemberType where
  | nonMember
  | voter
  | learner
deriving DecidableEq, Repr

structure RaftMember where
  peer : PeerMember := {}
  memberType : RaftMemberType := .nonMember
deriving DecidableEq, Repr

inductive ReplicaRole where
  | follower
  | leader
  | candidate
  | preCandidate
deriving DecidableEq, Repr

inductive StorageReplicaStatus where
  | initializing
  | recovering
  | ready
  | faulted
deriving DecidableEq, Repr

/-! ## Log entries -/

inductive WriteOpType where
  | none
  | put
  | del
  | addLearner
  | promoteVoter
  | removeMember
  | cas
deriving DecidableEq, Repr

namespace WriteOpType

/-- The `int32` value of the enumerator. -/
def toNat : WriteOpType → Nat
  | none => 0
  | put => 1
  | del => 2
  | addLearner => 3
  | promoteVoter => 4
  | removeMember => 5
  | cas => 6

def isConfigChangeOp (op : WriteOpType) : Bool :=
  op == addLearner || op == promoteVoter || op == removeMember

def isKvWriteOp (op : WriteOpType) : Bool :=
  op == put || op == del || op == cas

end WriteOpType

structure LogEntry where
  term : Nat := 0
  index : Nat := 0
  opType : WriteOpType := .none
  key : Key := []
  value : Value := []
  expected : Value := []
  configMember : PeerMember := {}
  configReplicaId : ReplicaID := {}
  requestId : Bytes := []
deriving DecidableEq, Repr

structure WriteProposal where
  op : WriteOpType := .none
  key : Key := []
  value : Value := []
  requestId : Bytes := []
  expected : Value := []
deriving DecidableEq, Repr

structure ConfigChangeProposal where
  op : WriteOpType := .none
  member : PeerMember := {}
  targetReplicaId : ReplicaID := {}
deriving DecidableEq, Repr

/-- The `std::variant` payload of a `ProposeParam`. -/
inductive ProposeParam where
  | write (p : WriteProposal)
  | noop
  | configChange (p : ConfigChangeProposal)
deriving DecidableEq, Repr

/-! ## Request records -/

/-- `StableHash64`: FNV-1a over 64 bits, one byte at a time. -/
structure StableHash64 where
  hash : UInt64 := 0xcbf29ce484222325

namespace StableHash64

def appendByte (h : StableHash64) (byte : UInt8) : StableHash64 :=
  { hash := (h.hash ^^^ byte.toUInt64) * 0x100000001b3 }

def append (h : StableHash64) (data : Bytes) : StableHash64 :=
  data.foldl appendByte h

def appendUint64 (h : StableHash64) (value : UInt64) : StableHash64 :=
  ([0, 8, 16, 24, 32, 40, 48, 56] : List UInt64).foldl
    (fun h shift => h.appendByte (value >>> shift).toUInt8) h

/-- `get_mixed_hash`. -/
def getMixedHash (h : StableHash64) : UInt64 :=
  let value := h.hash
  let value := (value ^^^ (value >>> 33)) * 0xff51afd7ed558ccd
  let value := (value ^^^ (value >>> 33)) * 0xc4ceb9fe1a85ec53
  value ^^^ (value >>> 33)

end StableHash64

/-- `RequestRecord::request_payload_hash`. -/
def requestPayloadHash (op : WriteOpType) (key value expected : Bytes) : UInt64 :=
  ((((((({} : StableHash64).appendUint64 (UInt64.ofNat op.toNat)).appendUint64
    (UInt64.ofNat key.length)).append key).appendUint64 (UInt64.ofNat value.length)).append
    value).appendUint64 (UInt64.ofNat expected.length)).append expected |>.hash

structure RequestRecord where
  requestId : Bytes := []
  op : WriteOpType := .none
  payloadHash : UInt64 := 0
  applyStatus : Status := {}
deriving DecidableEq, Repr

/-! ## Persistent records -/

structure RaftMeta where
  currentTerm : Nat := 0
  votedFor : Option ReplicaID := none
deriving DecidableEq, Repr

structure SnapshotHeader where
  applyIndex : Nat := 0
  applyTerm : Nat := 0
  members : List RaftMember := []
deriving DecidableEq, Repr

structure SnapshotData where
  header : SnapshotHeader := {}
  kvs : List (Key × Value) := []
  requestRecords : List RequestRecord := []
deriving DecidableEq, Repr

/-! ## RPC parameters, results and messages -/

structure RequestVoteParam where
  fromReplicaId : ReplicaID := {}
  toReplicaId : ReplicaID := {}
  term : Nat := 0
  lastLogIndex : Nat := 0
  lastLogTerm : Nat := 0
deriving DecidableEq, Repr

structure RequestVoteResult where
  term : Nat := 0
  voteGranted : Bool := false
deriving DecidableEq, Repr

/-- A pre-vote carries the same fields; its `term` is the term the sender would stand in. -/
abbrev PreVoteParam := RequestVoteParam
abbrev PreVoteResult := RequestVoteResult

structure AppendEntriesParam where
  fromReplicaId : ReplicaID := {}
  toReplicaId : ReplicaID := {}
  term : Nat := 0
  entries : List LogEntry := []
  prevLogIndex : Nat := 0
  prevLogTerm : Nat := 0
  leaderCommit : Nat := 0
  readQuorumSeq : Nat := 0
deriving DecidableEq, Repr

structure AppendEntriesResult where
  term : Nat := 0
  success : Bool := false
  lastLogIndex : Nat := 0
deriving DecidableEq, Repr

structure InstallSnapshotParam where
  fromReplicaId : ReplicaID := {}
  toReplicaId : ReplicaID := {}
  term : Nat := 0
  snapshotIndex : Nat := 0
  snapshotTerm : Nat := 0
  offset : Nat := 0
  data : Bytes := []
  done : Bool := false
deriving DecidableEq, Repr

structure InstallSnapshotResult where
  term : Nat := 0
  status : Status := {}
  snapshotWatermark : Nat := 0
deriving DecidableEq, Repr

/-- A message the core wants sent, with the member it is addressed to. -/
inductive RaftMessage where
  | requestVote (target : PeerMember) (param : RequestVoteParam)
  | preVote (target : PeerMember) (param : PreVoteParam)
  | appendEntries (target : PeerMember) (param : AppendEntriesParam)
  | installSnapshot (target : PeerMember) (param : InstallSnapshotParam)
deriving DecidableEq, Repr

/-- What one core step asks the executor to do: persist, then send. -/
structure RaftEffects where
  hardState : Option RaftMeta := none
  entriesToAppend : List LogEntry := []
  entriesToRewrite : Option (List LogEntry) := none
  messages : List RaftMessage := []
deriving DecidableEq, Repr

end AdvisKV
