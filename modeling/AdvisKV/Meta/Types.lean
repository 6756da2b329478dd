import AdvisKV.Lib.Keyed
import AdvisKV.Model.Types

/-!
# AdvisKV — the data of Meta

Meta keeps two kinds of data. `DurableData` says what the cluster should be and survives a restart;
`RuntimeData` holds what nodes have reported and is gone after one. Every durable record carries its own
key, so the maps of the source are tables of records; the observations do not, and are tables of pairs.
-/

namespace AdvisKV.Meta

/-! ## Identities and ranges -/

structure ShardID where
  tableId : Int := -1
  shardIndex : Int := -1
deriving DecidableEq, Repr

/-- `ReplicaID::get_shard_id`. -/
def shardOf (r : ReplicaID) : ShardID := ⟨r.tableId, r.shardIndex⟩

structure HashRange where
  start : Nat := 0
  stop : Nat := 0
deriving DecidableEq, Repr

structure ShardRange where
  shardIndex : Int := -1
  range : HashRange := {}
deriving DecidableEq, Repr

/-- `K_HASH_BUCKET_COUNT`. -/
def hashBucketCount : Nat := 65536

inductive EngineType where
  | map
deriving DecidableEq, Repr

/-! ## Durable records -/

inductive TablePhase where
  | creating
  | ready
  | deleting
  | deleted
  | resizing
deriving DecidableEq, Repr

/-- `is_absent(TablePhase)`. -/
def TablePhase.isAbsent (phase : TablePhase) : Bool := phase == .deleting || phase == .deleted

inductive ReplicaPhase where
  | creating
  | ready
  | lost
  | error
  | deleting
  | deleted
deriving DecidableEq, Repr

/-- `is_absent(ReplicaPhase)`. -/
def ReplicaPhase.isAbsent (phase : ReplicaPhase) : Bool := phase == .deleting || phase == .deleted

structure Database where
  dbId : Int := -1
  name : Bytes := []
  zone : Bytes := []
deriving DecidableEq, Repr

structure TableSpec where
  dbId : Int := -1
  dbName : Bytes := []
  name : Bytes := []
  engineType : EngineType := .map
  shardRanges : List ShardRange := []
  targetReplicaCount : Int := 0
  resourcePool : Bytes := []
deriving DecidableEq, Repr

structure TableState where
  phase : TablePhase := .creating
  operationId : String := ""
  lastErrorMsg : String := ""
  createTs : Int := 0
  updateTs : Int := 0
deriving DecidableEq, Repr

structure Table where
  tableId : Int := -1
  spec : TableSpec := {}
  state : TableState := {}
deriving DecidableEq, Repr

structure ReplicaSpec where
  dc : Bytes := []
  assignNodeId : NodeID := []
  engineType : EngineType := .map
deriving DecidableEq, Repr

structure ReplicaState where
  phase : ReplicaPhase := .creating
  updateTs : Int := 0
deriving DecidableEq, Repr

structure Replica where
  replicaId : ReplicaID := {}
  spec : ReplicaSpec := {}
  state : ReplicaState := {}
deriving DecidableEq, Repr

inductive ReplicaGroupMode where
  | bootstrap
  | raftReconfig
deriving DecidableEq, Repr

/-- `seqAllocator` is the next sequence number. -/
structure ReplicaGroup where
  shardId : ShardID := {}
  mode : ReplicaGroupMode := .bootstrap
  targetReplicaCount : Int := 0
  desiredMembers : List ReplicaID := []
  seqAllocator : Int := 0
deriving DecidableEq, Repr

/-- `DurableData`; an allocator is the next id it hands out. -/
structure DurableData where
  dbIdAllocator : Int := 0
  tableIdAllocator : Int := 0
  databases : Keyed Database.dbId := .empty
  tables : Keyed Table.tableId := .empty
  replicas : Keyed Replica.replicaId := .empty
  replicaGroups : Keyed ReplicaGroup.shardId := .empty
deriving DecidableEq

/-! ## Observations -/

inductive NodeStatus where
  | online
  | suspect
  | offline
deriving DecidableEq, Repr

inductive NodeOfflineReason where
  | none
  | topologyMismatch
deriving DecidableEq, Repr

structure NodeMeta where
  resourcePool : Bytes := []
  dc : Bytes := []
deriving DecidableEq, Repr

structure NodeState where
  status : NodeStatus := .online
  endpoint : Endpoint := {}
  lastHeartbeatTs : Int := 0
  offlineReason : NodeOfflineReason := .none
deriving DecidableEq, Repr

structure Node where
  id : NodeID := []
  info : NodeMeta := {}
  state : NodeState := {}
deriving DecidableEq, Repr

/-- What heartbeats say about a replica. -/
structure ReplicaObserved where
  raftRole : ReplicaRole := .follower
  memberType : RaftMemberType := .nonMember
  endpoint : Endpoint := {}
  storageStatus : StorageReplicaStatus := .initializing
  noExist : Bool := false
  updateTs : Int := 0
  term : Nat := 0
deriving DecidableEq, Repr

/-- The leader whose membership report was accepted last, and its term. -/
structure MembershipObserved where
  term : Nat := 0
  leader : ReplicaID := {}
deriving DecidableEq, Repr

structure RouteReplica where
  replicaId : ReplicaID := {}
  endpoint : Endpoint := {}
  role : ReplicaRole := .follower
deriving DecidableEq, Repr

structure ShardRoute where
  shardId : ShardID := {}
  replicas : List RouteReplica := []
  hashRange : HashRange := {}
deriving DecidableEq, Repr

structure RuntimeData where
  nodes : Keyed Node.id := .empty
  shardRoutes : Keyed ShardRoute.shardId := .empty
  replicaObserveds : Keyed (Prod.fst : ReplicaID × ReplicaObserved → ReplicaID) := .empty
  membershipObserveds : Keyed (Prod.fst : ShardID × MembershipObserved → ShardID) := .empty
deriving DecidableEq

end AdvisKV.Meta
