import AdvisKV.Meta.Store

/-!
# AdvisKV — heartbeats

A storage node reports its replicas; Meta records what it hears and answers with what it expects of the node.
`NodeService::heartbeat` updates the observations. The type a replica has in its Raft group is observed only
through its leader: a leader's report lists the whole membership, and `project_leader_membership` writes a
type for every desired member. `build_heartbeat_result` then compares the report with the desired members.

The clock is a parameter. Lists that the source sorts by replica id are taken in the order of the table;
nothing here depends on that order.
-/

namespace AdvisKV.Meta

/-! ## Parameters -/

structure HeartBeatReplicaInfo where
  replicaId : ReplicaID := {}
  role : ReplicaRole := .follower
  storageStatus : StorageReplicaStatus := .initializing
  term : Nat := 0
  fullMembership : List RaftMember := []
deriving DecidableEq, Repr

structure HeartBeatParam where
  nodeId : NodeID := []
  ip : Bytes := []
  port : Int := -1
  resourcePoolName : Bytes := []
  dc : Bytes := []
  replicaList : List HeartBeatReplicaInfo := []
deriving DecidableEq, Repr

inductive ExpectedReplicaType where
  | present
  | absent
  | addMember
  | removeMember
deriving DecidableEq, Repr

structure ExpectedReplica where
  replicaId : ReplicaID := {}
  type : ExpectedReplicaType := .present
  engineType : EngineType := .map
  initialMembers : List PeerMember := []
deriving DecidableEq, Repr

/-- The checks of one reported replica; its term is never negative here. -/
def HeartBeatReplicaInfo.validate (i : HeartBeatReplicaInfo) : Status :=
  if i.replicaId.replicaSeq < 0 then ⟨.invalidArgument, "info replica seq should >= 0"⟩
  else if i.replicaId.tableId < 0 then ⟨.invalidArgument, "info table id should >= 0"⟩
  else if i.replicaId.shardIndex < 0 then ⟨.invalidArgument, "info shard index should >= 0"⟩
  else .OK

/-- `HeartBeatParam::validate`: the first check that fails, replica by replica. -/
def HeartBeatParam.validate (p : HeartBeatParam) : Status :=
  if p.nodeId = [] then ⟨.invalidArgument, "node need id"⟩
  else if p.ip = [] then ⟨.invalidArgument, "ip should not empty"⟩
  else if p.port ≤ 0 then ⟨.invalidArgument, "port should not empty"⟩
  else if p.resourcePoolName = [] then ⟨.invalidArgument, "resource_pool should not empty"⟩
  else if p.dc = [] then ⟨.invalidArgument, "dc should not empty"⟩
  else ((p.replicaList.map HeartBeatReplicaInfo.validate).find? Status.fail).getD .OK

/-! ## Recording a heartbeat -/

/-- `should_accept_membership_report`. -/
def shouldAcceptMembershipReport (observed : Option MembershipObserved) (info : HeartBeatReplicaInfo) :
    Bool :=
  match observed with
  | none => true
  | some o =>
    if o.term < info.term then true
    else if info.term < o.term then false
    -- within a term only the leader heard first is believed
    else info.replicaId == o.leader

/-- The type a report gives a replica: its first entry of this shard, or none. -/
def reportedType (shard : ShardID) (members : List RaftMember) (id : ReplicaID) : RaftMemberType :=
  match members.find? fun m => shardOf m.peer.replicaId = shard ∧ m.peer.replicaId = id with
  | some m => m.memberType
  | none => .nonMember

/-- The body of the loop over the desired members in `project_leader_membership`. -/
def projectMember (now : Int) (shard : ShardID) (members : List RaftMember) (t : MetaStoreTxn)
    (id : ReplicaID) : MetaStoreTxn :=
  let nextType := reportedType shard members id
  -- a desired member may have lost its record
  if (t.getReplica id).isNone then t
  else match t.getReplicaObserved id with
    | some o =>
      if o.memberType = nextType then t
      else t.putReplicaObserved id { o with memberType := nextType, updateTs := now }
    | none => t.putReplicaObserved id { memberType := nextType, updateTs := now }

/-- `project_leader_membership`. -/
def projectLeaderMembership (now : Int) (t : MetaStoreTxn) (info : HeartBeatReplicaInfo) : MetaStoreTxn :=
  if info.fullMembership = [] then t
  else match t.getReplicaGroup (shardOf info.replicaId) with
    | none => t
    | some group =>
      if info.replicaId ∉ group.desiredMembers then t
      else if !shouldAcceptMembershipReport (t.getMembershipObserved group.shardId) info then t
      else
        (group.desiredMembers.foldl (projectMember now group.shardId info.fullMembership)
          t).putMembershipObserved group.shardId { term := info.term, leader := info.replicaId }

/-- One iteration of `apply_reported_replicas`. The type is kept as it was; a replica heard of for the first
time is no member. -/
def applyReportedReplica (now : Int) (p : HeartBeatParam) (t : MetaStoreTxn)
    (info : HeartBeatReplicaInfo) : MetaStoreTxn :=
  match t.getReplica info.replicaId with
  | none => t
  | some replica =>
    if replica.spec.assignNodeId ≠ p.nodeId then t
    else
      let previous := t.getReplicaObserved info.replicaId
      -- a report of an earlier term is stale
      if previous.any fun o => info.term < o.term then t
      else
        let observed : ReplicaObserved :=
          { raftRole := info.role
            memberType := (previous.map ReplicaObserved.memberType).getD .nonMember
            endpoint := ⟨p.ip, p.port⟩
            storageStatus := info.storageStatus
            noExist := false
            term := info.term
            updateTs := now }
        let t := t.putReplicaObserved info.replicaId observed
        if info.role = .leader then projectLeaderMembership now t info else t

/-- `apply_reported_replicas`. -/
def applyReportedReplicas (now : Int) (t : MetaStoreTxn) (p : HeartBeatParam) : MetaStoreTxn :=
  p.replicaList.foldl (applyReportedReplica now p) t

/-- `list_replicas_by_node`; the index has no entry for the empty node id. -/
def MetaStoreTxn.listReplicasByNode (t : MetaStoreTxn) (node : NodeID) : List Replica :=
  if node = [] then [] else t.durable.replicas.entries.filter fun r => r.spec.assignNodeId = node

def MetaStoreTxn.listReplicasByShard (t : MetaStoreTxn) (shard : ShardID) : List Replica :=
  t.durable.replicas.entries.filter fun r => shardOf r.replicaId = shard

/-- One iteration of `mark_no_exist_replicas`. -/
def markNoExist (now : Int) (p : HeartBeatParam) (t : MetaStoreTxn) (replica : Replica) :
    MetaStoreTxn :=
  if replica.replicaId ∈ p.replicaList.map HeartBeatReplicaInfo.replicaId then t
  -- one that is not being deleted may just not have been started yet
  else if replica.state.phase ≠ .deleting then t
  else t.putReplicaObserved replica.replicaId
    { (t.getReplicaObserved replica.replicaId).getD {} with noExist := true, updateTs := now }

def markNoExistReplicas (now : Int) (t : MetaStoreTxn) (p : HeartBeatParam) : MetaStoreTxn :=
  (t.listReplicasByNode p.nodeId).foldl (markNoExist now p) t

/-- `update_node_heartbeat`. -/
def updateNodeHeartbeat (now : Int) (t : MetaStoreTxn) (p : HeartBeatParam) : Except Status MetaStoreTxn :=
  match t.getNode p.nodeId with
  | none => .error ⟨.invalidArgument, "node not found"⟩
  | some node =>
    let state := { node.state with endpoint := ⟨p.ip, p.port⟩, lastHeartbeatTs := now }
    if node.info.dc = p.dc ∧ node.info.resourcePool = p.resourcePoolName then
      -- only a mismatch is undone here; silence is up to the reconciler
      .ok (t.putNode { node with state := { state with
        status := if node.state.offlineReason = .topologyMismatch then .online else node.state.status
        offlineReason := .none } })
    else
      .ok (t.putNode { node with state := { state with
        status := .offline
        offlineReason := .topologyMismatch } })

/-- The transaction of `NodeService::heartbeat`. -/
def heartbeatTxn (now : Int) (p : HeartBeatParam) (t : MetaStoreTxn) : Status × MetaStoreTxn :=
  match updateNodeHeartbeat now t p with
  | .error st => (st, t)
  | .ok t => (.OK, markNoExistReplicas now (applyReportedReplicas now t p) p)

/-! ## The answer -/

/-- The member `build_shard_members` lists for a desired member, if it lists one. -/
def shardMember (t : MetaStoreTxn) (voterOnly : Bool) (id : ReplicaID) : Option PeerMember :=
  match t.getReplica id, t.getReplicaObserved id with
  | some replica, some o =>
    if voterOnly && o.memberType != .voter then none
    else some { nodeId := replica.spec.assignNodeId, replicaId := id, endpoint := o.endpoint }
  | _, _ => none

/-- `build_shard_members`. -/
def buildShardMembers (t : MetaStoreTxn) (shard : ShardID) (voterOnly : Bool) : List PeerMember :=
  match t.getReplicaGroup shard with
  | none => []
  | some group => group.desiredMembers.filterMap (shardMember t voterOnly)

/-- The PRESENT instruction for a replica of the node, if there is one. -/
def presentInstruction (t : MetaStoreTxn) (p : HeartBeatParam) (replica : Replica) :
    Option ExpectedReplica :=
  match t.getReplicaGroup (shardOf replica.replicaId) with
  | none => none
  | some group =>
    if replica.replicaId ∉ group.desiredMembers then none
    else if replica.replicaId ∈ p.replicaList.map HeartBeatReplicaInfo.replicaId then none
    else some
      { replicaId := replica.replicaId
        type := .present
        engineType := replica.spec.engineType
        initialMembers := buildShardMembers t (shardOf replica.replicaId)
          (group.mode == .raftReconfig) }

/-- The PRESENT part of `build_heartbeat_result`. -/
def presentInstructions (t : MetaStoreTxn) (p : HeartBeatParam) : List ExpectedReplica :=
  (t.listReplicasByNode p.nodeId).filterMap (presentInstruction t p)

end AdvisKV.Meta
