import AdvisKV.Meta.Heartbeat
import Mathlib.Data.List.Sort

/-!
# AdvisKV — the reconcilers

One background thread brings the groups towards what the tables ask for: it adjusts targets, projects the
phase of every replica from what was observed, and changes the desired members of each group.
`reconcile_group` decides on one snapshot and carries its decision out in a later transaction, without looking
again; heartbeats may come in between. A decision is therefore a value of its own, `Plan`. The other
reconcilers look after the status of nodes, the routes of shards and the phases of tables.
-/

namespace AdvisKV.Meta

/-! ## Victims -/

/-- `is_healthy`. -/
def Replica.isHealthy (r : Replica) : Bool :=
  !r.state.phase.isAbsent && r.state.phase != .lost && r.state.phase != .error

/-- `RemoveVictimClass`, by its value. -/
def removeVictimClass (replica : Option Replica) (observed : Option ReplicaObserved) : Nat :=
  match replica with
  | none => 0
  | some r =>
    if r.state.phase = .lost ∨ r.state.phase = .error then 0
    else
      let memberType := (observed.map ReplicaObserved.memberType).getD .nonMember
      let role := (observed.map ReplicaObserved.raftRole).getD .follower
      -- leaders last
      if memberType = .nonMember then 1 else if role = .leader then 3 else 2

/-- The order victims are taken in: by class, then the newest first. -/
def victimBefore (a b : Nat × ReplicaID) : Bool :=
  if a.1 ≠ b.1 then decide (a.1 < b.1) else decide (b.2.replicaSeq ≤ a.2.replicaSeq)

/-- `select_remove_member_victims`. -/
def selectRemoveMemberVictims (t : MetaStoreTxn) (group : ReplicaGroup) (count : Int)
    (filterHealthy : Bool) : List ReplicaID :=
  if count ≤ 0 ∨ group.desiredMembers = [] then []
  else
    let ranked := group.desiredMembers.map fun id =>
      (removeVictimClass (t.getReplica id) (t.getReplicaObserved id), id)
    let ranked := if filterHealthy then ranked.filter fun r => r.1 = 0 else ranked
    ((ranked.insertionSort fun a b => victimBefore a b = true).take count.toNat).map Prod.snd

/-- `select_single_remove_victim`. -/
def selectSingleRemoveVictim (t : MetaStoreTxn) (group : ReplicaGroup) : Option ReplicaID :=
  (selectRemoveMemberVictims t group 1
    (!decide (group.targetReplicaCount < group.desiredMembers.length))).head?

/-! ## Plans -/

/-- What `reconcile_group` has decided to do with a group. -/
inductive Plan where
  | nothing
  | removeMembers (shard : ShardID) (count : Int)
  | removeSpecificMembers (shard : ShardID) (victims : List ReplicaID)
  | cleanupGroup (shard : ShardID)
  | addMembers (shard : ShardID) (count : Int)
deriving DecidableEq, Repr

/-- The decision of `reconcile_group`. -/
def reconcileGroup (t : MetaStoreTxn) (shard : ShardID) : Plan :=
  match t.getReplicaGroup shard with
  | none => .nothing
  | some group =>
    let replicas := group.desiredMembers.filterMap t.getReplica
    let healthy : Int := (replicas.filter Replica.isHealthy).length
    let bad := (replicas.filter fun r => r.state.phase = .lost ∨ r.state.phase = .error).map
      Replica.replicaId
    let memberCount : Int := group.desiredMembers.length
    if group.targetReplicaCount = 0 then
      if 0 < memberCount then .removeMembers shard memberCount else .cleanupGroup shard
    else if healthy < group.targetReplicaCount then
      .addMembers shard (group.targetReplicaCount - healthy)
    else if group.mode = .raftReconfig then
      match selectSingleRemoveVictim t group with
      | some victim =>
        -- only an observation counts: without one the replica may still be a voter
        if (t.getReplicaObserved victim).any fun o => o.memberType = .nonMember then
          .removeSpecificMembers shard [victim]
        else .nothing
      | none => .cleanupGroup shard
    else if bad ≠ [] then .removeSpecificMembers shard bad
    else if group.targetReplicaCount < memberCount then
      .removeMembers shard (memberCount - group.targetReplicaCount)
    else .cleanupGroup shard

/-! ## Carrying a plan out -/

/-- The phase change of one victim in `retire_members`. -/
def retireReplica (now : Int) (t : MetaStoreTxn) (id : ReplicaID) : MetaStoreTxn :=
  match t.getReplica id with
  | none => t
  | some r =>
    if r.state.phase.isAbsent then t
    else t.putReplica { r with state := { phase := .deleting, updateTs := now } }

/-- `retire_members`. -/
def retireMembers (now : Int) (t : MetaStoreTxn) (group : ReplicaGroup) (victims : List ReplicaID) :
    MetaStoreTxn :=
  if victims = [] then t
  else
    let kept := group.desiredMembers.filter fun id => id ∉ victims
    if kept.length = group.desiredMembers.length then t
    else (victims.foldl (retireReplica now) t).putReplicaGroup { group with desiredMembers := kept }

/-- `all_members_ready`. -/
def allMembersReady (t : MetaStoreTxn) (group : ReplicaGroup) : Bool :=
  group.desiredMembers != [] && group.desiredMembers.all fun id =>
    (t.getReplica id).any (fun r => r.state.phase == .ready) &&
      (t.getReplicaObserved id).any fun o => o.memberType == .voter

/-- `cleanup_group`. -/
def cleanupGroup (t : MetaStoreTxn) (shard : ShardID) : MetaStoreTxn :=
  match t.getReplicaGroup shard with
  | none => t
  | some group =>
    let gone := (t.listReplicasByShard shard).filter fun r => r.state.phase = .deleted
    let t := (gone.map Replica.replicaId).foldl MetaStoreTxn.deleteReplica t
    if group.mode = .raftReconfig then
      -- a group without replicas may be bootstrapped again
      if group.targetReplicaCount = 0 then t.putReplicaGroup { group with mode := .bootstrap } else t
    else if (group.desiredMembers.length : Int) = group.targetReplicaCount ∧
        allMembersReady t group = true then
      t.putReplicaGroup { group with mode := .raftReconfig }
    else t

/-- The replicas `add_members` creates on the nodes it was given, numbered from `seq`. -/
def newReplicas (shard : ShardID) (engine : EngineType) (seq : Int) (nodes : List Node) :
    List (Replica × Node) :=
  nodes.zipIdx.map fun p =>
    ({ replicaId := ⟨shard.tableId, shard.shardIndex, seq + p.2⟩
       spec := { dc := p.1.info.dc, assignNodeId := p.1.id, engineType := engine } }, p.1)

/-- The last transaction of `add_members`, on the nodes that were selected. -/
def addMembers (now : Int) (t : MetaStoreTxn) (shard : ShardID) (engine : EngineType)
    (nodes : List Node) : MetaStoreTxn :=
  match t.getReplicaGroup shard with
  | none => t
  | some group =>
    if group.targetReplicaCount ≤ 0 then t
    else
      let fresh := newReplicas shard engine group.seqAllocator nodes
      let t := t.putReplicas (fresh.map Prod.fst)
      let t := fresh.foldl (fun t p => t.putReplicaObserved p.1.replicaId
        { endpoint := p.2.state.endpoint, updateTs := now }) t
      t.putReplicaGroup { group with
        desiredMembers := group.desiredMembers ++ fresh.map fun p => p.1.replicaId
        seqAllocator := group.seqAllocator + nodes.length }

/-- `remove_members`. -/
def removeMembers (now : Int) (t : MetaStoreTxn) (shard : ShardID) (count : Int) : MetaStoreTxn :=
  match t.getReplicaGroup shard with
  | none => t
  | some group =>
    -- members may have gone since the plan was made
    let actual := min count (group.desiredMembers.length - group.targetReplicaCount)
    if actual ≤ 0 then t
    else retireMembers now t group (selectRemoveMemberVictims t group actual false)

/-- `remove_specific_members`. -/
def removeSpecificMembers (now : Int) (t : MetaStoreTxn) (shard : ShardID) (victims : List ReplicaID) :
    MetaStoreTxn :=
  if victims = [] then t
  else match t.getReplicaGroup shard with
    | none => t
    | some group => retireMembers now t group victims

/-! ## Phases and targets -/

/-- `project_phase_from_observed_facts`. -/
def projectPhase (t : MetaStoreTxn) (r : Replica) (observed : Option ReplicaObserved) : ReplicaPhase :=
  if r.state.phase = .deleted then .deleted
  else if r.state.phase = .deleting then
    if observed.any ReplicaObserved.noExist then .deleted else .deleting
  else if r.state.phase = .error then .error
  else match t.getNode r.spec.assignNodeId with
    | none => r.state.phase
    | some node =>
      if node.state.status = .offline then .lost
      -- its node is back
      else if r.state.phase = .lost then .creating
      else match observed with
        | none => r.state.phase
        | some o => match o.storageStatus with
          | .initializing | .recovering => .creating
          | .ready => .ready
          | .faulted => .error

/-- `reconcile_replica_phase`. -/
def reconcileReplicaPhase (now : Int) (t : MetaStoreTxn) (r : Replica) : MetaStoreTxn :=
  let next := projectPhase t r (t.getReplicaObserved r.replicaId)
  if next = r.state.phase then t
  else t.putReplica { r with state := { phase := next, updateTs := now } }

/-- The transaction of `ReplicaPhaseReconciler::run`. -/
def reconcilePhases (now : Int) (t : MetaStoreTxn) : MetaStoreTxn :=
  t.durable.replicas.entries.foldl (reconcileReplicaPhase now) t

/-- `ensure_group_for_shard`. -/
def ensureGroupForShard (t : MetaStoreTxn) (tableId shardIndex : Int) : MetaStoreTxn :=
  match t.getTable tableId with
  | none => t
  | some table =>
    if table.state.phase.isAbsent then t
    else match t.getReplicaGroup ⟨tableId, shardIndex⟩ with
      | none => t.putReplicaGroup
          { shardId := ⟨tableId, shardIndex⟩, targetReplicaCount := table.spec.targetReplicaCount }
      | some group =>
        if group.targetReplicaCount ≠ table.spec.targetReplicaCount then
          t.putReplicaGroup { group with targetReplicaCount := table.spec.targetReplicaCount }
        else t

/-- One shard of `reconcile_absent_table`. -/
def reconcileAbsentShard (t : MetaStoreTxn) (shard : ShardID) : MetaStoreTxn :=
  match t.getReplicaGroup shard with
  | none => t
  | some group =>
    if group.targetReplicaCount ≠ 0 then t.putReplicaGroup { group with targetReplicaCount := 0 }
    else if group.desiredMembers = [] ∧ t.listReplicasByShard shard = [] then t.deleteReplicaGroup shard
    else t

/-- `reconcile_absent_table`. -/
def reconcileAbsentTable (t : MetaStoreTxn) (tableId : Int) : MetaStoreTxn :=
  match t.getTable tableId with
  | none => t
  | some table =>
    if table.state.phase = .deleted then t
    else (table.spec.shardRanges.map fun r => (⟨table.tableId, r.shardIndex⟩ : ShardID)).foldl
      reconcileAbsentShard t

/-! ## Nodes -/

structure RegisterNodeParam where
  nodeId : NodeID := []
  ip : Bytes := []
  port : Int := 0
  resourcePool : Bytes := []
  dc : Bytes := []
deriving DecidableEq, Repr

/-- `register_node`. -/
def registerNode (now : Int) (t : MetaStoreTxn) (p : RegisterNodeParam) : MetaStoreTxn :=
  match t.getNode p.nodeId with
  | none => t.putNode
      { id := p.nodeId
        info := { resourcePool := p.resourcePool, dc := p.dc }
        state := { endpoint := ⟨p.ip, p.port⟩, lastHeartbeatTs := now } }
  | some node =>
    let matching := node.info.dc = p.dc ∧ node.info.resourcePool = p.resourcePool
    t.putNode { node with state :=
      { status := if matching then .online else .offline
        endpoint := ⟨p.ip, p.port⟩
        lastHeartbeatTs := now
        offlineReason := if matching then .none else .topologyMismatch } }

/-- `check_and_modify_node`: the status a node should have, from when it was last heard of. -/
def checkedStatus (startTs now : Int) (node : Node) : NodeStatus :=
  if node.state.offlineReason = .topologyMismatch then .offline
  else if now - node.state.lastHeartbeatTs ≤ 10000 then .online
  -- after a start of the server nobody has been heard of yet
  else if now - startTs ≤ 30000 then node.state.status
  else if 30000 < now - node.state.lastHeartbeatTs then .offline
  else if node.state.status = .online then .suspect
  else node.state.status

/-- One node of `NodeReconciler::run`. -/
def checkNode (startTs now : Int) (t : MetaStoreTxn) (id : NodeID) : MetaStoreTxn :=
  match t.getNode id with
  | none => t
  | some node =>
    let next := checkedStatus startTs now node
    if next = node.state.status then t
    else t.putNode { node with state := { node.state with status := next } }

/-! ## Routes and tables -/

/-- The route entry of a replica that may be routed to, with its term. -/
def routeEntry (t : MetaStoreTxn) (r : Replica) : Option (RouteReplica × Nat) :=
  if r.state.phase ≠ .ready ∨ r.spec.assignNodeId = [] then none
  else match t.getNode r.spec.assignNodeId, t.getReplicaObserved r.replicaId with
    | some node, some o =>
      if node.state.status ≠ .online ∨ o.memberType ≠ .voter then none
      else some (⟨r.replicaId, o.endpoint, o.raftRole⟩, o.term)
    | _, _ => none

/-- `check_shard_route`, for a shard of the table. -/
def checkShardRoute (t : MetaStoreTxn) (shard : ShardID) : MetaStoreTxn :=
  match t.getTable shard.tableId with
  | none => t.deleteShardRoute shard
  | some table =>
    if table.state.phase.isAbsent ∨
        shard.shardIndex ∉ table.spec.shardRanges.map ShardRange.shardIndex then
      t.deleteShardRoute shard
    else
      let entries := (t.listReplicasByShard shard).filterMap (routeEntry t)
      let leaders := entries.filter fun e => e.1.role = .leader
      let followers := (entries.filter fun e => e.1.role = .follower ∨ e.1.role = .preCandidate).insertionSort
        fun a b => a.1.replicaId.replicaSeq ≤ b.1.replicaId.replicaSeq
      let top := leaders.foldl (fun m e => max m e.2) 0
      match leaders.filter fun e => e.2 = top with
      | [leader] => t.putShardRoute
          { shardId := shard
            replicas := leader.1 :: followers.map fun e => { e.1 with role := .follower } }
      | _ => t.deleteShardRoute shard

/-- `ShardRoute::is_writable`. -/
def ShardRoute.isWritable (r : ShardRoute) : Bool :=
  (r.replicas.filter fun x => x.role = .leader ∧ x.endpoint.ip ≠ [] ∧ 0 < x.endpoint.port).length = 1

/-- One shard of `ensure_all_shards_ok`. -/
def shardOk (t : MetaStoreTxn) (table : Table) (shard : ShardID) : Bool :=
  let replicas := t.listReplicasByShard shard
  decide ((replicas.length : Int) = table.spec.targetReplicaCount) &&
  (replicas.all fun r => r.state.phase == .ready &&
    (t.getReplicaObserved r.replicaId).any fun o => o.memberType == .voter) &&
  (t.getReplicaGroup shard).any (fun g =>
    decide (g.targetReplicaCount = table.spec.targetReplicaCount) &&
    decide ((g.desiredMembers.length : Int) = table.spec.targetReplicaCount) &&
    g.desiredMembers.all fun id => decide (id ∈ replicas.map Replica.replicaId)) &&
  (decide (table.spec.targetReplicaCount = 0) || (t.getShardRoute shard).any ShardRoute.isWritable)

/-- `finalize_table_until_ready`, for a table that is being created or resized. -/
def finalizeTable (now : Int) (t : MetaStoreTxn) (tableId : Int) : MetaStoreTxn :=
  match t.getTable tableId with
  | none => t
  | some table =>
    if table.state.phase ≠ .creating ∧ table.state.phase ≠ .resizing then t
    else if (checkShardRangesIsValid table.spec.shardRanges).fail then t
    else
      let ok := table.spec.shardRanges.all fun r => shardOk t table ⟨table.tableId, r.shardIndex⟩
      t.putTable { table with state := { table.state with
        phase := if ok then .ready else table.state.phase
        lastErrorMsg := if ok then "" else table.state.lastErrorMsg
        updateTs := now } }

/-- `finalize_absent_table`. -/
def finalizeAbsentTable (now : Int) (t : MetaStoreTxn) (tableId : Int) : MetaStoreTxn :=
  match t.getTable tableId with
  | none => t
  | some table =>
    if table.state.phase ≠ .deleting then t
    else
      let gone := table.spec.shardRanges.all fun r =>
        let shard : ShardID := ⟨table.tableId, r.shardIndex⟩
        t.listReplicasByShard shard == [] && (t.getReplicaGroup shard).isNone
      t.putTable { table with state := { table.state with
        phase := if gone then .deleted else .deleting
        lastErrorMsg := if gone then "" else table.state.lastErrorMsg
        updateTs := now } }

end AdvisKV.Meta
