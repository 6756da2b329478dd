import AdvisKV.Meta.Runs

/-!
# AdvisKV — what a PRESENT instruction lists

A node that does not report a desired replica is told to create it, with a list of initial members. For a group
that Raft already reconfigures, the list holds the desired members that were last observed as voters. Nothing
takes the instructed replica itself out of it: a replica that was a voter, and that its node has lost, is
created again empty and as a voter.

Main results:

* `mem_buildShardMembers` — which desired members are listed.
* `present_lists_itself_iff` — exactly when an instruction lists its own replica.
-/

namespace AdvisKV.Meta

variable {t : MetaStoreTxn} {p : HeartBeatParam} {e : ExpectedReplica}

variable {id : ReplicaID}

theorem shardMember_replicaId {voterOnly : Bool} {m : PeerMember} (h : shardMember t voterOnly id = some m) :
    m.replicaId = id := by
  unfold shardMember at h
  split at h
  · split at h
    · cases h
    · cases h
      rfl
  · cases h

/-- **Listed members.** -/
theorem mem_buildShardMembers {shard : ShardID} {group : ReplicaGroup} {voterOnly : Bool}
    (hgroup : t.getReplicaGroup shard = some group) :
    id ∈ (buildShardMembers t shard voterOnly).map PeerMember.replicaId ↔
      id ∈ group.desiredMembers ∧ (shardMember t voterOnly id).isSome = true := by
  simp only [buildShardMembers, hgroup, List.mem_map, List.mem_filterMap]
  constructor
  · rintro ⟨m, ⟨desired, hmem, hm⟩, rfl⟩
    have hid := shardMember_replicaId hm
    rw [hid]
    exact ⟨hmem, by rw [hm]; rfl⟩
  · rintro ⟨hmem, hsome⟩
    obtain ⟨m, hm⟩ := Option.isSome_iff_exists.mp hsome
    exact ⟨m, ⟨id, hmem, hm⟩, shardMember_replicaId hm⟩

/-- A replica with a record is listed among the voters when it is observed as one. -/
theorem shardMember_voter_iff (hreplica : (t.getReplica id).isSome = true) :
    (shardMember t true id).isSome = true ↔
      ∃ o, t.getReplicaObserved id = some o ∧ o.memberType = .voter := by
  obtain ⟨replica, hreplica⟩ := Option.isSome_iff_exists.mp hreplica
  rcases hobserved : t.getReplicaObserved id with _ | o
  · simp [shardMember, hreplica, hobserved]
  · by_cases hvoter : o.memberType = .voter
    · simp [shardMember, hreplica, hobserved, hvoter]
    · simp [shardMember, hreplica, hobserved, hvoter]

/-- What is behind an instruction: a record of the node's, and a group that wants it. -/
theorem mem_presentInstructions (h : e ∈ presentInstructions t p) :
    ∃ replica group, t.getReplica e.replicaId = some replica ∧
      t.getReplicaGroup (shardOf e.replicaId) = some group ∧ e.replicaId ∈ group.desiredMembers ∧
      e.initialMembers = buildShardMembers t (shardOf e.replicaId) (group.mode == .raftReconfig) := by
  simp only [presentInstructions, List.mem_filterMap] at h
  obtain ⟨replica, hreplica, hinstr⟩ := h
  have hentry : replica ∈ t.durable.replicas.entries := by
    unfold MetaStoreTxn.listReplicasByNode at hreplica
    split at hreplica
    · cases hreplica
    · exact (List.mem_filter.mp hreplica).1
  unfold presentInstruction at hinstr
  split at hinstr
  · cases hinstr
  next group hgroup =>
  split at hinstr
  · cases hinstr
  next hdesired =>
  split at hinstr
  · cases hinstr
  · cases hinstr
    exact ⟨replica, group, Keyed.get_eq_some_iff.mpr ⟨hentry, rfl⟩, hgroup, not_not.mp hdesired, rfl⟩

/-- **An instruction for a reconfigured group** lists its own replica exactly when Meta has last observed that
replica as a voter. -/
theorem present_lists_itself_iff (h : e ∈ presentInstructions t p) {group : ReplicaGroup}
    (hgroup : t.getReplicaGroup (shardOf e.replicaId) = some group) (hmode : group.mode = .raftReconfig) :
    e.replicaId ∈ e.initialMembers.map PeerMember.replicaId ↔
      ∃ o, t.getReplicaObserved e.replicaId = some o ∧ o.memberType = .voter := by
  obtain ⟨replica, group', hreplica, hgroup', hdesired, hmembers⟩ := mem_presentInstructions h
  rw [hgroup] at hgroup'
  cases hgroup'
  have hrecord : (t.getReplica e.replicaId).isSome = true := by
    rw [hreplica]
    rfl
  rw [hmembers, mem_buildShardMembers hgroup, hmode]
  constructor
  · intro hmem
    exact (shardMember_voter_iff hrecord).mp hmem.2
  · intro hvoter
    exact ⟨hdesired, (shardMember_voter_iff hrecord).mpr hvoter⟩

/-! ## A lost voter -/

/-- The only node, its heartbeat with these replicas, and a table of one shard with one replica. -/
def onlyNode : RegisterNodeParam :=
  { nodeId := [1], ip := [1], port := 1, resourcePool := [1], dc := [1] }

def onlyNodeReports (replicas : List HeartBeatReplicaInfo) : HeartBeatParam :=
  { nodeId := [1], ip := [1], port := 1, resourcePoolName := [1], dc := [1], replicaList := replicas }

def oneReplicaTable : CreateTableParam :=
  { dbName := [1], tableName := [1], shardCount := 1, replicaCount := 1, resourcePool := [1] }

/-- Replica `seq` of the table's shard as the leader and only voter of its group. -/
def soleLeader (seq : Int) (term : Nat) : HeartBeatReplicaInfo :=
  { replicaId := ⟨0, 0, seq⟩, role := .leader, storageStatus := .ready, term
    fullMembership := [{ peer := { replicaId := ⟨0, 0, seq⟩ }, memberType := .voter }] }

def calls (cs : List Call) : List MetaAction := cs.map .call

/-- A table is created in a database of its own, with the group of its shard. -/
def createWith (p : CreateTableParam) : List MetaAction :=
  calls [.createDb { dbName := [1] }, .createTable 0 p, .ensureGroup 0 0]

/-- The table is READY and gets another number of replicas. -/
def resize (now count : Int) : List MetaAction :=
  calls [.route ⟨0, 0⟩, .finalizeTable now 0,
    .alterTableReplicaCount now { dbName := [1], tableName := [1], replicaCount := count }, .ensureGroup 0 0]

/-- The background thread decides about the shard of the table and writes. -/
def settle (now : Int) : List MetaAction := [.decide ⟨0, 0⟩, .call (.carryOut now)]

/-- The same, with the two reads that place new members. -/
def grow (now : Int) : List MetaAction := [.decide ⟨0, 0⟩, .read, .read, .call (.carryOut now)]

/-- The table is created, its replica placed, reported by its node and taken over by Raft. -/
def bringUp (term : Nat) : List MetaAction :=
  calls [.registerNode 0 onlyNode] ++ createWith oneReplicaTable ++ grow 0 ++
    calls [.heartbeat 0 (onlyNodeReports [soleLeader 0 term]), .phases 0] ++ settle 0

/-- Meta restarts and the node registers again and reports nothing: without an observation the replica is not
listed. -/
theorem forgotten_voter_not_listed :
    ∃ s, Machine.Run MetaState.step {} s ∧
      ∃ e ∈ presentInstructions (.start s.data) (onlyNodeReports []),
        e.replicaId ∉ e.initialMembers.map PeerMember.replicaId := by
  obtain ⟨s, hs⟩ : ∃ s, Machine.run MetaState.step (bringUp 1 ++
      [.restart, .call (.registerNode 1 onlyNode), .call (.heartbeat 1 (onlyNodeReports []))]) {} = some s := ⟨_, rfl⟩
  refine ⟨s, .of_run hs, { replicaId := ⟨0, 0, 0⟩ }, ?_, ?_⟩
  · cases hs
    decide +kernel
  · have he : ({ replicaId := ⟨0, 0, 0⟩ } : ExpectedReplica) ∈
        presentInstructions (.start s.data) (onlyNodeReports []) := by
      cases hs
      decide +kernel
    have hgroup : (MetaStoreTxn.start s.data).getReplicaGroup ⟨0, 0⟩ = some
        { shardId := ⟨0, 0⟩, mode := .raftReconfig, targetReplicaCount := 1
          desiredMembers := [⟨0, 0, 0⟩], seqAllocator := 1 } := by
      cases hs
      decide +kernel
    have hforgotten : (MetaStoreTxn.start s.data).getReplicaObserved ⟨0, 0, 0⟩ = none := by
      cases hs
      decide +kernel
    intro hlisted
    obtain ⟨o, ho, -⟩ := (present_lists_itself_iff he hgroup rfl).mp hlisted
    rw [hforgotten] at ho
    cases ho

/-- The node then reports nothing: the group is in reconfiguration, and the instruction to create the replica
lists that replica. -/
theorem lost_voter_listed_again :
    ∃ s, Machine.Run MetaState.step {} s ∧
      ((MetaStoreTxn.start s.data).getReplicaGroup ⟨0, 0⟩).map ReplicaGroup.mode = some .raftReconfig ∧
      ∃ e ∈ presentInstructions (.start s.data) (onlyNodeReports []),
        e.replicaId ∈ e.initialMembers.map PeerMember.replicaId := by
  obtain ⟨s, hs⟩ : ∃ s, Machine.run MetaState.step
      (bringUp 1 ++ [.call (.heartbeat 1 (onlyNodeReports []))]) {} = some s := ⟨_, rfl⟩
  refine ⟨s, .of_run hs, ?_⟩
  cases hs
  exact ⟨by decide +kernel, by decide +kernel⟩

end AdvisKV.Meta
