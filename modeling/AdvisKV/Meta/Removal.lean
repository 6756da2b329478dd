import AdvisKV.Meta.Tasks

/-!
# AdvisKV — which member is to be removed

The last part of the answer to a heartbeat is for leaders. For every group that Raft reconfigures and that the
node leads, `append_reconfig_command_for_leader` asks for one change: first the addition of a member that is
ready and no member yet, and otherwise, when there are enough healthy voters, the removal of a victim. The
victim is counted among these voters, and learners come no earlier in the order of victims than voters do: a
voter may have to go while an older learner stays, and too few voters remain.

Main results:

* `selectSingleRemoveVictim_spec` — the victim comes first in the order.
* `mem_removals` — when a removal is asked for.
* `removal_keeps_voters_iff` — exactly when it leaves enough healthy voters.
-/

namespace AdvisKV.Meta

/-! ## The answer to a heartbeat -/

/-- The ABSENT instruction for a reported replica, if there is one. -/
def absentInstruction (t : MetaStoreTxn) (info : HeartBeatReplicaInfo) : Option ExpectedReplica :=
  match t.getReplicaGroup (shardOf info.replicaId) with
  | some group =>
    if info.replicaId ∈ group.desiredMembers then none
    else some { replicaId := info.replicaId, type := .absent }
  | none =>
    -- a table is saved before its groups: until they exist its replicas are left alone
    if (t.getTable info.replicaId.tableId).any fun table => !table.state.phase.isAbsent then none
    else some { replicaId := info.replicaId, type := .absent }

/-- What `append_reconfig_command_for_leader` gathers about a group. -/
structure LeaderScan where
  nodeIsLeader : Bool := false
  healthyVoterCount : Nat := 0
  addTarget : Option ReplicaID := none
deriving DecidableEq, Repr

/-- The body of the loop over the desired members. -/
def scanMember (t : MetaStoreTxn) (p : HeartBeatParam) (scan : LeaderScan) (id : ReplicaID) : LeaderScan :=
  match t.getReplica id with
  | none => scan
  | some replica =>
    let observed := (t.getReplicaObserved id).getD {}
    { nodeIsLeader := scan.nodeIsLeader ||
        (replica.spec.assignNodeId == p.nodeId && observed.raftRole == .leader)
      healthyVoterCount := scan.healthyVoterCount +
        if replica.isHealthy = true ∧ observed.memberType = .voter then 1 else 0
      addTarget :=
        if scan.addTarget = none ∧ replica.state.phase = .ready ∧ observed.memberType = .nonMember then
          some id
        else scan.addTarget }

/-- The body of the loop over the groups: at most one instruction. -/
def reconfigCommand (t : MetaStoreTxn) (p : HeartBeatParam) (group : ReplicaGroup) :
    Option ExpectedReplica :=
  if group.mode ≠ .raftReconfig ∨ group.targetReplicaCount ≤ 0 then none
  else
    let scan := group.desiredMembers.foldl (scanMember t p) {}
    if !scan.nodeIsLeader then none
    else
      let victim := selectSingleRemoveVictim t group
      match if scan.addTarget = victim then none else scan.addTarget with
      | some target => some
          { replicaId := target
            type := .addMember
            initialMembers := buildShardMembers t group.shardId false }
      | none =>
        if (scan.healthyVoterCount : Int) < group.targetReplicaCount then none
        else victim.map fun id => { replicaId := id, type := .removeMember }

/-- `append_reconfig_command_for_leader`. -/
def appendReconfigCommandForLeader (t : MetaStoreTxn) (p : HeartBeatParam) : List ExpectedReplica :=
  t.durable.replicaGroups.entries.filterMap (reconfigCommand t p)

/-- `build_heartbeat_result`. -/
def buildHeartbeatResult (t : MetaStoreTxn) (p : HeartBeatParam) : Except Status (List ExpectedReplica) :=
  if p.validate.fail then .error p.validate
  else if t.listReplicasByNode p.nodeId = [] ∧ p.replicaList ≠ [] ∧ t.durable.tables.entries = [] ∧
      t.durable.replicaGroups.entries = [] then
    .error ⟨.conditionNotMet, "meta is empty but storage reports replicas; refusing destructive cleanup"⟩
  else .ok (presentInstructions t p ++ p.replicaList.filterMap (absentInstruction t) ++
    appendReconfigCommandForLeader t p)

/-! ## The order of victims -/

/-- The place of a desired member in the order of victims. -/
def victimRank (t : MetaStoreTxn) (id : ReplicaID) : Nat × ReplicaID :=
  (removeVictimClass (t.getReplica id) (t.getReplicaObserved id), id)

instance victimBefore_total : Std.Total fun a b => victimBefore a b = true := ⟨by
  intro a b
  simp only [victimBefore]
  split_ifs <;> simp only [decide_eq_true_eq] <;> omega⟩

instance victimBefore_trans : IsTrans (Nat × ReplicaID) fun a b => victimBefore a b = true := ⟨by
  intro a b c hab hbc
  simp only [victimBefore] at hab hbc ⊢
  split_ifs at hab hbc ⊢ <;> simp only [decide_eq_true_eq] at hab hbc ⊢ <;> omega⟩

/-- Two members that come before each other have one number. -/
theorem victimBefore_antisymm {a b : Nat × ReplicaID} (hab : victimBefore a b = true)
    (hba : victimBefore b a = true) : a.2.replicaSeq = b.2.replicaSeq := by
  simp only [victimBefore] at hab hba
  split_ifs at hab hba <;> simp only [decide_eq_true_eq] at hab hba <;> omega

/-- The head of a sorted list is in the list and comes before all of it. -/
theorem head?_insertionSort_spec {α : Type*} {r : α → α → Prop} [DecidableRel r] [Std.Total r] [IsTrans α r]
    {l : List α} {a : α} (h : (l.insertionSort r).head? = some a) : a ∈ l ∧ ∀ x ∈ l, r a x := by
  obtain ⟨rest, hsorted⟩ := List.head?_eq_some_iff.mp h
  have hpair := List.pairwise_insertionSort r l
  rw [hsorted, List.pairwise_cons] at hpair
  have hmem : ∀ x, x ∈ l ↔ x = a ∨ x ∈ rest := by
    intro x
    rw [← List.mem_insertionSort r, hsorted, List.mem_cons]
  refine ⟨(hmem a).mpr (Or.inl rfl), fun x hx => ?_⟩
  rcases (hmem x).mp hx with rfl | hrest
  · exact (Std.Total.total x x).elim id id
  · exact hpair.1 x hrest

variable {t : MetaStoreTxn} {group : ReplicaGroup} {victim id : ReplicaID} {p : HeartBeatParam}
  {e : ExpectedReplica}

/-- **The victim** is a desired member that no other one comes before. As long as the group has no more members
than it should, only members of class 0 are considered. -/
theorem selectSingleRemoveVictim_spec (h : selectSingleRemoveVictim t group = some victim) :
    victim ∈ group.desiredMembers ∧
      ((victimRank t victim).1 = 0 ∨ ∀ id ∈ group.desiredMembers,
        victimBefore (victimRank t victim) (victimRank t id) = true) := by
  unfold selectSingleRemoveVictim selectRemoveMemberVictims at h
  split at h
  · cases h
  rw [List.head?_map, List.head?_take, if_neg (by decide), Option.map_eq_some_iff] at h
  obtain ⟨⟨rank, id⟩, hhead, rfl⟩ := h
  obtain ⟨hmem, hfirst⟩ := head?_insertionSort_spec hhead
  split at hmem
  · obtain ⟨hmap, hzero⟩ := List.mem_filter.mp hmem
    obtain ⟨id', hid', heq⟩ := List.mem_map.mp hmap
    cases heq
    exact ⟨hid', Or.inl (of_decide_eq_true hzero)⟩
  · next hlarge =>
    rw [if_neg hlarge] at hfirst
    obtain ⟨id', hid', heq⟩ := List.mem_map.mp hmem
    cases heq
    exact ⟨hid', Or.inr fun m hm => hfirst _ (List.mem_map_of_mem hm)⟩

/-! ## Healthy voters -/

/-- A replica whose record is healthy and that was last observed as a voter. -/
def healthyVoter (t : MetaStoreTxn) (id : ReplicaID) : Bool :=
  (t.getReplica id).any Replica.isHealthy && (t.getReplicaObserved id).any fun o => o.memberType = .voter

/-- The desired members that are healthy voters. -/
def healthyVoters (t : MetaStoreTxn) (group : ReplicaGroup) : Finset ReplicaID :=
  group.desiredMembers.toFinset.filter fun id => healthyVoter t id = true

theorem mem_healthyVoters :
    id ∈ healthyVoters t group ↔ id ∈ group.desiredMembers ∧ healthyVoter t id = true := by
  simp [healthyVoters]

/-- Both the record and the observation must say so. -/
theorem healthyVoter_iff :
    healthyVoter t id = true ↔ ∃ replica observed, t.getReplica id = some replica ∧
      t.getReplicaObserved id = some observed ∧ replica.isHealthy = true ∧ observed.memberType = .voter := by
  rcases hreplica : t.getReplica id with _ | replica
  · simp [healthyVoter, hreplica]
  · rcases hobserved : t.getReplicaObserved id with _ | observed
    · simp [healthyVoter, hobserved]
    · simp [healthyVoter, hreplica, hobserved]

/-- A healthy voter is neither bad nor outside the group. -/
theorem two_le_victimRank (h : healthyVoter t id = true) :
    2 ≤ (victimRank t id).1 := by
  obtain ⟨replica, observed, hreplica, hobserved, hhealthy, hvoter⟩ := healthyVoter_iff.mp h
  have hbad : ¬ (replica.state.phase = .lost ∨ replica.state.phase = .error) := by
    simp only [Replica.isHealthy, Bool.and_eq_true, bne_iff_ne] at hhealthy
    tauto
  simp only [victimRank, removeVictimClass, hreplica, hobserved, if_neg hbad, Option.map_some,
    Option.getD_some, hvoter, reduceCtorEq, if_false]
  split
  · exact Nat.le_succ 2
  · exact le_rfl

/-! ## Removals -/

/-- A removal that a leader is told of names the victim the selector picks. -/
theorem reconfigCommand_removes (h : reconfigCommand t p group = some e) (htype : e.type = .removeMember) :
    selectSingleRemoveVictim t group = some e.replicaId := by
  unfold reconfigCommand at h
  split at h
  · cases h
  dsimp only at h
  split at h
  · cases h
  split at h
  · cases h
    cases htype
  split at h
  · cases h
  · obtain ⟨victim, hvictim, rfl⟩ := Option.map_eq_some_iff.mp h
    exact hvictim

theorem absentInstruction_type {info : HeartBeatReplicaInfo} (h : absentInstruction t info = some e) :
    e.type = .absent := by
  unfold absentInstruction at h
  split at h <;> split at h <;> cases h <;> rfl

theorem presentInstruction_type {r : Replica} (h : presentInstruction t p r = some e) :
    e.type = .present := by
  unfold presentInstruction at h
  split at h
  · cases h
  split at h
  · cases h
  split at h <;> cases h
  rfl

/-- **A removal** in the answer comes from a group, whose victim it names. -/
theorem mem_removals {expects : List ExpectedReplica} (hresult : buildHeartbeatResult t p = .ok expects)
    (he : e ∈ expects) (htype : e.type = .removeMember) :
    ∃ shard group, t.getReplicaGroup shard = some group ∧
      selectSingleRemoveVictim t group = some e.replicaId := by
  unfold buildHeartbeatResult at hresult
  split at hresult
  · cases hresult
  split at hresult <;> cases hresult
  rcases List.mem_append.mp he with he | he
  · -- the other two parts of the answer have other types
    exfalso
    rcases List.mem_append.mp he with he | he
    · obtain ⟨r, -, hr⟩ := List.mem_filterMap.mp he
      rw [presentInstruction_type hr] at htype
      cases htype
    · obtain ⟨info, -, hinfo⟩ := List.mem_filterMap.mp he
      rw [absentInstruction_type hinfo] at htype
      cases htype
  · obtain ⟨group, hgroup, hcommand⟩ := List.mem_filterMap.mp he
    exact ⟨group.shardId, group, Keyed.get_eq_some_iff.mpr ⟨hgroup, rfl⟩,
      reconfigCommand_removes hcommand htype⟩

/-- Enough healthy voters stay when the victim goes, or the victim is none. -/
def KeepsVoters (t : MetaStoreTxn) (group : ReplicaGroup) (victim : ReplicaID) : Prop :=
  group.targetReplicaCount ≤ ((healthyVoters t group).erase victim).card ∨ healthyVoter t victim = false

instance (t : MetaStoreTxn) (group : ReplicaGroup) (victim : ReplicaID) :
    Decidable (KeepsVoters t group victim) := inferInstanceAs (Decidable (_ ∨ _))

/-- Some member that is no healthy voter comes before all that are. -/
def OtherFirst (t : MetaStoreTxn) (group : ReplicaGroup) : Prop :=
  ∃ m ∈ group.desiredMembers, healthyVoter t m = false ∧
    ∀ v ∈ healthyVoters t group, victimBefore (victimRank t m) (victimRank t v) = true

theorem eq_of_shardOf_eq {a b : ReplicaID} (hshard : shardOf a = shardOf b)
    (hseq : a.replicaSeq = b.replicaSeq) : a = b := by
  cases a
  cases b
  simp_all [shardOf]

/-- The victim is no healthy voter exactly when such a member comes first. -/
theorem victim_other_iff (hown : ∀ id ∈ group.desiredMembers, shardOf id = group.shardId)
    (hvictim : selectSingleRemoveVictim t group = some victim) :
    healthyVoter t victim = false ↔ OtherFirst t group := by
  obtain ⟨hmem, hfirst⟩ := selectSingleRemoveVictim_spec hvictim
  constructor
  · intro hother
    refine ⟨victim, hmem, hother, fun v hv => ?_⟩
    obtain ⟨hv, hvoter⟩ := mem_healthyVoters.mp hv
    rcases hfirst with hzero | hfirst
    · have hclass := two_le_victimRank hvoter
      simp only [victimBefore, hzero]
      rw [if_pos (by omega), decide_eq_true_eq]
      omega
    · exact hfirst v hv
  · rintro ⟨m, hm, hother, hbefore⟩
    by_contra hvoter
    have hvoter : healthyVoter t victim = true := by simpa using hvoter
    have hclass := two_le_victimRank hvoter
    have hafter := (hfirst.resolve_left (by omega)) m hm
    -- members of one shard with one number are one member
    have hseq := victimBefore_antisymm (hbefore victim (mem_healthyVoters.mpr ⟨hmem, hvoter⟩)) hafter
    have heq : m = victim := eq_of_shardOf_eq ((hown m hm).trans (hown victim hmem).symm) hseq
    rw [heq, hvoter] at hother
    cases hother

/-- **Removals.** A removal keeps enough healthy voters exactly when there is one more of them than needed, or
a member that is none of them has to go first. -/
theorem removal_keeps_voters_iff {t : MetaStoreTxn} {p : HeartBeatParam} {expects : List ExpectedReplica}
    {e : ExpectedReplica} {group : ReplicaGroup}
    (hown : ∀ shard group, t.getReplicaGroup shard = some group →
      ∀ id ∈ group.desiredMembers, shardOf id = shard)
    (hresult : buildHeartbeatResult t p = .ok expects) (he : e ∈ expects) (htype : e.type = .removeMember)
    (hgroup : t.getReplicaGroup (shardOf e.replicaId) = some group) :
    KeepsVoters t group e.replicaId ↔
      group.targetReplicaCount < (healthyVoters t group).card ∨ OtherFirst t group := by
  have hkey : group.shardId = shardOf e.replicaId := Keyed.key_of_get hgroup
  have hmembers : ∀ id ∈ group.desiredMembers, shardOf id = group.shardId := by
    rw [hkey]
    exact hown _ _ hgroup
  have hvictim : selectSingleRemoveVictim t group = some e.replicaId := by
    obtain ⟨shard, group', hgroup', hvictim⟩ := mem_removals hresult he htype
    rw [← hown _ _ hgroup' _ (selectSingleRemoveVictim_spec hvictim).1, hgroup] at hgroup'
    cases hgroup'
    exact hvictim
  rw [KeepsVoters, victim_other_iff hmembers hvictim]
  by_cases hother : OtherFirst t group
  · exact iff_of_true (Or.inr hother) (Or.inr hother)
  · -- the victim is one of the healthy voters
    have hvoter : healthyVoter t e.replicaId = true := by
      simpa [← victim_other_iff hmembers hvictim] using hother
    have hin : e.replicaId ∈ healthyVoters t group :=
      mem_healthyVoters.mpr ⟨(selectSingleRemoveVictim_spec hvictim).1, hvoter⟩
    have hcard := Finset.card_erase_add_one hin
    simp only [hother, or_false]
    omega

/-! ## A learner older than a voter -/

/-- Node `n`, and its heartbeat with one replica. -/
def numberedNode (n : UInt8) : RegisterNodeParam :=
  { nodeId := [n], ip := [n], port := 1, resourcePool := [1], dc := [1] }

def nodeReports (n : UInt8) (info : HeartBeatReplicaInfo) : HeartBeatParam :=
  { nodeId := [n], ip := [n], port := 1, resourcePoolName := [1], dc := [1], replicaList := [info] }

/-- Replica `seq` of shard 0 of table 0 as a ready follower. -/
def readyFollower (seq : Int) : HeartBeatReplicaInfo :=
  { replicaId := ⟨0, 0, seq⟩, storageStatus := .ready, term := 1 }

/-- Replica 0 as the leader of a group of these members. -/
def leaderOf (members : List (Int × RaftMemberType)) : HeartBeatReplicaInfo :=
  { replicaId := ⟨0, 0, 0⟩, role := .leader, storageStatus := .ready, term := 1
    fullMembership := members.map fun m => { peer := { replicaId := ⟨0, 0, m.1⟩ }, memberType := m.2 } }

/-- A table of two replicas, on nodes 1 and 2. Node 2 goes offline and replica 2 is placed on node 3; node 3
goes offline and replica 3 is placed on node 4; node 3 comes back. Raft gives the two new replicas these types
and removes replica 1, which is then no longer desired. -/
def replacedTwice (second third : RaftMemberType) : List MetaAction :=
  calls [.registerNode 0 (numberedNode 1), .registerNode 0 (numberedNode 2),
    .registerNode 0 (numberedNode 3), .registerNode 0 (numberedNode 4)] ++
  createWith { oneReplicaTable with replicaCount := 2 } ++ grow 0 ++
  calls [.heartbeat 0 (nodeReports 1 (leaderOf [(0, .voter), (1, .voter)])),
    .heartbeat 0 (nodeReports 2 (readyFollower 1)), .phases 0] ++ settle 0 ++
  calls [.checkNodes 0 100000 [[2]], .phases 100000] ++ grow 100000 ++
  calls [.heartbeat 100000 (nodeReports 3 (readyFollower 2)), .phases 100000,
    .checkNodes 0 200000 [[3]], .phases 200000] ++ grow 200000 ++
  calls [.heartbeat 200000 (nodeReports 4 (readyFollower 3)),
    .heartbeat 200000 (nodeReports 3 (readyFollower 2)), .checkNodes 0 200000 [[3]], .phases 200000,
    .phases 200000,
    .heartbeat 200000 (nodeReports 1 (leaderOf [(0, .voter), (2, second), (3, third)]))] ++ settle 200000

/-- The group both runs end with. -/
def replacedGroup : ReplicaGroup :=
  { shardId := ⟨0, 0⟩, mode := .raftReconfig, targetReplicaCount := 2
    desiredMembers := [⟨0, 0, 0⟩, ⟨0, 0, 2⟩, ⟨0, 0, 3⟩], seqAllocator := 4 }

/-- Replica 3 is still a learner: it is the victim, and two healthy voters stay. -/
theorem learner_removed_first :
    ∃ s, Machine.Run MetaState.step {} s ∧ ∃ expects,
      buildHeartbeatResult s.txn (nodeReports 1 (leaderOf [])) = .ok expects ∧
      { replicaId := ⟨0, 0, 3⟩, type := .removeMember } ∈ expects ∧
      KeepsVoters s.txn replacedGroup ⟨0, 0, 3⟩ := by
  obtain ⟨s, hs⟩ : ∃ s, Machine.run MetaState.step (replacedTwice .voter .learner) {} = some s := ⟨_, rfl⟩
  have hrun : Machine.Run MetaState.step {} s := .of_run hs
  have hwhole : s.Whole :=
    hrun.invariant (fun _ _ _ hs _ h => MetaState.step_whole hs h) MetaState.whole_start
  have hown : ∀ shard group, s.txn.getReplicaGroup shard = some group →
      ∀ id ∈ group.desiredMembers, shardOf id = shard :=
    fun shard group hgroup id hid => (hwhole.exact.own shard group hgroup id hid).1
  obtain ⟨expects, hresult⟩ : ∃ expects,
      buildHeartbeatResult s.txn (nodeReports 1 (leaderOf [])) = .ok expects := by
    cases hs
    exact ⟨_, rfl⟩
  have hmem : { replicaId := ⟨0, 0, 3⟩, type := .removeMember } ∈ expects := by
    cases hs
    cases hresult
    decide +kernel
  have hgroup : s.txn.getReplicaGroup ⟨0, 0⟩ = some replacedGroup := by
    cases hs
    decide +kernel
  have hother : OtherFirst s.txn replacedGroup := by
    cases hs
    exact ⟨⟨0, 0, 3⟩, by decide +kernel⟩
  exact ⟨s, hrun, expects, hresult, hmem,
    (removal_keeps_voters_iff hown hresult hmem rfl hgroup).mpr (Or.inr hother)⟩

/-- Replica 2 is still a learner, and replica 3 a voter: replica 3 is the victim, and only the leader stays of
the two voters the group should have. -/
theorem voter_removed_before_learner :
    ∃ s, Machine.Run MetaState.step {} s ∧ ∃ expects,
      buildHeartbeatResult s.txn (nodeReports 1 (leaderOf [])) = .ok expects ∧
      { replicaId := ⟨0, 0, 3⟩, type := .removeMember } ∈ expects ∧
      s.txn.getReplicaGroup ⟨0, 0⟩ = some replacedGroup ∧
      ¬ KeepsVoters s.txn replacedGroup ⟨0, 0, 3⟩ := by
  obtain ⟨s, hs⟩ : ∃ s, Machine.run MetaState.step (replacedTwice .learner .voter) {} = some s := ⟨_, rfl⟩
  refine ⟨s, .of_run hs, ?_⟩
  cases hs
  exact ⟨_, rfl, by decide +kernel, by decide +kernel, by decide +kernel⟩

end AdvisKV.Meta
