import AdvisKV.Meta.Services

/-!
# AdvisKV — desired members, exactly

A desired member has a record that is not on its way out. The converse holds too: every such record is a
desired member, once. And no two members of a group are assigned to one node. Both are kept by every change
of members, the second one only because the new nodes are distinct and free.

Main results:

* `Exact` with `Exact.tidies`, `Exact.retireMembers`, `Exact.addMembers`.
* `Spread` with `Spread.of_members`, `Spread.addMembers`.
-/

namespace AdvisKV.Meta

open MetaStoreTxn

variable {d d' : DurableData} {t : MetaStoreTxn}

/-! ## Members and records -/

/-- **Exact agreement**: the desired members of a shard are its records that are not on their way out, each of
them once. -/
structure Exact (d : DurableData) : Prop extends Placed d where
  distinct : ∀ shard group, d.replicaGroups.get shard = some group → group.desiredMembers.Nodup
  complete : ∀ id, d.standing id = some false → ∃ group,
    d.replicaGroups.get (shardOf id) = some group ∧ id ∈ group.desiredMembers

/-- No groups, no records. -/
theorem exact_start : Exact {} where
  toPlaced := placed_start
  distinct := by
    intro shard group hgroup
    cases hgroup
  complete := by
    intro id hid
    cases hid

/-- Only the groups and the standing of records matter. -/
theorem Exact.congr (h : Exact d) (hgroups : d'.replicaGroups = d.replicaGroups)
    (hstanding : ∀ id, d'.standing id = d.standing id) : Exact d' where
  toPlaced := h.toPlaced.congr hgroups hstanding
  distinct := by
    rw [hgroups]
    exact h.distinct
  complete := by
    intro id hid
    rw [hstanding] at hid
    rw [hgroups]
    exact h.complete id hid

/-- Tidying takes away groups without members, and records on their way out. -/
theorem Exact.tidies (h : Exact d) (ht : Tidies d d') : Exact d' where
  toPlaced := h.toPlaced.tidies ht
  distinct := by
    intro shard group' hgroup'
    rcases ht.origin hgroup' with hempty | ⟨group, hget, hmembers, -⟩
    · rw [hempty]
      exact List.nodup_nil
    · rw [hmembers]
      exact h.distinct shard group hget
  complete := by
    intro id hid
    have hold : d.standing id = some false := by
      rcases ht.standing id with hsame | ⟨-, hnone⟩
      · rw [← hsame]
        exact hid
      · rw [hnone] at hid
        cases hid
    obtain ⟨group, hget, hmem⟩ := h.complete id hold
    rcases ht.kept _ group hget with ⟨g, hg, hmembers, -⟩ | ⟨-, hempty, -⟩
    · exact ⟨g, hg, hmembers ▸ hmem⟩
    · rw [hempty] at hmem
      cases hmem

/-! ## Retiring -/

variable {id : ReplicaID} {victims : List ReplicaID} {engine : EngineType} {nodes : List Node}

/-- The victims leave the list and the living records together. -/
theorem Exact.retireMembers (h : Exact t.durable) (now : Int) {group : ReplicaGroup}
    (hgroup : t.durable.replicaGroups.get group.shardId = some group)
    (hvictims : ∀ id ∈ victims, shardOf id = group.shardId) :
    Exact (retireMembers now t group victims).durable := by
  have hplaced := h.toPlaced.retireMembers now hgroup hvictims
  rcases retireMembers_spec now t group victims with hsame | hretires
  · rw [hsame]
    exact h
  have hgroups := hretires.groups
  refine ⟨hplaced, ?_, ?_⟩
  · intro shard g hg
    rw [hgroups] at hg
    split at hg
    · cases hg
      exact (h.distinct _ group hgroup).filter _
    · exact h.distinct shard g hg
  · intro id hid
    obtain ⟨hkept, hold⟩ := hretires.live hid
    obtain ⟨g, hg, hmem⟩ := h.complete id hold
    rw [hgroups]
    split
    · next hshard =>
      rw [← hshard, hgroup] at hg
      cases hg
      exact ⟨_, rfl, List.mem_filter.mpr ⟨hmem, by simpa using hkept⟩⟩
    · exact ⟨g, hg, hmem⟩

/-! ## Adding -/

/-- The ids `add_members` gives to its new replicas. -/
def newIds (shard : ShardID) (engine : EngineType) (seq : Int) (nodes : List Node) : List ReplicaID :=
  (newReplicas shard engine seq nodes).map fun p => p.1.replicaId

/-- **What is written** when members are added: nothing, or one group and one record for each node. -/
theorem addMembers_written (now : Int) (t : MetaStoreTxn) (shard : ShardID) (engine : EngineType)
    (nodes : List Node) :
    addMembers now t shard engine nodes = t ∨ ∃ group, t.getReplicaGroup shard = some group ∧
      (∀ s, (addMembers now t shard engine nodes).getReplicaGroup s =
        if shard = s then
          some { group with
            desiredMembers := group.desiredMembers ++ newIds shard engine group.seqAllocator nodes
            seqAllocator := group.seqAllocator + nodes.length }
        else t.getReplicaGroup s) ∧
      ∀ id, (addMembers now t shard engine nodes).getReplica id =
        (((newReplicas shard engine group.seqAllocator nodes).map Prod.fst).find? fun r =>
          r.replicaId = id).or (t.getReplica id) := by
  unfold addMembers
  rcases hget : t.getReplicaGroup shard with _ | group
  · exact Or.inl rfl
  have hshard : group.shardId = shard := Keyed.key_of_get hget
  dsimp only
  split
  · exact Or.inl rfl
  set fresh := newReplicas shard engine group.seqAllocator nodes with hfresh
  -- the observations are runtime data and touch no record
  have hdurable := (observeAll_spec now fresh (t.putReplicas (fresh.map Prod.fst))).1
  have hnodup : ((fresh.map Prod.fst).map Replica.replicaId).Nodup := by
    rw [List.map_map]
    exact newReplicas_nodup shard engine group.seqAllocator nodes
  refine Or.inr ⟨group, rfl, ?_, ?_⟩
  · intro s
    have hput := (Op.putReplicas (fresh.map Prod.fst)).getReplicaGroup_run t s
    refine (getReplicaGroup_putReplicaGroup _ _ s).trans ?_
    rw [hdurable]
    dsimp only
    rw [hshard]
    exact if_congr Iff.rfl rfl hput
  · intro id
    have hput := (Op.putReplicas (fresh.map Prod.fst)).getReplica_run t id (by
      intro replicas heq
      cases heq
      exact hnodup)
    refine Eq.trans ?_ hput
    show (List.foldl _ _ fresh : MetaStoreTxn).durable.replicas.get id = _
    rw [hdurable]
    rfl

/-- New ids are numbered from the counter on. -/
theorem mem_newIds {shard : ShardID} {seq : Int} (h : id ∈ newIds shard engine seq nodes) :
    shardOf id = shard ∧ seq ≤ id.replicaSeq := by
  obtain ⟨x, hx, rfl⟩ := List.mem_map.mp h
  obtain ⟨hshard, hle, -⟩ := mem_newReplicas hx
  exact ⟨hshard, hle⟩

/-- A record after adding members is a new one, or was there. -/
theorem getReplica_new (shard : ShardID) (engine : EngineType) (seq : Int) (nodes : List Node)
    (id : ReplicaID) :
    (id ∈ newIds shard engine seq nodes ∧ ∃ x ∈ newReplicas shard engine seq nodes, x.1.replicaId = id ∧
      ((newReplicas shard engine seq nodes).map Prod.fst).find? (fun r => r.replicaId = id) = some x.1) ∨
    (id ∉ newIds shard engine seq nodes ∧
      ((newReplicas shard engine seq nodes).map Prod.fst).find? (fun r => r.replicaId = id) = none) := by
  rcases hfind : ((newReplicas shard engine seq nodes).map Prod.fst).find? (fun r => r.replicaId = id)
    with _ | r
  · right
    refine ⟨fun hmem => ?_, hfind⟩
    obtain ⟨x, hx, hid⟩ := List.mem_map.mp hmem
    have hne := List.find?_eq_none.mp hfind x.1 (List.mem_map_of_mem hx)
    exact hne (by simpa using hid)
  · left
    obtain ⟨x, hx, rfl⟩ := List.mem_map.mp (List.mem_of_find?_eq_some hfind)
    have hid : x.1.replicaId = id := by simpa using List.find?_some hfind
    exact ⟨hid ▸ List.mem_map_of_mem hx, x, hx, hid, hfind⟩

/-- New members come with a record each. -/
theorem Exact.addMembers (h : Exact t.durable) (now : Int) (shard : ShardID) (engine : EngineType)
    (nodes : List Node) : Exact (addMembers now t shard engine nodes).durable := by
  have hplaced := h.toPlaced.addMembers now shard engine nodes
  rcases addMembers_written now t shard engine nodes with hsame | ⟨group, hgroup, hgroups, hrecords⟩
  · rw [hsame]
    exact h
  refine ⟨hplaced, ?_, ?_⟩
  · intro s g hg
    replace hg := (hgroups s).symm.trans hg
    split at hg
    · cases hg
      refine List.nodup_append.mpr ⟨h.distinct shard group hgroup, newReplicas_nodup _ _ _ _, ?_⟩
      -- the numbers of the members there lie below the new ones
      rintro id hid id' hid' rfl
      have hlt := (h.own shard group hgroup id hid).2
      have hle := (mem_newIds hid').2
      omega
    · exact h.distinct s g hg
  · intro id hid
    have hget : (Meta.addMembers now t shard engine nodes).durable.standing id =
        ((Meta.addMembers now t shard engine nodes).getReplica id).map fun r => r.state.phase.isAbsent := rfl
    rw [hget, hrecords id] at hid
    show ∃ g, (Meta.addMembers now t shard engine nodes).getReplicaGroup (shardOf id) = some g ∧ _
    rw [hgroups (shardOf id)]
    rcases getReplica_new shard engine group.seqAllocator nodes id with ⟨hnew, -⟩ | ⟨hold, hnone⟩
    · rw [if_pos (mem_newIds hnew).1.symm]
      exact ⟨_, rfl, List.mem_append_right _ hnew⟩
    · rw [hnone, Option.none_or] at hid
      obtain ⟨g, hg, hmem⟩ := h.complete id hid
      split
      · next hs =>
        have hg' : t.getReplicaGroup shard = some g := hs ▸ hg
        rw [hgroup] at hg'
        cases hg'
        exact ⟨_, rfl, List.mem_append_left _ hmem⟩
      · exact ⟨g, hg, hmem⟩

/-! ## Nodes -/

/-- The node a replica is assigned to, if it has a record. -/
def DurableData.nodeOf (d : DurableData) (id : ReplicaID) : Option NodeID :=
  (d.replicas.get id).map fun r => r.spec.assignNodeId

/-- **Anti-affinity**: the members of a group are on different nodes. -/
def Spread (d : DurableData) : Prop :=
  ∀ shard group, d.replicaGroups.get shard = some group → ∀ id ∈ group.desiredMembers,
    ∀ id' ∈ group.desiredMembers, d.nodeOf id = d.nodeOf id' → id = id'

theorem spread_start : Spread {} := by
  intro shard group hgroup
  cases hgroup

/-- Every record is assigned to a node. -/
def Housed (d : DurableData) : Prop := ∀ id, d.nodeOf id ≠ some []

theorem housed_start : Housed {} := by
  intro id hid
  cases hid

/-- Members that were members before, on the nodes they were on. -/
theorem Spread.of_members (h : Spread d)
    (hmembers : ∀ shard group', d'.replicaGroups.get shard = some group' → ∀ id ∈ group'.desiredMembers,
      d'.nodeOf id = d.nodeOf id ∧ ∃ group, d.replicaGroups.get shard = some group ∧
        id ∈ group.desiredMembers) : Spread d' := by
  intro shard group' hgroup' id hid id' hid' hnode
  obtain ⟨hsame, group, hgroup, hmem⟩ := hmembers shard group' hgroup' id hid
  obtain ⟨hsame', g, hg, hmem'⟩ := hmembers shard group' hgroup' id' hid'
  rw [hgroup] at hg
  cases hg
  rw [hsame, hsame'] at hnode
  exact h shard group hgroup id hmem id' hmem' hnode

/-- A record that stays keeps its node. -/
theorem Since.nodeOf {t₀ : MetaStoreTxn} {omitted : ReplicaID → Prop} (h : Since t₀ omitted t)
    (hold : t₀.durable.standing id ≠ none) (hnew : t.durable.standing id ≠ none) :
    t.durable.nodeOf id = t₀.durable.nodeOf id := by
  rcases hget : t₀.getReplica id with _ | r₀
  · unfold getReplica at hget
    simp [DurableData.standing, hget] at hold
  rcases h.records id r₀ hget with ⟨r, hr, hspec, -⟩ | ⟨hnone, -⟩
  · unfold getReplica at hget hr
    simp [DurableData.nodeOf, hget, hr, hspec]
  · unfold getReplica at hnone
    simp [DurableData.standing, hnone] at hnew

/-- One new record for each node. -/
theorem newReplicas_nodes (shard : ShardID) (engine : EngineType) (seq : Int) (nodes : List Node) :
    ((newReplicas shard engine seq nodes).map fun p => p.1.spec.assignNodeId) = nodes.map Node.id := by
  unfold newReplicas
  rw [List.map_map, ← List.zipIdx_map_fst 0 nodes, List.map_map]
  simp

/-- **Adding members** on distinct nodes that no member is on. -/
theorem Spread.addMembers (h : Spread t.durable) (hexact : Exact t.durable) (now : Int) {shard : ShardID}
    (hnodes : (nodes.map Node.id).Nodup)
    (hfree : ∀ group, t.getReplicaGroup shard = some group → ∀ id ∈ group.desiredMembers, ∀ n ∈ nodes,
      t.durable.nodeOf id ≠ some n.id) : Spread (addMembers now t shard engine nodes).durable := by
  rcases addMembers_written now t shard engine nodes with hsame | ⟨group, hgroup, hgroups, hrecords⟩
  · rw [hsame]
    exact h
  have hnode : ∀ id, (Meta.addMembers now t shard engine nodes).durable.nodeOf id =
      ((((newReplicas shard engine group.seqAllocator nodes).map Prod.fst).find? fun r =>
        r.replicaId = id).or (t.getReplica id)).map fun r => r.spec.assignNodeId :=
    fun id => congrArg (Option.map fun r : Replica => r.spec.assignNodeId) (hrecords id)
  -- a member from before is on its node, a new one on one of the new nodes
  have hmember : ∀ s g, t.getReplicaGroup s = some g → ∀ id ∈ g.desiredMembers,
      (Meta.addMembers now t shard engine nodes).durable.nodeOf id = t.durable.nodeOf id := by
    intro s g hg id hid
    rw [hnode]
    rcases getReplica_new shard engine group.seqAllocator nodes id with ⟨hnew, -⟩ | ⟨-, hnone⟩
    · obtain ⟨hs, hlt⟩ := hexact.own s g hg id hid
      obtain ⟨hs', hle⟩ := mem_newIds hnew
      rw [hs] at hs'
      subst hs'
      rw [hgroup] at hg
      cases hg
      omega
    · rw [hnone, Option.none_or]
      rfl
  have hfresh : ∀ id ∈ newIds shard engine group.seqAllocator nodes,
      ∃ x ∈ newReplicas shard engine group.seqAllocator nodes, x.1.replicaId = id ∧
        (Meta.addMembers now t shard engine nodes).durable.nodeOf id = some x.1.spec.assignNodeId := by
    intro id hid
    rcases getReplica_new shard engine group.seqAllocator nodes id with
      ⟨-, x, hx, hxid, hfind⟩ | ⟨hold, -⟩
    · refine ⟨x, hx, hxid, ?_⟩
      rw [hnode, hfind]
      rfl
    · exact absurd hid hold
  have happart : ∀ id ∈ group.desiredMembers, ∀ id' ∈ newIds shard engine group.seqAllocator nodes,
      (Meta.addMembers now t shard engine nodes).durable.nodeOf id ≠
        (Meta.addMembers now t shard engine nodes).durable.nodeOf id' := by
    intro id hid id' hid' heq
    obtain ⟨x, hx, -, hassigned⟩ := hfresh id' hid'
    have hmem : x.1.spec.assignNodeId ∈ nodes.map Node.id := by
      rw [← newReplicas_nodes shard engine group.seqAllocator nodes]
      exact List.mem_map_of_mem hx
    obtain ⟨n, hn, hnode'⟩ := List.mem_map.mp hmem
    rw [hmember shard group hgroup id hid, hassigned, ← hnode'] at heq
    exact hfree group hgroup id hid n hn heq
  intro s g hg id hid id' hid' heq
  replace hg := (hgroups s).symm.trans hg
  split at hg
  · cases hg
    rcases List.mem_append.mp hid with hold | hnew
    · rcases List.mem_append.mp hid' with hold' | hnew'
      · rw [hmember shard group hgroup id hold, hmember shard group hgroup id' hold'] at heq
        exact h shard group hgroup id hold id' hold' heq
      · exact absurd heq (happart id hold id' hnew')
    · rcases List.mem_append.mp hid' with hold' | hnew'
      · exact absurd heq.symm (happart id' hold' id hnew)
      · -- two new records on one node are the same
        obtain ⟨x, hx, rfl, hassigned⟩ := hfresh id hnew
        obtain ⟨x', hx', rfl, hassigned'⟩ := hfresh id' hnew'
        rw [hassigned, hassigned'] at heq
        have hnodup := newReplicas_nodes shard engine group.seqAllocator nodes ▸ hnodes
        rw [List.inj_on_of_nodup_map hnodup hx hx' (Option.some.inj heq)]
  · rw [hmember s g hg id hid, hmember s g hg id' hid'] at heq
    exact h s g hg id hid id' hid' heq

/-- A new record is assigned to a node with a name. -/
theorem Housed.addMembers (h : Housed t.durable) (now : Int) (shard : ShardID) (engine : EngineType)
    (hnodes : ∀ n ∈ nodes, n.id ≠ []) :
    Housed (addMembers now t shard engine nodes).durable := by
  rcases addMembers_written now t shard engine nodes with hsame | ⟨group, -, -, hrecords⟩
  · rw [hsame]
    exact h
  intro id hid
  obtain ⟨r, hr, hnode⟩ := Option.map_eq_some_iff.mp hid
  replace hr := (hrecords id).symm.trans hr
  rcases getReplica_new shard engine group.seqAllocator nodes id with ⟨-, x, hx, -, hfind⟩ | ⟨-, hnone⟩
  · rw [hfind, Option.some_or, Option.some.injEq] at hr
    subst hr
    have hmem : x.1.spec.assignNodeId ∈ nodes.map Node.id := by
      rw [← newReplicas_nodes shard engine group.seqAllocator nodes]
      exact List.mem_map_of_mem hx
    obtain ⟨n, hn, hid'⟩ := List.mem_map.mp hmem
    exact hnodes n hn (hid'.trans hnode)
  · rw [hnone, Option.none_or] at hr
    exact h id (Option.map_eq_some_iff.mpr ⟨r, hr, hnode⟩)

end AdvisKV.Meta
