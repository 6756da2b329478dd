import AdvisKV.Meta.Instructions

/-!
# AdvisKV — where desired members stand

Whether a replica is wanted is kept twice: in the desired members of its group and in the phase of its own
record. The two agree: a desired member has a record that is not on its way out, and its number lies below the
counter of its group, so a new member never takes the place of an old one. Here are the two transactions that
change members; each keeps the agreement.

Main results:

* `retireMembers_spec`, `addMembers_spec` — what a change of members writes.
* `Placed.retireMembers`, `Placed.addMembers` — the agreement is kept.
-/

namespace AdvisKV.Meta

/-! ## Views -/

/-- Whether the record of a replica is on its way out, if there is a record. -/
def DurableData.standing (d : DurableData) (id : ReplicaID) : Option Bool :=
  (d.replicas.get id).map fun r => r.state.phase.isAbsent

/-- The type Meta has observed for a replica, if it has an observation. -/
def MetaStoreTxn.observedType (t : MetaStoreTxn) (id : ReplicaID) : Option RaftMemberType :=
  (t.getReplicaObserved id).map ReplicaObserved.memberType

/-- The tables and the counter of their ids, which no transaction on groups touches. -/
def DurableData.catalog (d : DurableData) : Keyed Table.tableId × Int := (d.tables, d.tableIdAllocator)

/-- **Agreement** of groups and records. -/
structure Placed (d : DurableData) : Prop where
  own : ∀ shard group, d.replicaGroups.get shard = some group → ∀ id ∈ group.desiredMembers,
    shardOf id = shard ∧ id.replicaSeq < group.seqAllocator
  live : ∀ shard group, d.replicaGroups.get shard = some group → ∀ id ∈ group.desiredMembers,
    d.standing id = some false
  numbered : ∀ id, d.standing id ≠ none → ∃ group, d.replicaGroups.get (shardOf id) = some group ∧
    id.replicaSeq < group.seqAllocator

/-- An empty store. -/
theorem placed_start : Placed {} where
  own := by
    intro shard group hgroup
    cases hgroup
  live := by
    intro shard group hgroup
    cases hgroup
  numbered := by
    intro id hid
    exact absurd rfl hid

/-- The same groups over records that stand as before. -/
theorem Placed.congr {d d' : DurableData} (h : Placed d) (hgroups : d'.replicaGroups = d.replicaGroups)
    (hstanding : ∀ id, d'.standing id = d.standing id) : Placed d' where
  own := by
    rw [hgroups]
    exact h.own
  live := by
    intro shard group hgroup id hid
    rw [hgroups] at hgroup
    rw [hstanding]
    exact h.live shard group hgroup id hid
  numbered := by
    intro id hid
    rw [hstanding] at hid
    rw [hgroups]
    exact h.numbered id hid

variable {t : MetaStoreTxn}

/-! ## Writing one record -/

theorem getReplicaGroup_putReplicaGroup (t : MetaStoreTxn) (group : ReplicaGroup) (shard : ShardID) :
    (t.putReplicaGroup group).durable.replicaGroups.get shard =
      if group.shardId = shard then some group else t.durable.replicaGroups.get shard :=
  Keyed.get_put _ _ _

theorem standing_putReplica (t : MetaStoreTxn) (r : Replica) (id : ReplicaID) :
    (t.putReplica r).durable.standing id =
      if r.replicaId = id then some r.state.phase.isAbsent else t.durable.standing id := by
  show ((t.durable.replicas.put r).get id).map _ = _
  rw [Keyed.get_put]
  split
  · rfl
  · rfl

/-- Deleting a record that is not there is no change either. -/
theorem standing_deleteReplica (t : MetaStoreTxn) (id id' : ReplicaID) :
    (t.deleteReplica id).durable.standing id' = if id = id' then none else t.durable.standing id' := by
  unfold MetaStoreTxn.deleteReplica
  -- the store returns early without a record
  by_cases hnone : (t.getReplica id).isNone = true
  · rw [if_pos hnone]
    show t.durable.standing id' = _
    split
    · next heq =>
      subst heq
      have hget : t.durable.replicas.get id = none := Option.isNone_iff_eq_none.mp hnone
      simp [DurableData.standing, hget]
    · rfl
  · rw [if_neg hnone]
    show ((t.durable.replicas.erase id).get id').map _ = _
    rw [Keyed.get_erase]
    split
    · rfl
    · rfl

theorem replicaGroups_deleteReplica (t : MetaStoreTxn) (id : ReplicaID) :
    (t.deleteReplica id).durable.replicaGroups = t.durable.replicaGroups := by
  unfold MetaStoreTxn.deleteReplica
  split
  · rfl
  · rfl

/-! ## Retiring members -/

/-- The victims that have a record are on their way out, and no other record has changed. -/
structure Retires (victims : List ReplicaID) (t t' : MetaStoreTxn) : Prop where
  groups : t'.durable.replicaGroups = t.durable.replicaGroups
  catalog : t'.durable.catalog = t.durable.catalog
  runtime : t'.runtime = t.runtime
  standing : ∀ id, t'.durable.standing id =
    if id ∈ victims then (t.durable.standing id).map fun _ => true else t.durable.standing id

theorem retireReplica_spec (now : Int) (t : MetaStoreTxn) (victim : ReplicaID) :
    Retires [victim] t (retireReplica now t victim) := by
  have hstanding : t.durable.standing victim =
      (t.getReplica victim).map fun r => r.state.phase.isAbsent := rfl
  -- one that has no record or is retired already is not written
  have hidle : t.durable.standing victim = (t.durable.standing victim).map (fun _ => true) →
      Retires [victim] t t := by
    intro hgone
    refine ⟨rfl, rfl, rfl, fun id => ?_⟩
    split
    · next hid =>
      rw [List.mem_singleton.mp hid]
      exact hgone
    · rfl
  unfold retireReplica
  rcases hget : t.getReplica victim with _ | r
  · rw [hget] at hstanding
    exact hidle (by rw [hstanding]; rfl)
  rw [hget, Option.map_some] at hstanding
  have hkey : r.replicaId = victim := Keyed.key_of_get hget
  dsimp only
  split
  · next habsent => exact hidle (by rw [hstanding, habsent]; rfl)
  · refine ⟨rfl, rfl, rfl, fun id => ?_⟩
    rw [standing_putReplica]
    by_cases hid : id = victim
    · rw [if_pos (hkey.trans hid.symm), if_pos (List.mem_singleton.mpr hid), hid, hstanding]
      rfl
    · rw [if_neg fun h => hid (h.symm.trans hkey), if_neg fun h => hid (List.mem_singleton.mp h)]

/-- The victims one after the other. -/
theorem retireAll_spec (now : Int) (victims : List ReplicaID) (t : MetaStoreTxn) :
    Retires victims t (victims.foldl (retireReplica now) t) := by
  induction victims generalizing t with
  | nil => exact ⟨rfl, rfl, rfl, fun _ => (if_neg List.not_mem_nil).symm⟩
  | cons victim victims ih =>
    have hfirst := retireReplica_spec now t victim
    have hrest := ih (retireReplica now t victim)
    refine ⟨hrest.groups.trans hfirst.groups, hrest.catalog.trans hfirst.catalog,
      hrest.runtime.trans hfirst.runtime, fun id => ?_⟩
    rw [List.foldl_cons, hrest.standing, hfirst.standing]
    by_cases hmem : id ∈ victims <;> by_cases hid : id = victim <;> simp [hmem, hid]

/-- **Retiring members**: the victims leave the group, and only their records change. -/
structure RetiresFrom (group : ReplicaGroup) (victims : List ReplicaID) (t t' : MetaStoreTxn) : Prop where
  groups : ∀ shard, t'.durable.replicaGroups.get shard =
    if group.shardId = shard then
      some { group with desiredMembers := group.desiredMembers.filter fun id => id ∉ victims }
    else t.durable.replicaGroups.get shard
  catalog : t'.durable.catalog = t.durable.catalog
  runtime : t'.runtime = t.runtime
  standing : ∀ id, t'.durable.standing id =
    if id ∈ victims then (t.durable.standing id).map fun _ => true else t.durable.standing id

section Retiring

variable {group : ReplicaGroup} {victims : List ReplicaID} {t' : MetaStoreTxn} {id : ReplicaID}

theorem RetiresFrom.other (h : RetiresFrom group victims t t') (hid : id ∉ victims) :
    t'.durable.standing id = t.durable.standing id := by
  rw [h.standing, if_neg hid]

/-- No record is lost, and none is made. -/
theorem RetiresFrom.known (h : RetiresFrom group victims t t') :
    t'.durable.standing id = none ↔ t.durable.standing id = none := by
  rw [h.standing]
  split
  · exact Option.map_eq_none_iff
  · exact Iff.rfl

/-- Whoever lives afterwards is no victim. -/
theorem RetiresFrom.live (h : RetiresFrom group victims t t') (hid : t'.durable.standing id = some false) :
    id ∉ victims ∧ t.durable.standing id = some false := by
  rw [h.standing] at hid
  split at hid
  · obtain ⟨_, -, htrue⟩ := Option.map_eq_some_iff.mp hid
    cases htrue
  · next hnot => exact ⟨hnot, hid⟩

theorem retireMembers_spec (now : Int) (t : MetaStoreTxn) (group : ReplicaGroup)
    (victims : List ReplicaID) : retireMembers now t group victims = t ∨
      RetiresFrom group victims t (retireMembers now t group victims) := by
  unfold retireMembers
  split
  · exact Or.inl rfl
  dsimp only
  split
  · exact Or.inl rfl
  · have hall := retireAll_spec now victims t
    refine Or.inr ⟨fun shard => ?_, hall.catalog, hall.runtime, hall.standing⟩
    rw [getReplicaGroup_putReplicaGroup, hall.groups]

end Retiring

/-- Retiring members of a group keeps the agreement when the victims are of its shard. -/
theorem Placed.retireMembers (h : Placed t.durable) (now : Int) {group : ReplicaGroup}
    (hgroup : t.durable.replicaGroups.get group.shardId = some group) {victims : List ReplicaID}
    (hvictims : ∀ id ∈ victims, shardOf id = group.shardId) :
    Placed (retireMembers now t group victims).durable := by
  rcases retireMembers_spec now t group victims with hsame | hretires
  · rw [hsame]
    exact h
  have hgroups := hretires.groups
  refine ⟨?_, ?_, ?_⟩
  · intro shard g hg id hid
    rw [hgroups] at hg
    split at hg
    · next hshard =>
      cases hg
      subst hshard
      exact h.own _ _ hgroup id (List.mem_filter.mp hid).1
    · exact h.own shard g hg id hid
  · intro shard g hg id hid
    rw [hgroups] at hg
    split at hg
    · next hshard =>
      cases hg
      have hmem := List.mem_filter.mp hid
      rw [hretires.other (by simpa using hmem.2)]
      exact h.live _ _ hgroup id hmem.1
    · next hshard =>
      -- a victim belongs to the group's shard, and `id` to another one
      have hid' : id ∉ victims := by
        intro hmem
        exact hshard ((hvictims id hmem).symm.trans (h.own shard g hg id hid).1)
      rw [hretires.other hid']
      exact h.live shard g hg id hid
  · -- a record that is left had one before, and no counter has moved
    intro id hid
    obtain ⟨g, hg, hlt⟩ := h.numbered id fun hn => hid (hretires.known.mpr hn)
    rw [hgroups]
    split
    · next hshard =>
      rw [← hshard, hgroup] at hg
      cases hg
      exact ⟨_, rfl, hlt⟩
    · exact ⟨g, hg, hlt⟩

/-! ## Adding members -/

/-- New replicas take the next numbers of the shard and are not retired. -/
theorem mem_newReplicas {shard : ShardID} {engine : EngineType} {seq : Int} {nodes : List Node}
    {x : Replica × Node} (h : x ∈ newReplicas shard engine seq nodes) :
    shardOf x.1.replicaId = shard ∧ seq ≤ x.1.replicaId.replicaSeq ∧
      x.1.replicaId.replicaSeq < seq + nodes.length ∧ x.1.state.phase.isAbsent = false := by
  unfold newReplicas at h
  obtain ⟨⟨node, i⟩, hmem, rfl⟩ := List.mem_map.mp h
  have hi : i < nodes.length := by
    have := List.snd_lt_of_mem_zipIdx hmem
    simpa using this
  refine ⟨rfl, ?_, ?_, rfl⟩
  · show seq ≤ seq + (i : Int)
    omega
  · show seq + (i : Int) < seq + nodes.length
    omega

/-- A batch of new records, all of them live. -/
theorem standing_putReplicas (t : MetaStoreTxn) {replicas : List Replica}
    (hlive : ∀ r ∈ replicas, r.state.phase.isAbsent = false) (id : ReplicaID) :
    (t.putReplicas replicas).durable.standing id =
      if id ∈ replicas.map Replica.replicaId then some false else t.durable.standing id := by
  unfold MetaStoreTxn.putReplicas
  by_cases hempty : replicas = []
  · rw [if_pos hempty, hempty]
    rfl
  rw [if_neg hempty]
  show ((replicas.foldl Keyed.put t.durable.replicas).get id).map _ = _
  split
  · next hmem =>
    obtain ⟨r, hr, hget⟩ := Keyed.get_foldl_put_of_mem hmem t.durable.replicas
    rw [hget]
    exact congrArg some (hlive r hr)
  · next hmem =>
    rw [Keyed.get_foldl_put_of_not_mem hmem]
    rfl

theorem getReplicaObserved_putReplicaObserved (t : MetaStoreTxn) (id id' : ReplicaID)
    (o : ReplicaObserved) :
    (t.putReplicaObserved id o).getReplicaObserved id' =
      if id = id' then some o else t.getReplicaObserved id' := by
  show ((t.runtime.replicaObserveds.put (id, o)).get id').map Prod.snd = _
  rw [Keyed.get_put]
  split
  · rfl
  · rfl

/-- **First observations.** Every new replica is observed as no member; no other observation changes. -/
theorem observeAll_spec (now : Int) (fresh : List (Replica × Node)) (t : MetaStoreTxn) :
    let t' := fresh.foldl (fun t p => t.putReplicaObserved p.1.replicaId
      { endpoint := p.2.state.endpoint, updateTs := now }) t
    t'.durable = t.durable ∧
      (∀ id, id ∉ fresh.map (fun p => p.1.replicaId) →
        t'.getReplicaObserved id = t.getReplicaObserved id) ∧
      ∀ id, id ∈ fresh.map (fun p => p.1.replicaId) →
        ∃ o, t'.getReplicaObserved id = some o ∧ o.memberType = .nonMember := by
  induction fresh generalizing t with
  | nil =>
    refine ⟨rfl, fun _ _ => rfl, ?_⟩
    intro id hid
    cases hid
  | cons p fresh ih =>
    obtain ⟨hdurable, hother, hnew⟩ := ih (t.putReplicaObserved p.1.replicaId
      { endpoint := p.2.state.endpoint, updateTs := now })
    refine ⟨hdurable, ?_, ?_⟩
    · intro id hid
      rw [List.map_cons, List.mem_cons, not_or] at hid
      rw [List.foldl_cons, hother id hid.2, getReplicaObserved_putReplicaObserved,
        if_neg fun h => hid.1 h.symm]
    · intro id hid
      by_cases hrest : id ∈ fresh.map fun p => p.1.replicaId
      · exact hnew id hrest
      · have heq : p.1.replicaId = id := by
          rcases List.mem_cons.mp hid with h | h
          · exact h.symm
          · exact absurd h hrest
        rw [List.foldl_cons, hother id hrest, getReplicaObserved_putReplicaObserved, if_pos heq]
        exact ⟨_, rfl, rfl⟩

/-- **Adding members**: nothing happens, or the group is extended by new numbers, each with a record and a first
observation. -/
theorem addMembers_spec (now : Int) (t : MetaStoreTxn) (shard : ShardID) (engine : EngineType)
    (nodes : List Node) :
    addMembers now t shard engine nodes = t ∨ ∃ group fresh,
      t.durable.replicaGroups.get shard = some group ∧
      (∀ id ∈ fresh, shardOf id = shard ∧ group.seqAllocator ≤ id.replicaSeq ∧
        id.replicaSeq < group.seqAllocator + nodes.length) ∧
      (∀ s, (addMembers now t shard engine nodes).durable.replicaGroups.get s =
        if shard = s then
          some { group with
            desiredMembers := group.desiredMembers ++ fresh
            seqAllocator := group.seqAllocator + nodes.length }
        else t.durable.replicaGroups.get s) ∧
      (addMembers now t shard engine nodes).durable.catalog = t.durable.catalog ∧
      (∀ id, (addMembers now t shard engine nodes).durable.standing id =
        if id ∈ fresh then some false else t.durable.standing id) ∧
      (∀ id, id ∉ fresh →
        (addMembers now t shard engine nodes).getReplicaObserved id = t.getReplicaObserved id) ∧
      ∀ id ∈ fresh, ∃ o, (addMembers now t shard engine nodes).getReplicaObserved id = some o ∧
        o.memberType = .nonMember := by
  unfold addMembers
  rcases hget : t.getReplicaGroup shard with _ | group
  · exact Or.inl rfl
  have hshard : group.shardId = shard := Keyed.key_of_get hget
  dsimp only
  split
  · exact Or.inl rfl
  set fresh := newReplicas shard engine group.seqAllocator nodes with hfresh
  obtain ⟨hdurable, hother, hnew⟩ := observeAll_spec now fresh (t.putReplicas (fresh.map Prod.fst))
  have hput : (t.putReplicas (fresh.map Prod.fst)).durable.replicaGroups = t.durable.replicaGroups ∧
      (t.putReplicas (fresh.map Prod.fst)).durable.catalog = t.durable.catalog ∧
      (t.putReplicas (fresh.map Prod.fst)).runtime = t.runtime := by
    unfold MetaStoreTxn.putReplicas
    split
    · exact ⟨rfl, rfl, rfl⟩
    · exact ⟨rfl, rfl, rfl⟩
  refine Or.inr ⟨group, fresh.map fun p => p.1.replicaId, hget, ?_, ?_, ?_, ?_, ?_, ?_⟩
  · intro id hid
    obtain ⟨x, hx, rfl⟩ := List.mem_map.mp hid
    obtain ⟨hs, hle, hlt, -⟩ := mem_newReplicas hx
    exact ⟨hs, hle, hlt⟩
  · intro s
    rw [getReplicaGroup_putReplicaGroup, hdurable, hput.1]
    dsimp only
    rw [hshard]
  · show (List.foldl _ _ fresh : MetaStoreTxn).durable.catalog = _
    rw [hdurable, hput.2.1]
  · intro id
    show (List.foldl _ _ fresh : MetaStoreTxn).durable.standing id = _
    rw [hdurable, standing_putReplicas]
    · simp only [List.map_map]
      rfl
    · intro r hr
      obtain ⟨x, hx, rfl⟩ := List.mem_map.mp hr
      exact (mem_newReplicas hx).2.2.2
  · intro id hid
    show (List.foldl _ _ fresh : MetaStoreTxn).getReplicaObserved id = _
    rw [hother id hid]
    unfold MetaStoreTxn.getReplicaObserved
    rw [hput.2.2]
  · intro id hid
    exact hnew id hid

/-- **Adding members** keeps the agreement, since the counter moves past the new numbers. -/
theorem Placed.addMembers (h : Placed t.durable) (now : Int) (shard : ShardID) (engine : EngineType)
    (nodes : List Node) : Placed (addMembers now t shard engine nodes).durable := by
  rcases addMembers_spec now t shard engine nodes with
    hsame | ⟨group, fresh, hgroup, hfresh, hgroups, -, hstanding, -, -⟩
  · rw [hsame]
    exact h
  refine ⟨?_, ?_, ?_⟩
  · intro s g hg id hid
    rw [hgroups] at hg
    split at hg
    · next hs =>
      cases hg
      subst hs
      rcases List.mem_append.mp hid with hold | hnew
      · obtain ⟨hown, hlt⟩ := h.own _ _ hgroup id hold
        refine ⟨hown, ?_⟩
        show id.replicaSeq < group.seqAllocator + nodes.length
        omega
      · exact ⟨(hfresh id hnew).1, (hfresh id hnew).2.2⟩
    · exact h.own s g hg id hid
  · intro s g hg id hid
    rw [hgroups] at hg
    rw [hstanding]
    split
    · rfl
    · next hnew =>
      split at hg
      · cases hg
        rcases List.mem_append.mp hid with hold | hmem
        · exact h.live _ _ hgroup id hold
        · exact absurd hmem hnew
      · exact h.live s g hg id hid
  · intro id hid
    rw [hstanding] at hid
    rw [hgroups]
    split at hid
    · next hmem =>
      rw [if_pos (hfresh id hmem).1.symm]
      exact ⟨_, rfl, (hfresh id hmem).2.2⟩
    · -- an old record, of this shard or of another
      obtain ⟨g, hg, hlt⟩ := h.numbered id hid
      split
      · next hs =>
        rw [← hs, hgroup] at hg
        cases hg
        refine ⟨_, rfl, ?_⟩
        show id.replicaSeq < group.seqAllocator + nodes.length
        omega
      · exact ⟨g, hg, hlt⟩

end AdvisKV.Meta
