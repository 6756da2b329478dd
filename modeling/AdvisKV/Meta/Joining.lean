import AdvisKV.Meta.Steps

/-!
# AdvisKV — who joins a group

Between heartbeats the members of a group change in two ways only: some are retired, or new ones are added under
numbers that the group has not handed out before. Whoever stays keeps its observed type, and a group is turned
over to Raft only when its members are voters.

Main results:

* `MetaState.Moves.spent` — a number that was handed out is not handed out again.
* `MetaState.Moves.member` — where a member comes from, with its type and the mode of its group.
-/

namespace AdvisKV.Meta

/-! ## Members -/

/-- The desired members of a group. -/
def DurableData.members (d : DurableData) (shard : ShardID) : List ReplicaID :=
  match d.replicaGroups.get shard with
  | none => []
  | some group => group.desiredMembers

/-- **The id is not handed out again**: the counter of its group is past it, or its group is gone and its table
is on its way out. -/
def Spent (d : DurableData) (id : ReplicaID) : Prop :=
  (∃ group, d.replicaGroups.get (shardOf id) = some group ∧ id.replicaSeq < group.seqAllocator) ∨
    (d.replicaGroups.get (shardOf id) = none ∧ d.tableGone id.tableId = some true)

variable {d d' : DurableData} {shard : ShardID} {id : ReplicaID}

/-- Membership, with the group. -/
theorem DurableData.mem_members :
    id ∈ d.members shard ↔ ∃ group, d.replicaGroups.get shard = some group ∧ id ∈ group.desiredMembers := by
  unfold members
  split
  · next hnone => simp [hnone]
  · next group hgroup => simp [hgroup]

namespace Placed

variable (h : Placed d) (hid : id ∈ d.members shard)

include h hid

theorem shardOf_member : shardOf id = shard := by
  obtain ⟨group, hgroup, hmem⟩ := DurableData.mem_members.mp hid
  exact (h.own shard group hgroup id hmem).1

theorem standing_member : d.standing id = some false := by
  obtain ⟨group, hgroup, hmem⟩ := DurableData.mem_members.mp hid
  exact h.live shard group hgroup id hmem

/-- The number of a member has been handed out. -/
theorem spent_member : Spent d id := by
  obtain ⟨group, hgroup, hmem⟩ := DurableData.mem_members.mp hid
  obtain ⟨rfl, hlt⟩ := h.own shard group hgroup id hmem
  exact Or.inl ⟨group, hgroup, hlt⟩

end Placed

/-- A member has a record. -/
theorem Placed.getReplica_member {t : MetaStoreTxn} (h : Placed t.durable)
    (hid : id ∈ t.durable.members shard) : (t.getReplica id).isSome = true := by
  have hlive := h.standing_member hid
  unfold DurableData.standing at hlive
  obtain ⟨replica, hreplica, -⟩ := Option.map_eq_some_iff.mp hlive
  exact Option.isSome_iff_exists.mpr ⟨replica, hreplica⟩

/-- A number the counter of the group has not reached is not spent. -/
theorem not_spent {group : ReplicaGroup} (hgroup : d.replicaGroups.get (shardOf id) = some group)
    (hle : group.seqAllocator ≤ id.replicaSeq) : ¬ Spent d id := by
  rintro (⟨g, hg, hlt⟩ | ⟨hnone, -⟩)
  · rw [hgroup] at hg
    cases hg
    omega
  · rw [hgroup] at hnone
    cases hnone

/-- Counters only grow, groups disappear with their tables, and none is made for a table on its way out. -/
theorem Spent.mono (h : Spent d id)
    (hkept : ∀ group, d.replicaGroups.get (shardOf id) = some group →
      (∃ group', d'.replicaGroups.get (shardOf id) = some group' ∧
        group.seqAllocator ≤ group'.seqAllocator) ∨
      (d'.replicaGroups.get (shardOf id) = none ∧ d.tableGone id.tableId = some true))
    (hcreated : ∀ group', d.replicaGroups.get (shardOf id) = none →
      d'.replicaGroups.get (shardOf id) = some group' → d.tableGone id.tableId = some false)
    (hages : d.tableGone id.tableId = some true → d'.tableGone id.tableId = some true) : Spent d' id := by
  rcases h with ⟨group, hgroup, hlt⟩ | ⟨hnone, hgone⟩
  · rcases hkept group hgroup with ⟨group', hgroup', hle⟩ | ⟨hnone, hgone⟩
    · exact Or.inl ⟨group', hgroup', by omega⟩
    · exact Or.inr ⟨hnone, hages hgone⟩
  · refine Or.inr ⟨?_, hages hgone⟩
    by_contra hne
    obtain ⟨group', hgroup'⟩ := Option.ne_none_iff_exists'.mp hne
    rw [hcreated group' hnone hgroup'] at hgone
    cases hgone

/-- The groups stay, or their counters grow. -/
theorem Spent.of_kept (h : Spent d id) (hcatalog : d'.catalog = d.catalog)
    (hgroups : ∀ s, d'.replicaGroups.get s = d.replicaGroups.get s ∨ ∃ group group',
      d.replicaGroups.get s = some group ∧ d'.replicaGroups.get s = some group' ∧
      group.seqAllocator ≤ group'.seqAllocator) : Spent d' id := by
  refine h.mono ?_ ?_ ?_
  · intro group hgroup
    rcases hgroups (shardOf id) with hsame | ⟨g, g', hg, hg', hle⟩
    · exact Or.inl ⟨group, hsame.trans hgroup, le_rfl⟩
    · rw [hgroup] at hg
      cases hg
      exact Or.inl ⟨g', hg', hle⟩
  · intro group' hnone hgroup'
    rcases hgroups (shardOf id) with hsame | ⟨g, g', hg, -⟩
    · rw [hsame, hnone] at hgroup'
      cases hgroup'
    · rw [hnone] at hg
      cases hg
  · exact Ages.of_catalog hcatalog _

namespace MetaState.Moves

variable {s s' : MetaState} {a : MetaAction}

/-- **Spent ids stay spent.** -/
theorem spent (h : Moves s a s') (hspent : Spent s.data.durable id) :
    Spent s'.data.durable id := by
  cases h with
  | calls hquiet helsewhere htask =>
    have hgroups : s'.data.durable.replicaGroups = s.data.durable.replicaGroups := helsewhere.groups
    refine hspent.mono ?_ ?_ (helsewhere.ages _)
    · intro group hgroup
      exact Or.inl ⟨group, by rw [hgroups]; exact hgroup, le_rfl⟩
    · intro group' hnone hgroup'
      rw [hgroups, hnone] at hgroup'
      cases hgroup'
  | heard now p t haction hnode =>
    show Spent (markNoExistReplicas now _ p).durable id
    rw [heard_durable hnode]
    exact hspent
  | tidies hquiet htidies hturns hcatalog hobserved hreports htask =>
    -- a group goes only with its table, and its counter with it
    refine hspent.mono ?_ ?_ (Ages.of_catalog hcatalog _)
    · intro group hgroup
      rcases htidies.kept _ group hgroup with ⟨g, hg, -, hseq, -⟩ | ⟨hnone, -, -, hgone⟩
      · exact Or.inl ⟨g, hg, hseq.ge⟩
      · exact Or.inr ⟨hnone, hgone⟩
    · intro group' hnone hgroup'
      exact (htidies.created _ group' hnone hgroup').2
  | decided hquiet shard' => exact hspent
  | placing hquiet task hread => exact hspent
  | retired now haction shard' group victims hgroup hvictims hchanges hright =>
    rcases retireMembers_spec now s.txn group victims with hsame | ⟨hgroups, hcatalog, -⟩
    · rw [hsame]
      exact hspent
    · refine hspent.of_kept hcatalog fun shard => ?_
      show (retireMembers now s.txn group victims).durable.replicaGroups.get shard = _ ∨ _
      by_cases heq : group.shardId = shard
      · subst heq
        have hshard : group.shardId = shard' := Keyed.key_of_get hgroup
        refine Or.inr ⟨group, _, hshard ▸ hgroup, (hgroups _).trans (if_pos rfl), le_rfl⟩
      · exact Or.inl ((hgroups shard).trans (if_neg heq))
  | grown now haction shard' nodes engine hplaced =>
    rcases addMembers_spec now s.txn shard' engine nodes with
      hsame | ⟨group, fresh, hgroup, -, hgroups, hcatalog, -⟩
    · rw [hsame]
      exact hspent
    · refine hspent.of_kept hcatalog fun shard => ?_
      by_cases heq : shard' = shard
      · subst heq
        refine Or.inr ⟨group, _, hgroup, (hgroups _).trans (if_pos rfl), ?_⟩
        show group.seqAllocator ≤ group.seqAllocator + nodes.length
        omega
      · exact Or.inl ((hgroups shard).trans (if_neg heq))
  | restarted haction => exact hspent

/-- **Members between heartbeats.** Whoever is a member after a quiet step was one before and keeps its type, or
is new under a number that was not handed out, and no member of Raft's group. The mode of the group is the same,
or Raft has just taken it over with this member as a voter. -/
theorem member (hs : s.Whole) (h : Moves s a s') (hquiet : quiet a = true) {group' : ReplicaGroup}
    (hgroup' : s'.data.durable.replicaGroups.get shard = some group') (hid : id ∈ group'.desiredMembers) :
    (∃ group, s.data.durable.replicaGroups.get shard = some group ∧ id ∈ group.desiredMembers ∧
      s'.txn.observedType id = s.txn.observedType id ∧
      (group'.mode = group.mode ∨ (group'.mode = .raftReconfig ∧ s'.txn.observedType id = some .voter))) ∨
    (¬ Spent s.data.durable id ∧ s'.txn.observedType id = some .nonMember) := by
  cases h with
  | calls _ helsewhere htask =>
    refine Or.inl ⟨group', helsewhere.groups ▸ hgroup', hid, ?_, Or.inl rfl⟩
    unfold MetaStoreTxn.observedType MetaStoreTxn.getReplicaObserved
    rw [helsewhere.observed]
  | heard now p t haction hnode =>
    subst haction
    cases hquiet
  | tidies _ htidies hturns hcatalog hobserved hreports htask =>
    rcases htidies.origin hgroup' with hempty | ⟨group, hget, hmembers, -, hmode⟩
    · rw [hempty] at hid
      cases hid
    rw [hmembers] at hid
    refine Or.inl ⟨group, hget, hid, ?_, ?_⟩
    · unfold MetaStoreTxn.observedType
      rw [hobserved id (by rw [hs.exact.live shard group hget id hid]; simp)]
    · -- a group with members goes to Raft only, and only with voters
      rcases hmode with hsame | hraft | hempty
      · exact Or.inl hsame
      · rcases hturns shard group group' hget hgroup' with hsame | hboot | hvoters
        · exact Or.inl hsame
        · rw [hboot] at hraft
          cases hraft
        · exact Or.inr ⟨hraft, hvoters id hid⟩
      · rw [hempty] at hid
        cases hid
  | decided _ shard' => exact Or.inl ⟨group', hgroup', hid, rfl, Or.inl rfl⟩
  | placing _ task hread => exact Or.inl ⟨group', hgroup', hid, rfl, Or.inl rfl⟩
  | retired now haction shard' group victims hgroup hvictims hchanges hright =>
    rcases retireMembers_spec now s.txn group victims with hsame | ⟨hgroups, -, hruntime, -⟩
    · rw [hsame] at hgroup' ⊢
      exact Or.inl ⟨group', hgroup', hid, rfl, Or.inl rfl⟩
    have htype : (retireMembers now s.txn group victims).observedType id = s.txn.observedType id := by
      unfold MetaStoreTxn.observedType MetaStoreTxn.getReplicaObserved
      rw [hruntime]
    have hbefore := (hgroups shard).symm.trans hgroup'
    split at hbefore
    · next heq =>
      cases hbefore
      have hshard : group.shardId = shard' := Keyed.key_of_get hgroup
      exact Or.inl ⟨group, by rw [← heq, hshard]; exact hgroup, (List.mem_filter.mp hid).1, htype, Or.inl rfl⟩
    · exact Or.inl ⟨group', hbefore, hid, htype, Or.inl rfl⟩
  | grown now haction shard' nodes engine hplaced =>
    rcases addMembers_spec now s.txn shard' engine nodes with
      hsame | ⟨group, fresh, hgroup, hfresh, hgroups, -, -, hother, hnew⟩
    · rw [hsame] at hgroup' ⊢
      exact Or.inl ⟨group', hgroup', hid, rfl, Or.inl rfl⟩
    by_cases hmem : id ∈ fresh
    · obtain ⟨hshard, hge, -⟩ := hfresh id hmem
      obtain ⟨o, ho, htype⟩ := hnew id hmem
      refine Or.inr ⟨not_spent (by rw [hshard]; exact hgroup) hge, ?_⟩
      show ((addMembers now s.txn shard' engine nodes).getReplicaObserved id).map _ = _
      rw [ho, ← htype]
      rfl
    · have htype : (addMembers now s.txn shard' engine nodes).observedType id = s.txn.observedType id := by
        unfold MetaStoreTxn.observedType
        rw [hother id hmem]
      have hbefore := (hgroups shard).symm.trans hgroup'
      split at hbefore
      · next heq =>
        cases hbefore
        rcases List.mem_append.mp hid with hold | hbad
        · exact Or.inl ⟨group, heq ▸ hgroup, hold, htype, Or.inl rfl⟩
        · exact absurd hbad hmem
      · exact Or.inl ⟨group', hbefore, hid, htype, Or.inl rfl⟩
  | restarted haction =>
    subst haction
    cases hquiet

end MetaState.Moves

end AdvisKV.Meta
