import AdvisKV.Meta.Members

/-!
# AdvisKV — transactions that leave the members alone

Most of what the background thread does leaves the desired members as they are: it sets targets, projects
phases, deletes records of replicas that are gone and turns a group over to Raft. `Tidies` says what such a
transaction may change.

Main results:

* `Placed.tidies` — the agreement of groups and records is kept.
* `reconcilePhases_spec`, `cleanupGroup_spec`, `ensureGroupForShard_spec`, `reconcileAbsentTable_winds` — one
  specification for each transaction.
-/

namespace AdvisKV.Meta

variable {t : MetaStoreTxn}

/-! ## Everything that leaves the members alone -/

/-- Whether a table is on its way out, if there is one. -/
def DurableData.tableGone (d : DurableData) (tableId : Int) : Option Bool :=
  (d.tables.get tableId).map fun table => table.state.phase.isAbsent

/-- **A transaction that leaves the members alone.** Groups come and go without members; a mode changes to
reconfiguration, or back when there are no members; records disappear only when they are on their way
out. -/
structure Tidies (d d' : DurableData) : Prop where
  kept : ∀ shard group, d.replicaGroups.get shard = some group →
    (∃ group', d'.replicaGroups.get shard = some group' ∧
      group'.desiredMembers = group.desiredMembers ∧ group'.seqAllocator = group.seqAllocator ∧
      (group'.mode = group.mode ∨ group'.mode = .raftReconfig ∨ group.desiredMembers = [])) ∨
    (d'.replicaGroups.get shard = none ∧ group.desiredMembers = [] ∧
      (∀ id, shardOf id = shard → d.standing id = none) ∧ d.tableGone shard.tableId = some true)
  created : ∀ shard group', d.replicaGroups.get shard = none →
    d'.replicaGroups.get shard = some group' →
      group'.desiredMembers = [] ∧ d.tableGone shard.tableId = some false
  standing : ∀ id, d'.standing id = d.standing id ∨ (d.standing id = some true ∧ d'.standing id = none)

/-- A group is only turned over to Raft when every member is observed as a voter. -/
def TurnsVoters (d : DurableData) (t' : MetaStoreTxn) : Prop :=
  ∀ shard group group', d.replicaGroups.get shard = some group →
    t'.durable.replicaGroups.get shard = some group' →
    group'.mode = group.mode ∨ group'.mode = .bootstrap ∨
      ∀ id ∈ group.desiredMembers, t'.observedType id = some .voter

variable {d d' : DurableData} {t' t : MetaStoreTxn} {group : ReplicaGroup} {tableId : Int}

/-- Groups that stay as they are turn nothing. -/
theorem TurnsVoters.of_groups (h : t'.durable.replicaGroups = d.replicaGroups) : TurnsVoters d t' := by
  intro shard group group' hgroup hgroup'
  rw [h, hgroup] at hgroup'
  cases hgroup'
  exact Or.inl rfl

/-- Writing one group back. -/
theorem TurnsVoters.putReplicaGroup {group' : ReplicaGroup}
    (hgroups : t.durable.replicaGroups = d.replicaGroups)
    (hget : d.replicaGroups.get group'.shardId = some group)
    (hmode : group'.mode = group.mode ∨ group'.mode = .bootstrap ∨
      ∀ id ∈ group.desiredMembers, t.observedType id = some .voter) :
    TurnsVoters d (t.putReplicaGroup group') := by
  intro shard g g' hg hg'
  rw [getReplicaGroup_putReplicaGroup, hgroups] at hg'
  split at hg'
  · next heq =>
    cases hg'
    rw [← heq, hget] at hg
    cases hg
    exact hmode
  · rw [hg] at hg'
    cases hg'
    exact Or.inl rfl

/-- Only records on their way out are deleted. -/
theorem Tidies.of_groups (hgroups : d'.replicaGroups = d.replicaGroups)
    (hstanding : ∀ id, d'.standing id = d.standing id ∨
      (d.standing id = some true ∧ d'.standing id = none)) : Tidies d d' where
  kept := by
    intro shard group hgroup
    refine Or.inl ⟨group, ?_, rfl, rfl, Or.inl rfl⟩
    rw [hgroups]
    exact hgroup
  created := by
    intro shard group' hnone hsome
    rw [hgroups, hnone] at hsome
    cases hsome
  standing := hstanding

theorem Tidies.refl (d : DurableData) : Tidies d d := Tidies.of_groups rfl fun _ => Or.inl rfl

/-- A group that is there afterwards is new and empty, or was there with the same members. -/
theorem Tidies.origin (ht : Tidies d d') {shard : ShardID} {group' : ReplicaGroup}
    (hgroup' : d'.replicaGroups.get shard = some group') :
    group'.desiredMembers = [] ∨ ∃ group, d.replicaGroups.get shard = some group ∧
      group'.desiredMembers = group.desiredMembers ∧ group'.seqAllocator = group.seqAllocator ∧
      (group'.mode = group.mode ∨ group'.mode = .raftReconfig ∨ group.desiredMembers = []) := by
  rcases hget : d.replicaGroups.get shard with _ | group
  · exact Or.inl (ht.created shard group' hget hgroup').1
  rcases ht.kept shard group hget with ⟨g, hg, hsame⟩ | ⟨hnone, -⟩
  · cases hg.symm.trans hgroup'
    exact Or.inr ⟨group, rfl, hsame⟩
  · rw [hnone] at hgroup'
    cases hgroup'

/-- Such a transaction keeps the agreement of groups and records. -/
theorem Placed.tidies (h : Placed d) (ht : Tidies d d') : Placed d' where
  own := by
    intro shard group' hgroup' id hid
    rcases ht.origin hgroup' with hempty | ⟨group, hget, hmembers, hseq, -⟩
    · rw [hempty] at hid
      cases hid
    · rw [hseq]
      exact h.own shard group hget id (hmembers ▸ hid)
  live := by
    intro shard group' hgroup' id hid
    rcases ht.origin hgroup' with hempty | ⟨group, hget, hmembers, -⟩
    · rw [hempty] at hid
      cases hid
    have hlive := h.live shard group hget id (hmembers ▸ hid)
    -- only records on their way out disappear
    rcases ht.standing id with hsame | ⟨hgone, -⟩
    · rw [hsame]
      exact hlive
    · rw [hlive] at hgone
      cases hgone
  numbered := by
    intro id hid
    have hold : d.standing id ≠ none := by
      rcases ht.standing id with hsame | ⟨-, hnone⟩
      · rw [← hsame]
        exact hid
      · exact absurd hnone hid
    obtain ⟨group, hget, hlt⟩ := h.numbered id hold
    rcases ht.kept _ group hget with ⟨g, hg, -, hseq, -⟩ | ⟨-, -, hempty, -⟩
    · exact ⟨g, hg, hseq ▸ hlt⟩
    · -- a group goes only after its last record
      exact absurd (hempty id rfl) hold

/-- Writing a group back with the same members and counter. -/
theorem Tidies.putReplicaGroup (group group' : ReplicaGroup)
    (hget : t.durable.replicaGroups.get group.shardId = some group)
    (hshard : group'.shardId = group.shardId) (hmembers : group'.desiredMembers = group.desiredMembers)
    (hseq : group'.seqAllocator = group.seqAllocator)
    (hmode : group'.mode = group.mode ∨ group'.mode = .raftReconfig ∨ group.desiredMembers = []) :
    Tidies t.durable (t.putReplicaGroup group').durable where
  kept := by
    intro shard g hg
    left
    rw [getReplicaGroup_putReplicaGroup]
    split
    · next heq =>
      rw [← heq, hshard, hget] at hg
      cases hg
      exact ⟨group', rfl, hmembers, hseq, hmode⟩
    · exact ⟨g, hg, rfl, rfl, Or.inl rfl⟩
  created := by
    intro shard g hnone hsome
    rw [getReplicaGroup_putReplicaGroup] at hsome
    split at hsome
    · next heq =>
      rw [← heq, hshard, hget] at hnone
      cases hnone
    · rw [hnone] at hsome
      cases hsome
  standing := fun _ => Or.inl rfl

/-- Two such transactions in a row, when the first neither creates nor deletes a group nor turns a mode back,
and keeps the tables. -/
theorem Tidies.trans_of_groups {d₁ : DurableData} (hgroups : d₁.replicaGroups = d.replicaGroups)
    (hcatalog : d₁.catalog = d.catalog) (hstanding : ∀ id, d₁.standing id = d.standing id ∨
      (d.standing id = some true ∧ d₁.standing id = none))
    (hnone : ∀ shard, d₁.replicaGroups.get shard ≠ none → d'.replicaGroups.get shard ≠ none)
    (h : Tidies d₁ d') : Tidies d d' where
  kept := by
    intro shard group hgroup
    have hgroup₁ : d₁.replicaGroups.get shard = some group := by
      rw [hgroups]
      exact hgroup
    rcases h.kept shard group hgroup₁ with hkept | ⟨hgone, -⟩
    · exact Or.inl hkept
    · exact absurd hgone (hnone shard (by simp [hgroup₁]))
  created := by
    intro shard group' hget hsome
    rw [← hgroups] at hget
    have hcreated := h.created shard group' hget hsome
    have htables : d₁.tables = d.tables := congrArg Prod.fst hcatalog
    unfold DurableData.tableGone at hcreated ⊢
    rw [← htables]
    exact hcreated
  standing := by
    intro id
    rcases h.standing id with hsame | ⟨hgone, hempty⟩
    · rw [hsame]
      exact hstanding id
    · rcases hstanding id with hsame | ⟨-, hnone₁⟩
      · rw [hsame] at hgone
        exact Or.inr ⟨hgone, hempty⟩
      · rw [hnone₁] at hgone
        cases hgone

/-! ## Phases -/

/-- Projecting a phase never retires a replica, nor brings one back. -/
theorem projectPhase_isAbsent (t : MetaStoreTxn) (r : Replica) (observed : Option ReplicaObserved) :
    (projectPhase t r observed).isAbsent = r.state.phase.isAbsent := by
  unfold projectPhase
  by_cases hdeleted : r.state.phase = .deleted
  · rw [if_pos hdeleted, hdeleted]
  rw [if_neg hdeleted]
  by_cases hdeleting : r.state.phase = .deleting
  · rw [if_pos hdeleting, hdeleting]
    split
    · rfl
    · rfl
  rw [if_neg hdeleting]
  have hlive : r.state.phase.isAbsent = false := by
    simp [ReplicaPhase.isAbsent, hdeleted, hdeleting]
  rw [hlive]
  split
  · rfl
  · split
    · exact hlive
    · split
      · rfl
      · split
        · rfl
        · split
          · exact hlive
          · split <;> rfl

/-- Projecting one phase touches one record and does not retire it. -/
theorem reconcileReplicaPhase_spec (now : Int) (t : MetaStoreTxn) {r : Replica}
    (hr : t.durable.standing r.replicaId = some r.state.phase.isAbsent) :
    (reconcileReplicaPhase now t r).durable.replicaGroups = t.durable.replicaGroups ∧
      (reconcileReplicaPhase now t r).durable.catalog = t.durable.catalog ∧
      (reconcileReplicaPhase now t r).runtime = t.runtime ∧
      ∀ id, (reconcileReplicaPhase now t r).durable.standing id = t.durable.standing id := by
  unfold reconcileReplicaPhase
  dsimp only
  split
  · exact ⟨rfl, rfl, rfl, fun _ => rfl⟩
  · refine ⟨rfl, rfl, rfl, ?_⟩
    intro id
    rw [standing_putReplica]
    split
    · next heq =>
      rw [← heq, hr]
      exact congrArg some (projectPhase_isAbsent t r _)
    · rfl

/-- **Projecting all phases** leaves every record standing as it was. -/
theorem reconcilePhases_spec (now : Int) (t : MetaStoreTxn) :
    (reconcilePhases now t).durable.replicaGroups = t.durable.replicaGroups ∧
      (reconcilePhases now t).durable.catalog = t.durable.catalog ∧
      (reconcilePhases now t).runtime = t.runtime ∧
      ∀ id, (reconcilePhases now t).durable.standing id = t.durable.standing id := by
  unfold reconcilePhases
  have hall : ∀ r ∈ t.durable.replicas.entries,
      t.durable.standing r.replicaId = some r.state.phase.isAbsent := by
    intro r hr
    have hget : t.durable.replicas.get r.replicaId = some r := Keyed.get_eq_some_iff.mpr ⟨hr, rfl⟩
    simp [DurableData.standing, hget]
  -- the records are those of the start: each stands there as it does when its turn comes
  generalize t.durable.replicas.entries = records at hall
  induction records generalizing t with
  | nil => exact ⟨rfl, rfl, rfl, fun _ => rfl⟩
  | cons r records ih =>
    obtain ⟨hgroups, hcatalog, hruntime, hstanding⟩ :=
      reconcileReplicaPhase_spec now t (hall r List.mem_cons_self)
    obtain ⟨hgroups', hcatalog', hruntime', hstanding'⟩ := ih (reconcileReplicaPhase now t r) (by
      intro r' hr'
      rw [hstanding]
      exact hall r' (List.mem_cons_of_mem _ hr'))
    exact ⟨hgroups'.trans hgroups, hcatalog'.trans hcatalog, hruntime'.trans hruntime,
      fun id => (hstanding' id).trans (hstanding id)⟩

/-! ## Cleaning up -/

/-- Deleting records touches nothing else. -/
theorem deleteAll_spec (ids : List ReplicaID) (t : MetaStoreTxn) :
    (ids.foldl MetaStoreTxn.deleteReplica t).durable.replicaGroups = t.durable.replicaGroups ∧
      (ids.foldl MetaStoreTxn.deleteReplica t).durable.catalog = t.durable.catalog ∧
      (∀ id, (ids.foldl MetaStoreTxn.deleteReplica t).durable.standing id =
        if id ∈ ids then none else t.durable.standing id) ∧
      ∀ id, id ∉ ids →
        (ids.foldl MetaStoreTxn.deleteReplica t).getReplicaObserved id = t.getReplicaObserved id := by
  induction ids generalizing t with
  | nil => exact ⟨rfl, rfl, fun _ => rfl, fun _ _ => rfl⟩
  | cons x ids ih =>
    obtain ⟨hgroups, hcatalog, hstanding, hobserved⟩ := ih (t.deleteReplica x)
    have hcatalog₁ : (t.deleteReplica x).durable.catalog = t.durable.catalog := by
      unfold MetaStoreTxn.deleteReplica
      split
      · rfl
      · rfl
    refine ⟨hgroups.trans (replicaGroups_deleteReplica t x), hcatalog.trans hcatalog₁, ?_, ?_⟩
    · intro id
      rw [List.foldl_cons, hstanding, standing_deleteReplica]
      by_cases hrest : id ∈ ids
      · rw [if_pos hrest, if_pos (List.mem_cons_of_mem _ hrest)]
      · rw [if_neg hrest]
        by_cases heq : x = id
        · rw [if_pos heq, if_pos (by rw [heq]; exact List.mem_cons_self)]
        · rw [if_neg heq, if_neg (by
            rw [List.mem_cons, not_or]
            exact ⟨fun h => heq h.symm, hrest⟩)]
    · intro id hid
      rw [List.mem_cons, not_or] at hid
      rw [List.foldl_cons, hobserved id hid.2]
      have hruntime : (t.deleteReplica x).runtime.replicaObserveds =
          t.runtime.replicaObserveds.erase x := by
        unfold MetaStoreTxn.deleteReplica
        split
        · rfl
        · rfl
      unfold MetaStoreTxn.getReplicaObserved
      rw [hruntime, Keyed.get_erase, if_neg fun h => hid.1 h.symm]

/-- The condition on which a group is turned over asks for voters. -/
theorem observedType_of_allMembersReady (h : allMembersReady t group = true) :
    ∀ id ∈ group.desiredMembers, t.observedType id = some .voter := by
  intro id hid
  simp only [allMembersReady, Bool.and_eq_true, List.all_eq_true] at h
  obtain ⟨-, hvoter⟩ := h.2 id hid
  rw [Option.any_eq_true] at hvoter
  obtain ⟨o, ho, htype⟩ := hvoter
  unfold MetaStoreTxn.observedType
  rw [ho]
  exact congrArg some (by simpa using htype)

/-- **Cleaning up** a group leaves its members alone, and every observation of a replica that is not on its way
out. A group that is turned back must have no members. -/
theorem cleanupGroup_spec (t : MetaStoreTxn) (shard : ShardID)
    (hempty : ∀ group, t.durable.replicaGroups.get shard = some group → group.targetReplicaCount = 0 →
      group.desiredMembers = []) :
    Tidies t.durable (cleanupGroup t shard).durable ∧
      (cleanupGroup t shard).durable.catalog = t.durable.catalog ∧
      TurnsVoters t.durable (cleanupGroup t shard) ∧
      ∀ id, t.durable.standing id ≠ some true →
        (cleanupGroup t shard).getReplicaObserved id = t.getReplicaObserved id := by
  unfold cleanupGroup
  rcases hget : t.getReplicaGroup shard with _ | group
  · exact ⟨Tidies.refl _, rfl, .of_groups rfl, fun _ _ => rfl⟩
  have hshard : group.shardId = shard := Keyed.key_of_get hget
  have hget' : t.durable.replicaGroups.get group.shardId = some group := by
    rw [hshard]
    exact hget
  dsimp only
  set gone := ((t.listReplicasByShard shard).filter fun r => r.state.phase = .deleted).map
    Replica.replicaId with hgone
  obtain ⟨hgroups, hcatalog, hstanding, hobserved⟩ := deleteAll_spec gone t
  -- what is deleted was marked as deleted
  have hout : ∀ id ∈ gone, t.durable.standing id = some true := by
    intro id hid
    obtain ⟨r, hr, rfl⟩ := List.mem_map.mp hid
    obtain ⟨hlisted, hphase⟩ := List.mem_filter.mp hr
    have hentry : r ∈ t.durable.replicas.entries := (List.mem_filter.mp hlisted).1
    have hr' : t.durable.replicas.get r.replicaId = some r := Keyed.get_eq_some_iff.mpr ⟨hentry, rfl⟩
    have hdeleted : r.state.phase = .deleted := by simpa using hphase
    simp [DurableData.standing, hr', hdeleted, ReplicaPhase.isAbsent]
  have hstanding' : ∀ id, (gone.foldl MetaStoreTxn.deleteReplica t).durable.standing id =
      t.durable.standing id ∨ (t.durable.standing id = some true ∧
        (gone.foldl MetaStoreTxn.deleteReplica t).durable.standing id = none) := by
    intro id
    by_cases hid : id ∈ gone
    · exact Or.inr ⟨hout id hid, by rw [hstanding, if_pos hid]⟩
    · exact Or.inl (by rw [hstanding, if_neg hid])
  have hobserved' : ∀ id, t.durable.standing id ≠ some true →
      (gone.foldl MetaStoreTxn.deleteReplica t).getReplicaObserved id = t.getReplicaObserved id :=
    fun id hid => hobserved id fun hmem => hid (hout id hmem)
  -- whatever mode is written, the group keeps its members
  have hwrite : ∀ mode, (mode = .raftReconfig ∨ group.desiredMembers = []) →
      Tidies t.durable
        ((gone.foldl MetaStoreTxn.deleteReplica t).putReplicaGroup { group with mode }).durable := by
    intro mode hmode
    refine Tidies.trans_of_groups hgroups hcatalog hstanding' ?_
      (Tidies.putReplicaGroup group _ ?_ rfl rfl rfl (Or.inr hmode))
    · intro s hs
      rw [getReplicaGroup_putReplicaGroup]
      split
      · exact Option.some_ne_none _
      · exact hs
    · rw [hgroups]
      exact hget'
  have hsame := Tidies.of_groups hgroups hstanding'
  split
  · split
    · next htarget =>
      exact ⟨hwrite _ (Or.inr (hempty group hget htarget)), hcatalog,
        .putReplicaGroup hgroups hget' (Or.inr (Or.inl rfl)), hobserved'⟩
    · exact ⟨hsame, hcatalog, .of_groups hgroups, hobserved'⟩
  · split
    · next hready =>
      refine ⟨hwrite _ (Or.inl rfl), hcatalog, .putReplicaGroup hgroups hget' (Or.inr (Or.inr ?_)),
        hobserved'⟩
      exact observedType_of_allMembersReady hready.2
    · exact ⟨hsame, hcatalog, .of_groups hgroups, hobserved'⟩

/-! ## Targets -/

/-- **Targets.** A missing group of a table that is there is created without members; of one that exists only
the target is written. -/
theorem ensureGroupForShard_spec (t : MetaStoreTxn) (tableId shardIndex : Int) :
    Tidies t.durable (ensureGroupForShard t tableId shardIndex).durable ∧
      TurnsVoters t.durable (ensureGroupForShard t tableId shardIndex) ∧
      (ensureGroupForShard t tableId shardIndex).durable.catalog = t.durable.catalog ∧
      (ensureGroupForShard t tableId shardIndex).runtime = t.runtime := by
  unfold ensureGroupForShard
  rcases htable : t.getTable tableId with _ | table
  · exact ⟨Tidies.refl _, .of_groups rfl, rfl, rfl⟩
  dsimp only
  by_cases habsent : table.state.phase.isAbsent = true
  · rw [if_pos habsent]
    exact ⟨Tidies.refl _, .of_groups rfl, rfl, rfl⟩
  rw [if_neg habsent]
  rcases hget : t.getReplicaGroup ⟨tableId, shardIndex⟩ with _ | group
  · -- the group is new, so every other one is what it was
    refine ⟨⟨?_, ?_, fun _ => Or.inl rfl⟩, ?_, rfl, rfl⟩
    · intro shard g hg
      refine Or.inl ⟨g, ?_, rfl, rfl, Or.inl rfl⟩
      rw [getReplicaGroup_putReplicaGroup, if_neg]
      · exact hg
      · intro heq
        have hnone : t.durable.replicaGroups.get shard = none := heq ▸ hget
        rw [hnone] at hg
        cases hg
    · intro shard g' hnone hsome
      rw [getReplicaGroup_putReplicaGroup] at hsome
      split at hsome
      · next heq =>
        cases hsome
        refine ⟨rfl, ?_⟩
        have hgone : t.durable.tables.get shard.tableId = some table := by
          rw [← heq]
          exact htable
        rw [Bool.not_eq_true] at habsent
        simp [DurableData.tableGone, hgone, habsent]
      · rw [hnone] at hsome
        cases hsome
    · intro shard g g' hg hg'
      rw [getReplicaGroup_putReplicaGroup, if_neg] at hg'
      · rw [hg] at hg'
        cases hg'
        exact Or.inl rfl
      · intro heq
        have hnone : t.durable.replicaGroups.get shard = none := heq ▸ hget
        rw [hnone] at hg
        cases hg
  · have hshard : group.shardId = ⟨tableId, shardIndex⟩ := Keyed.key_of_get hget
    have hget' : t.durable.replicaGroups.get group.shardId = some group := by
      rw [hshard]
      exact hget
    dsimp only
    split
    · exact ⟨Tidies.putReplicaGroup group _ hget' rfl rfl rfl (Or.inl rfl),
        .putReplicaGroup rfl hget' (Or.inl rfl), rfl, rfl⟩
    · exact ⟨Tidies.refl _, .of_groups rfl, rfl, rfl⟩

/-- What one shard of an absent table, and so all of them together, may change. -/
structure Winds (tableId : Int) (t t' : MetaStoreTxn) : Prop where
  replicas : t'.durable.replicas = t.durable.replicas
  catalog : t'.durable.catalog = t.durable.catalog
  runtime : t'.runtime = t.runtime
  missing : ∀ shard, t.durable.replicaGroups.get shard = none → t'.durable.replicaGroups.get shard = none
  kept : ∀ shard group, t.durable.replicaGroups.get shard = some group →
    (∃ group', t'.durable.replicaGroups.get shard = some group' ∧
      group'.desiredMembers = group.desiredMembers ∧ group'.seqAllocator = group.seqAllocator ∧
      group'.mode = group.mode) ∨
    (t'.durable.replicaGroups.get shard = none ∧ group.desiredMembers = [] ∧
      (∀ id, shardOf id = shard → t.durable.standing id = none) ∧ shard.tableId = tableId)

theorem Winds.refl (tableId : Int) (t : MetaStoreTxn) : Winds tableId t t :=
  ⟨rfl, rfl, rfl, fun _ h => h, fun _ group h => Or.inl ⟨group, h, rfl, rfl, rfl⟩⟩

theorem Winds.trans {t₁ t₂ : MetaStoreTxn} (h : Winds tableId t t₁) (h' : Winds tableId t₁ t₂) :
    Winds tableId t t₂ where
  replicas := h'.replicas.trans h.replicas
  catalog := h'.catalog.trans h.catalog
  runtime := h'.runtime.trans h.runtime
  missing := fun shard hnone => h'.missing shard (h.missing shard hnone)
  kept := by
    intro shard group hgroup
    rcases h.kept shard group hgroup with ⟨g₁, hg₁, hm₁, hs₁, hmode₁⟩ | ⟨hnone, hrest⟩
    · rcases h'.kept shard g₁ hg₁ with ⟨g₂, hg₂, hm₂, hs₂, hmode₂⟩ | ⟨hnone, hmembers, hempty, htable⟩
      · exact Or.inl ⟨g₂, hg₂, hm₂.trans hm₁, hs₂.trans hs₁, hmode₂.trans hmode₁⟩
      · refine Or.inr ⟨hnone, hm₁ ▸ hmembers, ?_, htable⟩
        intro id hid
        have := hempty id hid
        unfold DurableData.standing at this ⊢
        rw [← h.replicas]
        exact this
    · exact Or.inr ⟨h'.missing shard hnone, hrest⟩

/-- One shard of an absent table: its target goes to zero, and the group is deleted when neither members nor
records are left. -/
theorem reconcileAbsentShard_winds (t : MetaStoreTxn) (shard : ShardID) :
    Winds shard.tableId t (reconcileAbsentShard t shard) := by
  unfold reconcileAbsentShard
  rcases hget : t.getReplicaGroup shard with _ | group
  · exact Winds.refl _ t
  have hshard : group.shardId = shard := Keyed.key_of_get hget
  dsimp only
  split
  · -- the target is written, in place
    refine ⟨rfl, rfl, rfl, ?_, ?_⟩
    · intro s hnone
      rw [getReplicaGroup_putReplicaGroup, if_neg]
      · exact hnone
      · intro heq
        have hsome : t.durable.replicaGroups.get s = some group := heq ▸ hshard.symm ▸ hget
        rw [hnone] at hsome
        cases hsome
    · intro s g hg
      left
      rw [getReplicaGroup_putReplicaGroup]
      split
      · next heq =>
        have hsome : t.durable.replicaGroups.get s = some group := heq ▸ hshard.symm ▸ hget
        rw [hsome] at hg
        cases hg
        exact ⟨_, rfl, rfl, rfl, rfl⟩
      · exact ⟨g, hg, rfl, rfl, rfl⟩
  split
  · next hdone =>
    have hdelete : t.deleteReplicaGroup shard =
        t.modifyDurable fun d => { d with replicaGroups := d.replicaGroups.erase shard } := by
      unfold MetaStoreTxn.deleteReplicaGroup
      rw [if_neg (by simp [hget])]
    have hgroups : ∀ s, (t.deleteReplicaGroup shard).durable.replicaGroups.get s =
        if shard = s then none else t.durable.replicaGroups.get s := by
      intro s
      rw [hdelete]
      exact Keyed.get_erase _ _ _
    refine ⟨by rw [hdelete]; rfl, by rw [hdelete]; rfl, by rw [hdelete]; rfl, ?_, ?_⟩
    · intro s hnone
      rw [hgroups]
      split
      · rfl
      · exact hnone
    · intro s g hg
      rw [hgroups]
      split
      · next heq =>
        subst heq
        have hg' : t.getReplicaGroup shard = some g := hg
        rw [hget] at hg'
        cases hg'
        refine Or.inr ⟨rfl, hdone.1, ?_, rfl⟩
        intro id hid
        -- the shard has no records
        have hnone : t.durable.replicas.get id = none := by
          rw [Keyed.get_eq_none_iff]
          intro r hr hkey
          have hlisted : r ∈ t.listReplicasByShard shard :=
            List.mem_filter.mpr ⟨hr, by simpa [hkey] using hid⟩
          rw [hdone.2] at hlisted
          cases hlisted
        simp [DurableData.standing, hnone]
      · exact Or.inl ⟨g, hg, rfl, rfl, rfl⟩
  · exact Winds.refl _ t

/-- **An absent table**, shard by shard. -/
theorem reconcileAbsentTable_winds (t : MetaStoreTxn) (tableId : Int) :
    Winds tableId t (reconcileAbsentTable t tableId) := by
  unfold reconcileAbsentTable
  rcases hget : t.getTable tableId with _ | table
  · exact Winds.refl _ t
  have hkey : table.tableId = tableId := Keyed.key_of_get hget
  dsimp only
  split
  · exact Winds.refl _ t
  · rw [hkey]
    generalize table.spec.shardRanges = ranges
    clear hget
    induction ranges generalizing t with
    | nil => exact Winds.refl _ t
    | cons range ranges ih =>
      exact (reconcileAbsentShard_winds t ⟨tableId, range.shardIndex⟩).trans (ih _)

/-- No mode changes. -/
theorem Winds.turnsVoters (h : Winds tableId t t') :
    TurnsVoters t.durable t' := by
  intro shard group group' hgroup hgroup'
  rcases h.kept shard group hgroup with ⟨g, hg, -, -, hmode⟩ | ⟨hnone, -⟩
  · rw [hg] at hgroup'
    cases hgroup'
    exact Or.inl hmode
  · rw [hnone] at hgroup'
    cases hgroup'

/-- For a table that is on its way out this leaves the members alone. -/
theorem Winds.tidies (h : Winds tableId t t') (hgone : t.durable.tableGone tableId = some true) :
    Tidies t.durable t'.durable where
  kept := by
    intro shard group hgroup
    rcases h.kept shard group hgroup with ⟨g, hg, hm, hs, hmode⟩ | ⟨hnone, hm, hempty, htable⟩
    · exact Or.inl ⟨g, hg, hm, hs, Or.inl hmode⟩
    · exact Or.inr ⟨hnone, hm, hempty, htable ▸ hgone⟩
  created := by
    intro shard group' hnone hsome
    rw [h.missing shard hnone] at hsome
    cases hsome
  standing := by
    intro id
    left
    unfold DurableData.standing
    rw [h.replicas]

end AdvisKV.Meta
