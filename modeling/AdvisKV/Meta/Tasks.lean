import AdvisKV.Meta.Exact
import AdvisKV.Meta.Joining

/-!
# AdvisKV — tasks and what they rely on

The background thread decides, reads and selects on snapshots of their own, and writes in a transaction of its
own. Calls from outside may come in between, but none of them touches a group or a record of a replica, so
what a task has read is still true when it writes.

Main results:

* `Task.read_fits`, `planned_fits` — the reads of the background thread find what its writes rely on.
* `MetaState.Whole` with `step_whole` — what holds of names, groups, records, nodes and tasks in every state.
* `Follows` with `MetaState.step_follows` — how durable data moves on.
-/

namespace AdvisKV.Meta

open MetaStoreTxn

variable {t t' : MetaStoreTxn} {task : Task}

/-! ## Reads of the background thread -/

/-- What is planned fits; a plan to do nothing is none. -/
theorem planned_fits (hplaced : Placed t.durable) (shard : ShardID)
    (h : planned (reconcileGroup t shard) = some task) : task.Fits t := by
  unfold planned at h
  split at h <;> cases h
  exact reconcileGroup_fits hplaced shard

/-- The nodes of all desired members are gathered. -/
theorem gatherOccupied_fits {shard : ShardID} {count : Int} (h : gatherOccupied t shard count = some task) :
    task.Fits t := by
  unfold gatherOccupied at h
  split at h
  · next table group htable hgroup =>
    split at h <;> cases h
    refine ⟨group, hgroup, fun id hid node hnode hne => ?_⟩
    obtain ⟨r, hr, rfl⟩ := Option.map_eq_some_iff.mp hnode
    refine List.mem_filter.mpr ⟨List.mem_map_of_mem ?_, by simpa using hne⟩
    exact List.mem_filterMap.mpr ⟨id, hid, hr⟩
  · cases h

namespace NodeSelector

/-- The picks of a shard are candidates with different ids. No count is compared here, so none needs to be in
range. -/
structure Picks.Distinct (candidates : List Node) (st : Picks) : Prop where
  views : ∀ v ∈ st.views, v.node ∈ candidates
  candidate : ∀ n ∈ st.nodes, n ∈ candidates
  selected : ∀ n ∈ st.nodes, n.id ∈ st.selectedNodeIds
  nodup : (st.nodes.map Node.id).Nodup

variable {candidates : List Node}

/-- A pick is a candidate that was not picked before. -/
theorem Picks.Distinct.step {st st' : Picks} (h : st.Distinct candidates) (hstep : st.step = .ok st') :
    st'.Distinct candidates := by
  unfold Picks.step at hstep
  split at hstep <;> cases hstep
  next it hpick =>
  have hbest := Greedy.best_unbeaten (betterCandidate_strict st.selectedDcCounts)
    (st.views.filter fun v => v.node.id ∉ st.selectedNodeIds)
  unfold selectOneNode at hpick
  rw [hpick] at hbest
  obtain ⟨hit, hnew⟩ := List.mem_filter.mp hbest.1
  have hcandidate := h.views it hit
  constructor <;> dsimp only [Picks.pick]
  case views =>
    intro v hv
    obtain ⟨v', hv', rfl⟩ := List.mem_map.mp hv
    split
    · exact h.views v' hv'
    · exact h.views v' hv'
  case candidate =>
    intro n hn
    rcases List.mem_append.mp hn with hold | hlast
    · exact h.candidate n hold
    · exact List.mem_singleton.mp hlast ▸ hcandidate
  case selected =>
    intro n hn
    rcases List.mem_append.mp hn with hold | hlast
    · exact List.mem_cons_of_mem _ (h.selected n hold)
    · exact List.mem_singleton.mp hlast ▸ List.mem_cons_self
  case nodup =>
    rw [List.map_append, List.map_singleton]
    refine List.Nodup.append h.nodup (List.nodup_singleton _) (List.disjoint_singleton.mpr fun hmem => ?_)
    obtain ⟨n, hn, hid⟩ := List.mem_map.mp hmem
    exact of_decide_eq_true hnew (hid ▸ h.selected n hn)

/-- Picking for one shard, as many times as it has replicas to place. -/
theorem Picks.Distinct.selectShard {count : Nat} {st st' : Picks} (h : st.Distinct candidates)
    (hselect : selectShard count st = .ok st') : st'.Distinct candidates := by
  induction count generalizing st with
  | zero =>
    cases hselect
    exact h
  | succ count ih =>
    unfold NodeSelector.selectShard at hselect
    split at hselect
    · cases hselect
    · next hstep => exact ih (h.step hstep) hselect

/-- **Nodes for one shard**: one placement, of candidates with different ids. -/
theorem selectTableNodes_one {pool : Bytes} {count : Int} {occupied : List NodeID} {shards : List ShardPlacement}
    (h : selectTableNodes t (placeOne pool count occupied) = .ok shards) :
    ∃ st : Picks, shards.head? = some ⟨0, st.nodes⟩ ∧
      st.Distinct (candidateNodes t (placeOne pool count occupied)) := by
  unfold selectTableNodes at h
  split at h
  · cases h
  dsimp only at h
  split at h
  · cases h
  rw [show (placeOne pool count occupied).shardCount.toInt.toNat = 1 from rfl, selectShards] at h
  split at h
  · cases h
  next st hselect =>
  simp only [selectShards, Except.ok.injEq] at h
  subst h
  refine ⟨st, rfl, Picks.Distinct.selectShard ?_ hselect⟩
  refine ⟨fun v hv => ?_, fun _ hn => absurd hn List.not_mem_nil, fun _ hn => absurd hn List.not_mem_nil,
    List.nodup_nil⟩
  obtain ⟨n, hn, rfl⟩ := List.mem_map.mp hv
  exact hn

end NodeSelector

/-- A candidate has a record and is not excluded. -/
theorem mem_candidateNodes {param : PlaceNodesParam} {n : Node} (h : n ∈ NodeSelector.candidateNodes t param) :
    t.getNode n.id = some n ∧ n.id ∉ param.excludedNodeIds := by
  obtain ⟨hmem, hfree⟩ := List.mem_filter.mp h
  have hentry := (List.mem_filter.mp ((List.mem_insertionSort _).mp hmem)).1
  refine ⟨Keyed.get_eq_some_iff.mpr ⟨hentry, rfl⟩, ?_⟩
  simp only [Bool.and_eq_true, decide_eq_true_eq] at hfree
  exact hfree.2

/-- **The selected nodes** are distinct, and free of members. -/
theorem selected_fits {shard : ShardID} {pool : Bytes} {count : Int} {engine : EngineType}
    {occupied : List NodeID} {st : NodeSelector.Picks}
    (hfits : (Task.gathered shard count pool engine occupied).Fits t) (hnamed : t.getNode [] = none)
    (h : st.Distinct (NodeSelector.candidateNodes t (placeOne pool count occupied))) :
    (Task.placed shard st.nodes engine).Fits t := by
  obtain ⟨group, hgroup, hcovered⟩ := hfits
  have hne : ∀ n ∈ st.nodes, n.id ≠ [] := by
    intro n hn hempty
    have hget := (mem_candidateNodes (h.candidate n hn)).1
    rw [hempty, hnamed] at hget
    cases hget
  refine ⟨h.nodup, hne, group, hgroup, fun id hid n hn hnode => ?_⟩
  exact (mem_candidateNodes (h.candidate n hn)).2 (hcovered id hid n.id hnode (hne n hn))

/-- **Reads** leave a task that fits. -/
theorem Task.read_fits {task' : Task} (hnamed : t.getNode [] = none) (hfits : task.Fits t)
    (h : task.read t = some (some task')) : task'.Fits t := by
  unfold Task.read at h
  split at h
  · exact gatherOccupied_fits (Option.some.inj h)
  · split at h
    · next hselect =>
      obtain ⟨st, hhead, hdistinct⟩ := NodeSelector.selectTableNodes_one hselect
      rw [hhead] at h
      cases h
      exact selected_fits hfits hnamed hdistinct
    · cases h
      obtain ⟨group, hgroup, -⟩ := hfits
      exact ⟨group, hgroup⟩
  · cases h

/-! ## Members, records and nodes over one step -/

/-- A record that stays keeps its node. -/
def KeepsNodes (d d' : DurableData) : Prop :=
  ∀ id, d.standing id ≠ none → d'.standing id ≠ none → d'.nodeOf id = d.nodeOf id

namespace MetaState

variable {s s' : MetaState} {a : MetaAction}

/-- **The living records stay the desired members.** -/
theorem Moves.exact (h : Moves s a s') (hs : Exact s.data.durable) : Exact s'.data.durable := by
  rcases h with ⟨-, helsewhere, -⟩ | ⟨now, p, t, -, hnode⟩ | ⟨-, htidies, -⟩ | ⟨-, -⟩ | ⟨-, -⟩ |
    ⟨now, -, shard, group, victims, hgroup, hvictims, -⟩ | ⟨now, -, shard, nodes, engine, -⟩ | -
  case calls =>
    refine hs.congr helsewhere.groups fun id => ?_
    exact congrArg (fun r : Keyed Replica.replicaId => (r.get id).map _) helsewhere.replicas
  case heard =>
    show Exact (markNoExistReplicas now _ p).durable
    rw [heard_durable hnode]
    exact hs
  case tidies => exact hs.tidies htidies
  case decided => exact hs
  case placing => exact hs
  case retired =>
    have hshard : group.shardId = shard := Keyed.key_of_get hgroup
    have hget : s.txn.durable.replicaGroups.get group.shardId = some group := by
      rw [hshard]
      exact hgroup
    exact Exact.retireMembers (t := s.txn) hs now hget (hshard ▸ hvictims)
  case grown => exact Exact.addMembers (t := s.txn) hs now shard engine nodes
  case restarted => exact hs

/-- Retiring and tidying never make a replica a member. -/
theorem Moves.spread (h : Moves s a s') (hnodes : KeepsNodes s.data.durable s'.data.durable)
    (hexact : Exact s.data.durable) (hfits : ∀ task, s.task = some task → task.Fits s.txn)
    (hs : Spread s.data.durable) : Spread s'.data.durable := by
  have hexact' := h.exact hexact
  -- members of both states keep their nodes
  have hnode : ∀ shard group group', s.data.durable.replicaGroups.get shard = some group →
      s'.data.durable.replicaGroups.get shard = some group' → ∀ id ∈ group.desiredMembers,
      id ∈ group'.desiredMembers → s'.data.durable.nodeOf id = s.data.durable.nodeOf id := by
    intro shard group group' hgroup hgroup' id hid hid'
    have hold := hexact.live shard group hgroup id hid
    have hnew := hexact'.live shard group' hgroup' id hid'
    exact hnodes id (by rw [hold]; exact Option.some_ne_none _) (by rw [hnew]; exact Option.some_ne_none _)
  -- so it is enough that they were members
  have hmembers : (∀ shard group', s'.data.durable.replicaGroups.get shard = some group' →
      ∀ id ∈ group'.desiredMembers, ∃ group, s.data.durable.replicaGroups.get shard = some group ∧
        id ∈ group.desiredMembers) → Spread s'.data.durable := by
    intro hback
    refine hs.of_members fun shard group' hgroup' id hid => ?_
    obtain ⟨group, hgroup, hmem⟩ := hback shard group' hgroup' id hid
    exact ⟨hnode shard group group' hgroup hgroup' id hmem hid, group, hgroup, hmem⟩
  cases h with
  | calls hquiet helsewhere htask =>
    refine hmembers fun shard group' hgroup' id hid => ⟨group', ?_, hid⟩
    exact helsewhere.groups ▸ hgroup'
  | heard now p t haction hheard =>
    refine hmembers fun shard group' hgroup' id hid => ⟨group', ?_, hid⟩
    rw [← heard_durable hheard]
    exact hgroup'
  | tidies hquiet htidies =>
    refine hmembers fun shard group' hgroup' id hid => ?_
    rcases htidies.origin hgroup' with hempty | ⟨group, hget, hsame, -⟩
    · rw [hempty] at hid
      cases hid
    · exact ⟨group, hget, hsame ▸ hid⟩
  | decided => exact hs
  | placing => exact hs
  | retired now haction shard' group victims hgroup =>
    have hshard : group.shardId = shard' := Keyed.key_of_get hgroup
    refine hmembers fun shard group' hgroup' id hid => ?_
    rcases retireMembers_spec now s.txn group victims with hsame | ⟨hgroups, -⟩
    · rw [hsame] at hgroup'
      exact ⟨group', hgroup', hid⟩
    have hg := (hgroups shard).symm.trans hgroup'
    split at hg
    · next heq =>
      cases hg
      exact ⟨group, heq ▸ hshard ▸ hgroup, (List.mem_filter.mp hid).1⟩
    · exact ⟨group', hg, hid⟩
  | grown now haction shard' nodes engine hplaced =>
    -- the nodes were selected for this group, and nothing has touched it since
    obtain ⟨hdistinct, -, group, hgroup, hfree⟩ := hfits _ hplaced
    refine Spread.addMembers (t := s.txn) hs hexact now hdistinct fun g hg => ?_
    rw [hgroup] at hg
    cases hg
    exact hfree
  | restarted => exact hs

/-- A record keeps its node, and a new one has one. -/
theorem Moves.housed (h : Moves s a s') (hnodes : KeepsNodes s.data.durable s'.data.durable)
    (hfits : ∀ task, s.task = some task → task.Fits s.txn) (hs : Housed s.data.durable) :
    Housed s'.data.durable := by
  -- unless members are added, there is no new record
  have hkept : (∀ id, s.data.durable.standing id = none → s'.data.durable.standing id = none) →
      Housed s'.data.durable := by
    intro hnone id hid
    have hstanding' : s'.data.durable.standing id ≠ none := by
      obtain ⟨r, hr, -⟩ := Option.map_eq_some_iff.mp hid
      simp [DurableData.standing, hr]
    have hstanding : s.data.durable.standing id ≠ none := fun h => hstanding' (hnone id h)
    exact hs id (hnodes id hstanding hstanding' ▸ hid)
  cases h with
  | calls hquiet helsewhere htask =>
    refine hkept fun id hnone => ?_
    unfold DurableData.standing at hnone ⊢
    rw [show s'.data.durable.replicas = _ from helsewhere.replicas]
    exact hnone
  | heard now p t haction hnode =>
    refine hkept fun id hnone => ?_
    show (markNoExistReplicas now _ p).durable.standing id = none
    rw [heard_durable hnode]
    exact hnone
  | tidies hquiet htidies =>
    refine hkept fun id hnone => ?_
    rcases htidies.standing id with hsame | ⟨hsome, -⟩
    · rw [hsame]
      exact hnone
    · exact absurd (hsome.symm.trans hnone) (Option.some_ne_none _)
  | decided => exact hs
  | placing => exact hs
  | retired now haction shard group victims =>
    rcases retireMembers_spec now s.txn group victims with hsame | hretires
    · rw [hsame]
      exact hs
    · exact hkept fun id => hretires.known.mpr
  | grown now haction shard nodes engine hplaced =>
    exact Housed.addMembers (t := s.txn) hs now shard engine (hfits _ hplaced).2.1
  | restarted => exact hs

/-- **A task under way** still fits after a step. -/
theorem Moves.fits (h : Moves s a s') (hplaced : Placed s.data.durable) (hnamed : s.txn.getNode [] = none)
    (hfits : ∀ task, s.task = some task → task.Fits s.txn) {task : Task} (htask : s'.task = some task) :
    task.Fits s'.txn := by
  cases h with
  | calls hquiet helsewhere hsame =>
    rcases hsame with hsame | hnone
    · exact (hfits task (hsame ▸ htask)).congr helsewhere.groups helsewhere.replicas
    · rw [hnone] at htask
      cases htask
  | heard now p t haction hnode =>
    have hdurable := heard_durable hnode
    exact (hfits task htask).congr (congrArg DurableData.replicaGroups hdurable)
      (congrArg DurableData.replicas hdurable)
  | tidies hquiet htidies hturns hcatalog hobserved hreports hnone =>
    rw [hnone] at htask
    cases htask
  | decided hquiet shard => exact planned_fits (t := s.txn) hplaced shard htask
  | placing hquiet after hread =>
    obtain ⟨before, hbefore, hread⟩ := hread
    have hafter : after = some task := htask
    subst hafter
    exact Task.read_fits hnamed (hfits before hbefore) hread
  | retired => cases htask
  | grown => cases htask
  | restarted => cases htask

end MetaState

/-! ## Durable data over one step -/

/-- **Durable data moves on.** Counters grow, tables go through their lives, and nothing is put under an id that
was handed out before. -/
structure Follows (d d' : DurableData) : Prop where
  dbCounter : d.dbIdAllocator ≤ d'.dbIdAllocator
  newDbs : ∀ id db, d.databases.get id = none → d'.databases.get id = some db → d.dbIdAllocator ≤ id
  tableCounter : d.tableIdAllocator ≤ d'.tableIdAllocator
  tables : ∀ id table, d.tables.get id = some table → ∃ table', d'.tables.get id = some table' ∧
    table.state.phase.Next table'.state.phase
  newTables : ∀ id table, d.tables.get id = none → d'.tables.get id = some table →
    d.tableIdAllocator ≤ id ∧ table.state.phase = .creating
  records : ∀ id r, d.replicas.get id = some r →
    (∃ r', d'.replicas.get id = some r' ∧ r.state.phase.age ≤ r'.state.phase.age) ∨
    (d'.replicas.get id = none ∧ r.state.phase = .deleted)
  newRecords : ∀ id r, d.replicas.get id = none → d'.replicas.get id = some r → ∃ group,
    d.replicaGroups.get (shardOf id) = some group ∧ group.seqAllocator ≤ id.replicaSeq
  spent : ∀ id, Spent d id → Spent d' id

/-- Nothing has moved. -/
theorem Follows.refl (d : DurableData) : Follows d d := by
  refine ⟨le_rfl, ?_, le_rfl, ?_, ?_, ?_, ?_, fun _ hid => hid⟩
  · intro id db hnone hdb
    rw [hnone] at hdb
    cases hdb
  · exact fun id table htable => ⟨table, htable, .stay _⟩
  · intro id table hnone htable
    rw [hnone] at htable
    cases htable
  · exact fun id r hr => Or.inl ⟨r, hr, le_rfl⟩
  · intro id r hnone hr
    rw [hnone] at hr
    cases hr

/-- A transaction, as far as its writes tell. -/
theorem Since.follows {t₀ t : MetaStoreTxn} {omitted : ReplicaID → Prop} (h : Since t₀ omitted t)
    (hspent : ∀ id, Spent t₀.durable id → Spent t.durable id) : Follows t₀.durable t.durable where
  dbCounter := h.dbCounter
  newDbs := h.newDbs
  tableCounter := h.tableCounter
  tables := h.tables
  newTables := h.newTables
  records := by
    intro id r hr
    rcases h.records id r hr with ⟨r', hr', -, hage, -⟩ | hgone
    · exact Or.inl ⟨r', hr', hage⟩
    · exact Or.inr hgone
  newRecords := fun id r hnone hr => (h.newRecords id r hnone hr).2
  spent := hspent

/-- The catalog is durable data. -/
theorem Catalog.of_durable (h : Catalog t) (hd : t'.durable = t.durable) : Catalog t' := by
  obtain ⟨allocated, dbNames, tableNames, homes, grouped, recorded⟩ := h
  unfold getDatabase getTable getReplicaGroup getReplica at *
  rw [← hd] at *
  exact ⟨allocated, dbNames, tableNames, homes, grouped, recorded⟩

/-- There is nothing to be out of order. -/
theorem catalog_start : Catalog (.start {}) where
  allocated := World.sound_start.allocated
  dbNames := by
    intro id id' db db' hdb
    cases hdb
  tableNames := by
    intro id id' table table' htable
    cases htable
  homes := by
    intro id table htable
    cases htable
  grouped := by
    intro shard group hgroup
    cases hgroup
  recorded := by
    intro id r hr
    cases hr

/-! ## Every state -/

namespace MetaState

/-- The first state. -/
theorem whole_start : Whole {} where
  catalog := catalog_start
  exact := exact_start
  spread := spread_start
  housed := housed_start
  named := rfl
  fits := by
    intro task htask
    cases htask

variable {s s' : MetaState} {c : Call}

/-- What a call writes it writes for a reason. -/
theorem Whole.func_writes (hs : s.Whole) {f : WriteFunc} (hf : c.func s = some f) :
    Writes s.txn (c.omits s.txn) s.txn (f s.txn).2 :=
  Call.writes hs.catalog hf hs.exact.toPlaced fun task htask => (hs.fits task htask).grounded

/-- **A call** that is a step publishes what its writes left. -/
theorem Whole.writes (hs : s.Whole) (h : step (.call c) s = some s') :
    ∃ t', Writes s.txn (c.omits s.txn) s.txn t' ∧ s'.data = t'.finish := by
  obtain ⟨f, hf, -, rfl⟩ := step_call h
  exact ⟨_, hs.func_writes hf, rfl⟩

variable {a : MetaAction}

/-- A step without a call writes nothing, and a restart forgets what is not durable. -/
theorem step_data (ha : ∀ c, a ≠ .call c) (h : step a s = some s') :
    s'.data = s.data ∨ s'.data = .loaded s.data.durable := by
  cases a with
  | call c => exact absurd rfl (ha c)
  | decide shard =>
    simp only [step] at h
    split at h <;> cases h
    exact Or.inl rfl
  | read =>
    obtain ⟨task, -, rfl⟩ := Option.map_eq_some_iff.mp h
    exact Or.inl rfl
  | abandon =>
    cases h
    exact Or.inl rfl
  | restart =>
    cases h
    exact Or.inr rfl

/-- **One step** keeps all of it. -/
theorem step_whole (hs : s.Whole) (h : step a s = some s') : s'.Whole := by
  have hmoves := Moves.of_step hs h
  have hexact := hmoves.exact hs.exact
  have hfits : ∀ task, s'.task = some task → task.Fits s'.txn := fun task htask =>
    hmoves.fits hs.exact.toPlaced hs.named hs.fits htask
  by_cases ha : ∃ c, a = .call c
  · obtain ⟨c, rfl⟩ := ha
    obtain ⟨t', hwrites, hdata⟩ := hs.writes h
    have hdurable : s'.data.durable = t'.durable := congrArg MetaSnapshot.durable hdata
    -- which node a record names can be told from the writes alone
    have hnodes : KeepsNodes s.data.durable s'.data.durable := by
      rw [hdurable]
      exact fun id hold hnew => hwrites.since.nodeOf hold hnew
    refine ⟨(hs.catalog.writes hwrites).of_durable hdurable, hexact,
      hmoves.spread hnodes hs.exact hs.fits hs.spread, hmoves.housed hnodes hs.fits hs.housed, ?_, hfits⟩
    unfold txn
    rw [hdata]
    exact hwrites.named hs.named
  · rcases step_data (fun c hc => ha ⟨c, hc⟩) h with hdata | hdata
    · have htxn : s'.txn = s.txn := congrArg MetaStoreTxn.start hdata
      refine ⟨htxn ▸ hs.catalog, hexact, ?_, ?_, htxn ▸ hs.named, hfits⟩
      · rw [hdata]
        exact hs.spread
      · rw [hdata]
        exact hs.housed
    · have hdurable : s'.data.durable = s.data.durable := by
        rw [hdata]
        rfl
      refine ⟨hs.catalog.of_durable hdurable, hexact, hdurable ▸ hs.spread, hdurable ▸ hs.housed, ?_, hfits⟩
      unfold txn
      rw [hdata]
      rfl

/-- **Durable data** over one step. -/
theorem step_follows (hs : s.Whole) (h : step a s = some s') :
    Follows s.data.durable s'.data.durable := by
  by_cases ha : ∃ c, a = .call c
  · obtain ⟨c, rfl⟩ := ha
    obtain ⟨t', hwrites, hdata⟩ := hs.writes h
    have hdurable : s'.data.durable = t'.durable := congrArg MetaSnapshot.durable hdata
    have hspent : ∀ id, Spent s.data.durable id → Spent t'.durable id := fun id hid =>
      hdurable ▸ (Moves.of_step hs h).spent hid
    rw [hdurable]
    exact hwrites.since.follows hspent
  · rcases step_data (fun c hc => ha ⟨c, hc⟩) h with hdata | hdata
    · rw [hdata]
      exact .refl _
    · rw [hdata]
      exact .refl _

end MetaState

end AdvisKV.Meta
