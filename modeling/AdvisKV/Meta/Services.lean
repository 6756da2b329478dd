import AdvisKV.Meta.Writes
import Mathlib.Data.List.Sigma

/-!
# AdvisKV — the transactions of the services

One lemma for every function that a service or a reconciler hands to `write_with`: it makes only writes for
which there is a reason in the sense of `Op.Fits`. Most functions look at one record and write it back; those
that walk over records or shards need that a record they read is still the same when they come to it.

Main result:

* `Call.writes` — every call.
-/

namespace AdvisKV.Meta

open MetaStoreTxn

variable {t₀ t : MetaStoreTxn} {omitted : ReplicaID → Prop}

namespace MetaStoreTxn.Runs

variable {P : Op → MetaStoreTxn → Prop}

theorem one (op : Op) (hop : P op t) : Runs P t (op.run t) :=
  Relation.ReflTransGen.single ⟨op, hop, rfl⟩

theorem trans {t₁ t₂ : MetaStoreTxn} (h : Runs P t t₁) (h' : Runs P t₁ t₂) : Runs P t t₂ :=
  Relation.ReflTransGen.trans h h'

/-- **Walking over a list.** The invariant may speak of the rest of the list. -/
theorem foldl {α : Type} {f : MetaStoreTxn → α → MetaStoreTxn} (Inv : List α → MetaStoreTxn → Prop)
    (hstep : ∀ a as t, Inv (a :: as) t → Runs P t (f t a) ∧ Inv as (f t a)) {as : List α}
    (h : Inv as t) : Runs P t (as.foldl f t) := by
  induction as generalizing t with
  | nil => exact .refl
  | cons a as ih =>
    obtain ⟨hwrites, hrest⟩ := hstep a as t h
    exact hwrites.trans (ih hrest)

/-- Walking over a list when each step writes whatever was written before it. -/
theorem forEach {α : Type} {f : MetaStoreTxn → α → MetaStoreTxn} (hstep : ∀ t a, Runs P t (f t a))
    (as : List α) (t : MetaStoreTxn) : Runs P t (as.foldl f t) :=
  foldl (fun _ _ => True) (fun a _ t _ => ⟨hstep t a, trivial⟩) trivial

/-- A service that fails hands back the transaction it got. -/
theorem answer {α : Type} {f : MetaStoreTxn → Except Status (α × MetaStoreTxn)}
    (hf : ∀ a t', f t = .ok (a, t') → Runs P t t') : Runs P t (WriteFunc.answer f t).2 := by
  unfold WriteFunc.answer
  split
  · exact .refl
  · next a t' heq => exact hf a t' heq

/-- A request that its check refuses writes nothing. -/
theorem valid {st : Status} {f : WriteFunc} (hf : st.fail = false → Runs P t (f t).2) :
    Runs P t (WriteFunc.valid st f t).2 := by
  unfold WriteFunc.valid
  split
  · exact .refl
  · next hst => exact hf (by simpa using hst)

end MetaStoreTxn.Runs

/-- Only the reasons for an observation depend on who was omitted. -/
theorem Edits.writes {t' : MetaStoreTxn} (h : Edits t₀ t t') : Writes t₀ omitted t t' := by
  refine Relation.ReflTransGen.mono ?_ t t' h
  rintro t _ ⟨op, ⟨hfits, helsewhere⟩, rfl⟩
  refine ⟨op, ?_, rfl⟩
  cases op with
  | putReplicaObserved => cases helsewhere
  | _ => exact hfits

/-! ## Databases and tables -/

variable {p : RegisterNodeParam} {t' : MetaStoreTxn} {now : Int} {table : Table} {shard : ShardID}
  {group : ReplicaGroup} {f : WriteFunc}

/-- The id is new, and the name was free. -/
theorem createDb_edits (h : Catalog t) {p : CreateDBParam} {db : Database}
    (hcall : DdlService.createDb p t = .ok (db, t')) : Edits t t t' := by
  unfold DdlService.createDb at hcall
  split at hcall <;> cases hcall
  next hfree =>
  have hfree : t.getDatabaseByName p.dbName = none := by simpa using hfree
  have halloc : Edits t t t.allocateDbId.2 := .one .allocateDbId ⟨trivial, rfl⟩
  refine halloc.trans (.one (.putDatabase _) ⟨⟨le_rfl, Int.lt_succ_self _, ?_, ?_⟩, rfl⟩)
  · exact Keyed.get_eq_none_iff.mpr fun old hold => (h.allocated.databases old hold).ne
  · exact fun id other hother => getDatabaseByName_none hfree hother

/-- No live table is left in a database that is dropped. -/
theorem dropDb_edits {p : DropDBParam} {db : Database} (hcall : DdlService.dropDb p t = .ok (db, t')) :
    Edits t t t' := by
  unfold DdlService.dropDb at hcall
  split at hcall
  · cases hcall
  split at hcall <;> cases hcall
  next hunused =>
  refine .one (.deleteDatabase _) ⟨fun id table htable hlive heq => hunused ?_, rfl⟩
  rw [List.any_eq_true]
  exact ⟨table, Keyed.mem_of_get htable, by simpa using ⟨heq, hlive⟩⟩

/-- A table whose name is taken by one of the same shape is answered and not written. -/
theorem createTable_edits (h : Catalog t) {p : CreateTableParam}
    (hcall : DdlService.createTable now p t = .ok (table, t')) :
    Edits t t t' := by
  unfold DdlService.createTable at hcall
  split at hcall
  · cases hcall
  next db hdb =>
  obtain ⟨hdb, hname⟩ := getDatabaseByName_some hdb
  rw [getTableByName_filter] at hcall
  split at hcall
  · split at hcall
    · cases hcall
    · split at hcall <;> cases hcall
      exact .refl
  next hfree =>
  cases hcall
  -- only a live table takes its name, so a dropped one may keep its record
  have halloc : Edits t t t.allocateTableId.2 := .one .allocateTableId ⟨trivial, rfl⟩
  refine halloc.trans (.one (.putTable _) ⟨Or.inl ⟨⟨le_rfl, Int.lt_succ_self _⟩, ?_, rfl,
    ⟨db, hdb, rfl⟩, ?_⟩, rfl⟩)
  · exact Keyed.get_eq_none_iff.mpr fun old hold => (h.allocated.tables old hold).ne
  · intro id other hother hlive
    show other.nameKey ≠ (db.name, p.tableName)
    rw [hname]
    exact getTableByName_none hfree hother hlive

/-- Writing a table of the transaction back with a phase that may come next. -/
theorem nextTable_edits {id : Int} {table' : Table} (hget : t.getTable id = some table)
    (hid : table'.tableId = table.tableId) (hkey : table'.nameKey = table.nameKey)
    (hdb : table'.spec.dbId = table.spec.dbId) (hranges : table'.spec.shardRanges = table.spec.shardRanges)
    (hlive : table.state.phase ≠ .deleted) (hnext : table.state.phase.Next table'.state.phase)
    (hgone : table'.state.phase = .deleted → ∀ r ∈ table'.spec.shardRanges,
      t.getReplicaGroup ⟨table'.tableId, r.shardIndex⟩ = none) :
    Edits t t (t.putTable table') := by
  have hold : t.getTable table'.tableId = some table := by
    rw [hid, Catalog.tableId_of_getTable hget]
    exact hget
  exact .one (.putTable table')
    ⟨Or.inr ⟨⟨table, hold, hold, hlive, hnext, hkey, hdb, hranges⟩, hgone⟩, rfl⟩

/-- Any phase may turn into DELETING but DELETING and DELETED. -/
theorem dropTable_edits {p : DropTableByNameParam} (hcall : DdlService.dropTable now p t = .ok (table, t')) :
    Edits t t t' := by
  unfold DdlService.dropTable at hcall
  split at hcall
  · cases hcall
  rw [getTableByName_filter] at hcall
  split at hcall
  · cases hcall
  next table hfound =>
  obtain ⟨hget, hlive, -⟩ := getTableByName_some hfound
  split at hcall <;> cases hcall
  · exact .refl
  · next hnot =>
    refine nextTable_edits hget rfl rfl rfl rfl hlive (.drop ?_) nofun
    cases hphase : table.state.phase with
    | deleting => exact absurd hphase hnot
    | deleted => exact absurd hphase hlive
    | _ => rfl

/-- Only a READY table is resized. -/
theorem alterTable_edits {p : AlterTableReplicaCountParam}
    (hcall : DdlService.alterTableReplicaCount now p t = .ok (table, t')) : Edits t t t' := by
  unfold DdlService.alterTableReplicaCount at hcall
  split at hcall
  · cases hcall
  rw [getTableByName_filter] at hcall
  split at hcall
  · cases hcall
  next table hfound =>
  obtain ⟨hget, hlive, -⟩ := getTableByName_some hfound
  split at hcall
  · split at hcall <;> cases hcall
    exact .refl
  split at hcall
  · cases hcall
  next hready =>
  split at hcall <;> cases hcall
  · exact .refl
  · exact nextTable_edits hget rfl rfl rfl rfl hlive (by rw [not_not.mp hready]; exact .resize) nofun

/-- A table that is being created or resized becomes READY, or stays as it is. -/
theorem finalizeTable_edits (now : Int) (t : MetaStoreTxn) (tableId : Int) :
    Edits t t (finalizeTable now t tableId) := by
  unfold finalizeTable
  split
  · exact .refl
  next table hget =>
  split
  · exact .refl
  next hphase =>
  split
  · exact .refl
  have hphase : table.state.phase = .creating ∨ table.state.phase = .resizing := by tauto
  have hlive : table.state.phase ≠ .deleted := by
    rcases hphase with h | h <;> rw [h] <;> exact nofun
  -- the record is written back in either case
  refine nextTable_edits hget rfl rfl rfl rfl hlive ?_ ?_
  · show table.state.phase.Next (if _ then _ else _)
    split
    · rcases hphase with h | h
      · exact h ▸ .created
      · exact h ▸ .resized
    · exact .stay _
  · show (if _ then _ else _) = TablePhase.deleted → _
    split
    · exact nofun
    · exact fun h => absurd h hlive

/-- A table is DELETED only when none of its shards has a group. -/
theorem finalizeAbsentTable_edits (now : Int) (t : MetaStoreTxn) (tableId : Int) :
    Edits t t (finalizeAbsentTable now t tableId) := by
  unfold finalizeAbsentTable
  split
  · exact .refl
  next table hget =>
  split
  · exact .refl
  next hphase =>
  have hphase : table.state.phase = .deleting := not_not.mp hphase
  refine nextTable_edits hget rfl rfl rfl rfl (by rw [hphase]; exact nofun) ?_ ?_
  · show table.state.phase.Next (if _ then _ else _)
    rw [hphase]
    split
    · exact .gone
    · exact .stay _
  · show (if _ then _ else _) = TablePhase.deleted → _
    split
    · next hgone =>
      intro _ r hr
      have hshard := List.all_eq_true.mp hgone r hr
      simp only [Bool.and_eq_true, Option.isNone_iff_eq_none] at hshard
      exact hshard.2
    · exact nofun

/-- The note that no nodes were found goes to a table that has a group, so it is not DELETED. -/
theorem noteRefusal_edits (h : Catalog t) (now : Int) (hgroup : t.getReplicaGroup shard = some group)
    (reason : String) :
    Edits t t (noteRefusal now t shard reason) := by
  unfold noteRefusal
  split
  · exact .refl
  next table hget =>
  split
  · exact .refl
  obtain ⟨table', htable', hlive, -⟩ := h.grouped shard group hgroup
  rw [hget] at htable'
  cases htable'
  exact nextTable_edits hget rfl rfl rfl rfl hlive (.stay _) fun hgone => absurd hgone hlive

/-! ## Nodes, routes and heartbeats -/

/-- Putting a node back. -/
theorem putNode_edits {id : NodeID} {node node' : Node} (hget : t.getNode id = some node)
    (hid : node'.id = node.id) : Edits t₀ t (t.putNode node') := by
  have hkey : node'.id = id := hid.trans (Keyed.key_of_get hget)
  refine .one (.putNode node') ⟨Or.inr ?_, rfl⟩
  rw [hkey, hget]
  exact Option.some_ne_none _

/-- A node registers with a name. -/
theorem registerNode_edits (now : Int) (t : MetaStoreTxn) (hname : p.nodeId ≠ []) :
    Edits t₀ t (registerNode now t p) := by
  unfold registerNode
  split
  · exact .one (.putNode _) ⟨Or.inl hname, rfl⟩
  · next hget => exact putNode_edits hget rfl

/-- A check for silence keeps the record of the node, whatever it says. -/
theorem checkNode_edits (startTs now : Int) (t : MetaStoreTxn) (id : NodeID) :
    Edits t₀ t (checkNode startTs now t id) := by
  unfold checkNode
  split
  · exact .refl
  · next hget =>
    dsimp only
    split
    · exact .refl
    · exact putNode_edits hget rfl

theorem checkNodes_edits (startTs now : Int) (t : MetaStoreTxn) (ids : List NodeID) :
    Edits t₀ t (ids.foldl (checkNode startTs now) t) :=
  .forEach (checkNode_edits startTs now) ids t

/-- Routes need no reason: the route check writes or deletes one. -/
theorem checkShardRoute_edits (t : MetaStoreTxn) (shard : ShardID) :
    Edits t₀ t (checkShardRoute t shard) := by
  have hdelete : Edits t₀ t (t.deleteShardRoute shard) := .one (.deleteShardRoute shard) ⟨trivial, rfl⟩
  unfold checkShardRoute
  split
  · exact hdelete
  · split
    · exact hdelete
    · dsimp only
      split
      · exact .one (.putShardRoute _) ⟨trivial, rfl⟩
      · exact hdelete

/-- The heartbeat comes from the node of the replica, which is DELETING, and does not list it. -/
def Omits (t : MetaStoreTxn) (p : HeartBeatParam) (id : ReplicaID) : Prop :=
  ∃ r, t.getReplica id = some r ∧ r.spec.assignNodeId = p.nodeId ∧ r.state.phase = .deleting ∧
    id ∉ p.replicaList.map HeartBeatReplicaInfo.replicaId

/-- The node's own record is all that the first part of a heartbeat writes. -/
theorem updateNodeHeartbeat_writes {p : HeartBeatParam} (h : updateNodeHeartbeat now t p = .ok t') :
    Writes t₀ omitted t t' := by
  unfold updateNodeHeartbeat at h
  split at h
  · cases h
  · next hget =>
    dsimp only at h
    split at h <;> cases h <;> exact Edits.writes (putNode_edits hget rfl)

/-- The leader's list changes the member type of an observation, not what it says about being gone. -/
theorem projectMember_writes (now : Int) (shard : ShardID) (members : List RaftMember) (t : MetaStoreTxn)
    (id : ReplicaID) : Writes t₀ omitted t (projectMember now shard members t id) := by
  unfold projectMember
  dsimp only
  split
  · exact .refl
  split
  · next o hobserved =>
    split
    · exact .refl
    · refine .one (.putReplicaObserved id _) fun hgone => Or.inr ?_
      rw [noExist, hobserved]
      exact hgone
  · exact .one (.putReplicaObserved id _) fun hgone => Bool.noConfusion hgone

/-- A leader's list is noted for each desired member and then as a whole. -/
theorem projectLeaderMembership_writes (now : Int) (t : MetaStoreTxn) (info : HeartBeatReplicaInfo) :
    Writes t₀ omitted t (projectLeaderMembership now t info) := by
  unfold projectLeaderMembership
  split
  · exact .refl
  split
  · exact .refl
  next group _ =>
  split
  · exact .refl
  split
  · exact .refl
  have hmembers : Writes t₀ omitted t (group.desiredMembers.foldl
      (projectMember now group.shardId info.fullMembership) t) :=
    .forEach (projectMember_writes now _ _) _ t
  exact hmembers.trans (.one (.putMembershipObserved _ _) trivial)

/-- A replica that reports is there. -/
theorem applyReportedReplica_writes (now : Int) (p : HeartBeatParam) (t : MetaStoreTxn)
    (info : HeartBeatReplicaInfo) : Writes t₀ omitted t (applyReportedReplica now p t info) := by
  unfold applyReportedReplica
  split
  · exact .refl
  split
  · exact .refl
  dsimp only
  split
  · exact .refl
  split
  · refine .trans ?_ (projectLeaderMembership_writes now _ info)
    exact .one (.putReplicaObserved _ _) nofun
  · exact .one (.putReplicaObserved _ _) nofun

/-- A replica that is taken for gone was omitted, by the node it is assigned to. -/
theorem markNoExist_writes {p : HeartBeatParam} (t : MetaStoreTxn) {r : Replica}
    (hr : t₀.getReplica r.replicaId = some r) (hnode : r.spec.assignNodeId = p.nodeId) :
    Writes t₀ (Omits t₀ p) t (markNoExist now p t r) := by
  unfold markNoExist
  split
  · exact .refl
  next hreported =>
  split
  · exact .refl
  next hphase =>
  exact .one (.putReplicaObserved _ _) fun _ => Or.inl ⟨r, hr, hnode, not_not.mp hphase, hreported⟩

/-- **Heartbeats** write observations, and take a replica for gone only when they omit it. -/
theorem heartbeat_writes (now : Int) (p : HeartBeatParam) (t : MetaStoreTxn) :
    Writes t (Omits t p) t (heartbeatTxn now p t).2 := by
  unfold heartbeatTxn
  split
  · exact .refl
  next t₁ hnode =>
  have happly : Writes t (Omits t p) t₁ (applyReportedReplicas now t₁ p) :=
    .forEach (applyReportedReplica_writes now p) _ t₁
  refine (updateNodeHeartbeat_writes hnode).trans (happly.trans ?_)
  -- the reports before it are no reason to look at other records
  have hdurable : (applyReportedReplicas now t₁ p).durable = t.durable :=
    (applyReportedReplicas_durable now p t₁).trans (updateNodeHeartbeat_spec hnode).1
  refine .foldl (fun rs _ => ∀ r ∈ rs, t.getReplica r.replicaId = some r ∧
    r.spec.assignNodeId = p.nodeId) ?_ ?_
  · intro r rs t₂ hall
    obtain ⟨hr, hassigned⟩ := hall r List.mem_cons_self
    exact ⟨markNoExist_writes t₂ hr hassigned, fun r' hr' => hall r' (List.mem_cons_of_mem _ hr')⟩
  · intro r hr
    unfold listReplicasByNode at hr
    split at hr
    · cases hr
    · obtain ⟨hmem, hassigned⟩ := List.mem_filter.mp hr
      rw [hdurable] at hmem
      exact ⟨Keyed.get_eq_some_iff.mpr ⟨hmem, rfl⟩, of_decide_eq_true hassigned⟩

/-! ## Groups -/

/-- Writing a group of the transaction back with a counter that was not lowered. -/
theorem putReplicaGroup_writes {group' : ReplicaGroup} (hget : t.getReplicaGroup shard = some group)
    (hshard : group'.shardId = group.shardId) :
    Writes t₀ omitted t (t.putReplicaGroup group') := by
  refine .one (.putReplicaGroup group') (Or.inl ⟨group, ?_⟩)
  rw [hshard, Keyed.key_of_get hget]
  exact hget

/-- A new group is one of a table that is not being dropped. -/
theorem ensureGroupForShard_writes {tableId shardIndex : Int} (htable : t.getTable tableId = some table)
    (hrange : shardIndex ∈ table.spec.shardRanges.map ShardRange.shardIndex) :
    Writes t omitted t (ensureGroupForShard t tableId shardIndex) := by
  unfold ensureGroupForShard
  rw [htable]
  dsimp only
  split
  · exact .refl
  next hpresent =>
  split
  · exact .one (.putReplicaGroup _) (Or.inr ⟨table, htable, Bool.eq_false_of_not_eq_true hpresent, hrange⟩)
  · next group hgroup =>
    split
    · exact putReplicaGroup_writes hgroup rfl
    · exact .refl

/-- A group is deleted only when no replica of the shard has a record. -/
theorem reconcileAbsentShard_writes (t : MetaStoreTxn) (shard : ShardID) :
    Writes t₀ omitted t (reconcileAbsentShard t shard) := by
  unfold reconcileAbsentShard
  split
  · exact .refl
  next group hgroup =>
  split
  · exact putReplicaGroup_writes hgroup rfl
  split
  · next hempty =>
    refine .one (.deleteReplicaGroup shard) fun id hid => ?_
    refine Keyed.get_eq_none_iff.mpr fun r hr hkey => ?_
    have hmem : r ∈ t.listReplicasByShard shard :=
      List.mem_filter.mpr ⟨hr, decide_eq_true (hkey ▸ hid)⟩
    rw [hempty.2] at hmem
    cases hmem
  · exact .refl

theorem reconcileAbsentTable_writes (t : MetaStoreTxn) (tableId : Int) :
    Writes t omitted t (reconcileAbsentTable t tableId) := by
  unfold reconcileAbsentTable
  split
  · exact .refl
  split
  · exact .refl
  · exact .forEach reconcileAbsentShard_writes _ t

/-! ## Records -/

/-- **Projected phases** never lead back, and to DELETED only from DELETING once the replica is gone. -/
theorem projectPhase_next (t : MetaStoreTxn) (r : Replica) (observed : Option ReplicaObserved)
    (hchanges : projectPhase t r observed ≠ r.state.phase) :
    r.state.phase.age ≤ (projectPhase t r observed).age ∧ (projectPhase t r observed = .deleted →
      r.state.phase = .deleting ∧ observed.any ReplicaObserved.noExist = true) := by
  by_cases hdeleted : r.state.phase = .deleted
  · simp [projectPhase, hdeleted] at hchanges
  by_cases hdeleting : r.state.phase = .deleting
  · by_cases hgone : observed.any ReplicaObserved.noExist = true
    · simp [projectPhase, hdeleting, hgone, ReplicaPhase.age]
    · simp [projectPhase, hdeleting, hgone] at hchanges
  · -- a live phase only turns into another live one
    have hage : r.state.phase.age = 0 := by
      cases h : r.state.phase <;> first | rfl | exact absurd h hdeleted | exact absurd h hdeleting
    refine ⟨hage ▸ Nat.zero_le _, fun hnext => ?_⟩
    exfalso
    simp only [projectPhase, if_neg hdeleted, if_neg hdeleting] at hnext
    split at hnext
    · cases hnext
    split at hnext
    · exact hdeleted hnext
    split at hnext
    · cases hnext
    split at hnext
    · cases hnext
    split at hnext
    · exact hdeleted hnext
    split at hnext <;> cases hnext

theorem getReplica_putReplica (t : MetaStoreTxn) (r : Replica) (id : ReplicaID) :
    (t.putReplica r).getReplica id = if r.replicaId = id then some r else t.getReplica id :=
  Keyed.get_put _ _ _

/-- The walk over all records: each phase changes at most once. -/
theorem reconcilePhases_writes (now : Int) (t : MetaStoreTxn) :
    Writes t omitted t (reconcilePhases now t) := by
  -- every record that is still to come is as it was, and so are the observations
  refine .foldl (fun rs t' => (rs.map Replica.replicaId).Nodup ∧ (∀ r ∈ rs,
    t.getReplica r.replicaId = some r ∧ t'.getReplica r.replicaId = some r) ∧ t'.runtime = t.runtime)
    ?_ ⟨t.durable.replicas.nodup, ?_, rfl⟩
  · rintro r rs t' ⟨hdistinct, hall, hruntime⟩
    obtain ⟨hr, hr'⟩ := hall r List.mem_cons_self
    rw [List.map_cons, List.nodup_cons] at hdistinct
    unfold reconcileReplicaPhase
    dsimp only
    split
    · exact ⟨.refl, hdistinct.2, fun x hx => hall x (List.mem_cons_of_mem _ hx), hruntime⟩
    next hchanges =>
    obtain ⟨hage, hgone⟩ := projectPhase_next t' r _ hchanges
    refine ⟨.one (.putReplica _) ⟨r, hr, hr', rfl, hage, fun hdeleted => ?_⟩, hdistinct.2, fun x hx => ?_,
      hruntime⟩
    · obtain ⟨hphase, hnone⟩ := hgone hdeleted
      refine ⟨hphase, ?_⟩
      rw [getReplicaObserved, hruntime] at hnone
      exact hnone
    · obtain ⟨hx₀, hx'⟩ := hall x (List.mem_cons_of_mem _ hx)
      refine ⟨hx₀, ?_⟩
      rw [getReplica_putReplica, if_neg]
      · exact hx'
      · exact fun heq => hdistinct.1 (heq ▸ List.mem_map_of_mem hx)
  · intro r hr
    have hget : t.getReplica r.replicaId = some r := Keyed.get_eq_some_iff.mpr ⟨hr, rfl⟩
    exact ⟨hget, hget⟩

/-- Retired records go from a live phase to DELETING. -/
theorem retireMembers_writes (now : Int) (hgroup : t.getReplicaGroup shard = some group)
    (victims : List ReplicaID) :
    Writes t omitted t (retireMembers now t group victims) := by
  unfold retireMembers
  split
  · exact .refl
  dsimp only
  split
  · exact .refl
  have hretired : Writes t omitted t (victims.foldl (retireReplica now) t) := by
    -- a record that still lives is as it was
    refine .foldl (fun _ t' => ∀ id r, t'.getReplica id = some r → r.state.phase.isAbsent = false →
      t.getReplica id = some r) ?_ fun _ _ hr _ => hr
    intro victim _ t' hlive
    unfold retireReplica
    split
    · exact ⟨.refl, hlive⟩
    next r hr =>
    split
    · exact ⟨.refl, hlive⟩
    next hphase =>
    have hphase : r.state.phase.isAbsent = false := Bool.eq_false_of_not_eq_true hphase
    have hage : r.state.phase.age ≤ 1 := by
      cases h : r.state.phase with
      | deleting | deleted => simp [h, ReplicaPhase.isAbsent] at hphase
      | _ => exact Nat.zero_le 1
    have hkey : r.replicaId = victim := Keyed.key_of_get hr
    refine ⟨.one (.putReplica _) ⟨r, ?_, ?_, rfl, hage, ?_⟩, ?_⟩
    · rw [hkey]
      exact hlive victim r hr hphase
    · rw [hkey]
      exact hr
    · intro hready
      cases hready
    · intro id r' hr' hlive'
      rw [getReplica_putReplica] at hr'
      split at hr'
      · cases hr'
        cases hlive'
      · exact hlive id r' hr' hlive'
  -- retiring the records leaves the group, which is written last
  have hgroup' : (victims.foldl (retireReplica now) t).getReplicaGroup shard = some group := by
    unfold getReplicaGroup
    rw [(retireAll_spec now victims t).groups]
    exact hgroup
  exact hretired.trans (putReplicaGroup_writes hgroup' rfl)

/-- Victims are chosen among the desired members. -/
theorem mem_of_mem_victims {group : ReplicaGroup} {count : Int} {filterHealthy : Bool} {id : ReplicaID}
    (h : id ∈ selectRemoveMemberVictims t group count filterHealthy) :
    id ∈ group.desiredMembers := by
  unfold selectRemoveMemberVictims at h
  split at h
  · cases h
  obtain ⟨⟨rank, id'⟩, hmem, rfl⟩ := List.mem_map.mp h
  have hranked := List.mem_insertionSort _ |>.mp (List.mem_of_mem_take hmem)
  have hmap : ∀ x ∈ group.desiredMembers.map fun id =>
      (removeVictimClass (t.getReplica id) (t.getReplicaObserved id), id), x.2 ∈ group.desiredMembers := by
    intro x hx
    obtain ⟨id, hid, rfl⟩ := List.mem_map.mp hx
    exact hid
  split at hranked
  · exact hmap _ (List.mem_filter.mp hranked).1
  · exact hmap _ hranked

/-- Both ways to remove members end in `retireMembers`. -/
theorem removeMembers_eq (now : Int) (t : MetaStoreTxn) (shard : ShardID) (count : Int) :
    removeMembers now t shard count = t ∨ ∃ group victims,
      t.durable.replicaGroups.get shard = some group ∧ (∀ id ∈ victims, id ∈ group.desiredMembers) ∧
      removeMembers now t shard count = retireMembers now t group victims := by
  unfold removeMembers
  rcases hget : t.getReplicaGroup shard with _ | group
  · exact Or.inl rfl
  dsimp only
  split
  · exact Or.inl rfl
  · exact Or.inr ⟨group, _, hget, fun _ hid => mem_of_mem_victims hid, rfl⟩

theorem removeSpecificMembers_eq (now : Int) (t : MetaStoreTxn) (shard : ShardID)
    (victims : List ReplicaID) :
    removeSpecificMembers now t shard victims = t ∨ ∃ group,
      t.durable.replicaGroups.get shard = some group ∧
      removeSpecificMembers now t shard victims = retireMembers now t group victims := by
  unfold removeSpecificMembers
  split
  · exact Or.inl rfl
  rcases hget : t.getReplicaGroup shard with _ | group
  · exact Or.inl rfl
  · exact Or.inr ⟨group, hget, rfl⟩

theorem removeMembers_writes (now : Int) (t : MetaStoreTxn) (shard : ShardID) (count : Int) :
    Writes t omitted t (removeMembers now t shard count) := by
  rcases removeMembers_eq now t shard count with hsame | ⟨group, victims, hgroup, -, heq⟩
  · rw [hsame]
    exact .refl
  · rw [heq]
    exact retireMembers_writes now hgroup victims

theorem removeSpecificMembers_writes (now : Int) (t : MetaStoreTxn) (shard : ShardID)
    (victims : List ReplicaID) : Writes t omitted t (removeSpecificMembers now t shard victims) := by
  rcases removeSpecificMembers_eq now t shard victims with hsame | ⟨group, hgroup, heq⟩
  · rw [hsame]
    exact .refl
  · rw [heq]
    exact retireMembers_writes now hgroup victims

/-- Only records that are DELETED are removed. -/
theorem cleanupGroup_writes (t : MetaStoreTxn) (shard : ShardID) :
    Writes t omitted t (cleanupGroup t shard) := by
  unfold cleanupGroup
  split
  · exact .refl
  next group hgroup =>
  set gone := (t.listReplicasByShard shard).filter fun r => r.state.phase = .deleted with hgone
  have hdeleted : Writes t omitted t ((gone.map Replica.replicaId).foldl deleteReplica t) := by
    refine .foldl (fun ids _ => ∀ id ∈ ids, ∃ old, t.getReplica id = some old ∧
      old.state.phase = .deleted) ?_ ?_
    · intro id ids t' hall
      exact ⟨.one (.deleteReplica id) (hall id List.mem_cons_self),
        fun id' hid' => hall id' (List.mem_cons_of_mem _ hid')⟩
    · intro id hid
      obtain ⟨r, hr, rfl⟩ := List.mem_map.mp hid
      rw [hgone, List.mem_filter] at hr
      exact ⟨r, Keyed.get_eq_some_iff.mpr ⟨(List.mem_filter.mp hr.1).1, rfl⟩, of_decide_eq_true hr.2⟩
  have hgroup' : ((gone.map Replica.replicaId).foldl deleteReplica t).getReplicaGroup shard = some group := by
    unfold getReplicaGroup
    rw [(deleteAll_spec (gone.map Replica.replicaId) t).1]
    exact hgroup
  dsimp only
  -- the group is written back if its lists have changed
  repeat' split
  all_goals first | exact hdeleted.trans (putReplicaGroup_writes hgroup' rfl) | exact hdeleted

/-- Each of the new replicas has a number of its own. -/
theorem newReplicas_nodup (shard : ShardID) (engine : EngineType) (seq : Int) (nodes : List Node) :
    ((newReplicas shard engine seq nodes).map fun p => p.1.replicaId).Nodup := by
  have hids : ((newReplicas shard engine seq nodes).map fun p => p.1.replicaId) =
      (nodes.zipIdx.map Prod.snd).map fun i => ⟨shard.tableId, shard.shardIndex, seq + (i : Int)⟩ := by
    simp only [newReplicas, List.map_map]
    rfl
  rw [hids]
  refine (List.nodup_zipIdx_map_snd nodes).map fun i j hij => ?_
  have hseq := congrArg ReplicaID.replicaSeq hij
  simpa using hseq

/-- **New members** get numbers that no record of the group has. -/
theorem addMembers_writes (hplaced : Placed t.durable) (now : Int) (shard : ShardID) (engine : EngineType)
    (nodes : List Node) : Writes t omitted t (addMembers now t shard engine nodes) := by
  unfold addMembers
  split
  · exact .refl
  next group hgroup =>
  split
  · exact .refl
  have hshard : group.shardId = shard := Keyed.key_of_get hgroup
  set fresh := newReplicas shard engine group.seqAllocator nodes with hfresh
  have hrecords : Writes t omitted t (t.putReplicas (fresh.map Prod.fst)) := by
    refine .one (.putReplicas _) ⟨?_, ?_⟩
    · rw [List.map_map]
      exact newReplicas_nodup shard engine group.seqAllocator nodes
    · intro r hr
      obtain ⟨x, hx, rfl⟩ := List.mem_map.mp hr
      obtain ⟨hown, hle, -, -⟩ := mem_newReplicas hx
      refine ⟨?_, ?_, group, by rw [hown]; exact hgroup, by rw [hown]; exact hgroup, hle⟩
      · obtain ⟨p, -, rfl⟩ := List.mem_map.mp hx
        rfl
      · -- a record of the group has a smaller number
        rcases hget : t.getReplica x.1.replicaId with _ | old
        · rfl
        · obtain ⟨g, hg, hlt⟩ := hplaced.numbered x.1.replicaId (by
            unfold DurableData.standing
            rw [show t.durable.replicas.get x.1.replicaId = some old from hget]
            exact Option.some_ne_none _)
          rw [hown, show t.durable.replicaGroups.get shard = some group from hgroup] at hg
          cases hg
          omega
  have hobserved : Writes t omitted (t.putReplicas (fresh.map Prod.fst)) (fresh.foldl
      (fun t p => t.putReplicaObserved p.1.replicaId { endpoint := p.2.state.endpoint, updateTs := now })
      (t.putReplicas (fresh.map Prod.fst))) := by
    refine .forEach (fun t x => ?_) _ _
    exact .one (.putReplicaObserved _ _) nofun
  have hgroup' : (fresh.foldl (fun t p => t.putReplicaObserved p.1.replicaId
      { endpoint := p.2.state.endpoint, updateTs := now })
      (t.putReplicas (fresh.map Prod.fst))).getReplicaGroup shard = some group := by
    unfold getReplicaGroup
    rw [(observeAll_spec now fresh _).1]
    exact ((Op.putReplicas (fresh.map Prod.fst)).getReplicaGroup_run t shard).trans hgroup
  exact (hrecords.trans hobserved).trans (putReplicaGroup_writes hgroup' rfl)

/-! ## Calls -/

/-- A task about new members is about a group that is there. -/
def Task.Grounded (t : MetaStoreTxn) : Task → Prop
  | .plan _ => True
  | .gathered shard _ _ _ _ => ∃ group, t.getReplicaGroup shard = some group
  | .placed shard _ _ => ∃ group, t.getReplicaGroup shard = some group
  | .refused shard _ => ∃ group, t.getReplicaGroup shard = some group

/-- The replicas a call takes for gone. -/
def Call.omits (t : MetaStoreTxn) : Call → ReplicaID → Prop
  | .heartbeat _ p => Omits t p
  | _ => fun _ => False

theorem nodeId_of_valid (h : p.validate.fail = false) : p.nodeId ≠ [] := by
  intro hempty
  simp [RegisterNodeParam.validate, checkCondition, hempty, Status.fail] at h

/-- **Tasks.** -/
theorem Task.writes (hcatalog : Catalog t) (hplaced : Placed t.durable) {task : Task}
    (hground : task.Grounded t) (hf : task.func now = some f) :
    Writes t omitted t (f t).2 := by
  unfold Task.func at hf
  split at hf <;> cases hf
  · exact removeMembers_writes now t _ _
  · exact removeSpecificMembers_writes now t _ _
  · exact cleanupGroup_writes t _
  · exact addMembers_writes hplaced now _ _ _
  · obtain ⟨group, hgroup⟩ := hground
    exact (noteRefusal_edits hcatalog now hgroup _).writes

theorem MetaState.background_some {s : MetaState} {g : MetaStoreTxn → MetaStoreTxn}
    (h : s.background g = some f) : s.task = none ∧ f = .total g := by
  unfold background at h
  split at h <;> cases h
  next htask => exact ⟨by simpa using htask, rfl⟩

/-- The calls that write only elsewhere. -/
def Call.elsewhere : Call → Bool
  | .createDb _ | .dropDb _ | .createTable _ _ | .dropTable _ _ | .alterTableReplicaCount _ _ => true
  | .registerNode _ _ | .checkNodes _ _ _ | .route _ | .finalizeTable _ _ | .finalizeAbsentTable _ _ => true
  | _ => false

section Calls

variable {s : MetaState} (hcatalog : Catalog s.txn) {c : Call} (hf : c.func s = some f)
include hcatalog hf

/-- Calls about databases, tables, nodes and routes write no record of a replica or a group. -/
theorem Call.edits (hc : c.elsewhere = true) : Edits s.txn s.txn (f s.txn).2 := by
  cases c with
  | createDb p =>
    cases hf
    exact .valid fun _ => .answer fun _ _ => createDb_edits hcatalog
  | dropDb p =>
    cases hf
    exact .valid fun _ => .answer fun _ _ => dropDb_edits
  | createTable now p =>
    cases hf
    exact .valid fun _ => .answer fun _ _ => createTable_edits hcatalog
  | dropTable now p =>
    cases hf
    exact .valid fun _ => .answer fun _ _ => dropTable_edits
  | alterTableReplicaCount now p =>
    cases hf
    exact .valid fun _ => .answer fun _ _ => alterTable_edits
  | registerNode now p =>
    cases hf
    exact .valid fun hvalid => registerNode_edits now s.txn (nodeId_of_valid hvalid)
  | checkNodes startTs now ids =>
    obtain ⟨-, rfl⟩ := MetaState.background_some hf
    exact checkNodes_edits startTs now s.txn ids
  | route shard =>
    obtain ⟨-, rfl⟩ := MetaState.background_some hf
    exact checkShardRoute_edits s.txn shard
  | finalizeTable now tableId =>
    obtain ⟨-, rfl⟩ := MetaState.background_some hf
    exact finalizeTable_edits now s.txn tableId
  | finalizeAbsentTable now tableId =>
    obtain ⟨-, rfl⟩ := MetaState.background_some hf
    exact finalizeAbsentTable_edits now s.txn tableId
  | _ => cases hc

/-- **Calls.** -/
theorem Call.writes (hplaced : Placed s.txn.durable)
    (hground : ∀ task, s.task = some task → task.Grounded s.txn) :
    Writes s.txn (c.omits s.txn) s.txn (f s.txn).2 := by
  -- what is left are heartbeats and the calls about groups and replicas
  by_cases hc : c.elsewhere = true
  · exact (Call.edits hcatalog hf hc).writes
  cases c with
  | heartbeat now p =>
    cases hf
    exact .valid fun _ => heartbeat_writes now p s.txn
  | ensureGroup tableId shardIndex =>
    simp only [Call.func] at hf
    split at hf
    · next hshard =>
      obtain ⟨-, rfl⟩ := MetaState.background_some hf
      obtain ⟨table, htable, hrange⟩ := (Option.any_eq_true _ _).mp hshard
      exact ensureGroupForShard_writes htable (of_decide_eq_true hrange)
    · cases hf
  | absentTable tableId =>
    simp only [Call.func] at hf
    split at hf
    · obtain ⟨-, rfl⟩ := MetaState.background_some hf
      exact reconcileAbsentTable_writes s.txn tableId
    · cases hf
  | phases now =>
    obtain ⟨-, rfl⟩ := MetaState.background_some hf
    exact reconcilePhases_writes now s.txn
  -- a task was planned in an earlier transaction, and its group must still be there
  | carryOut now =>
    obtain ⟨task, htask, hfunc⟩ := Option.bind_eq_some_iff.mp hf
    exact Task.writes hcatalog hplaced (hground task htask) hfunc
  | _ => exact absurd rfl hc

end Calls

end AdvisKV.Meta
