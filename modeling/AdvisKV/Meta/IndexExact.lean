import AdvisKV.Meta.FreshIds
import AdvisKV.Meta.Lifecycle

/-!
# AdvisKV — the index is exact

The index is kept up to date hook by hook, and built from all records at a start. Both must come out the same.
The delicate part are names: a hook gives up the name of the old table before it enters the new one, and a
name may be shared by a table that is there and any number of DELETED ones. It works because a DELETED table
is never written again.

Main results:

* `MetaStoreTxn.Indexed.write` — every write of a transaction keeps the index exact.
* `rebuildIndex_indexed` — the index built at a start is exact.
* `index_exact` — for every run.
* `searches_as_index` — searching the records, as the model's services do, is the same as asking the index.
-/

namespace AdvisKV.Meta

open MetaStoreTxn

/-! ## What the index stands for -/

/-- The name a table takes; a DELETED one takes none. -/
def Table.liveName (table : Table) : Option (Bytes × Bytes) :=
  if table.state.phase = .deleted then none else some table.nameKey

/-- The node a replica is listed under, if it has one. -/
def Replica.node? (r : Replica) : Option NodeID :=
  if r.spec.assignNodeId = [] then none else some r.spec.assignNodeId

/-- The two listings of replicas. -/
structure ReplicasIndexed (i : MetaIndex) (replicas : Keyed Replica.replicaId) : Prop where
  shard : i.shardReplicas.Lists (replicas.Has fun r => some (shardOf r.replicaId))
  node : i.nodeReplicas.Lists (replicas.Has Replica.node?)

/-- **The index is exact** for this data. -/
structure Indexed (i : MetaIndex) (d : DurableData) (r : RuntimeData) : Prop where
  tableNames : i.tableNames.Stands (d.tables.Has Table.liveName)
  dbNames : i.dbNames.Stands (d.databases.Has fun db => some db.name)
  poolNodes : i.poolNodes.Lists (r.nodes.Has fun node => some node.info.resourcePool)
  replicas : ReplicasIndexed i d.replicas

theorem hasName_iff {tables : Keyed Table.tableId} {key : Bytes × Bytes} {id : Int} :
    tables.Has Table.liveName key id ↔
      ∃ table, tables.get id = some table ∧ table.state.phase ≠ .deleted ∧ table.nameKey = key := by
  simp [Keyed.Has, Table.liveName]

theorem hasShard_iff {replicas : Keyed Replica.replicaId} {shard : ShardID} {id : ReplicaID} :
    replicas.Has (fun r => some (shardOf r.replicaId)) shard id ↔
      ∃ r, replicas.get id = some r ∧ shardOf id = shard :=
  exists_congr fun r => and_congr_right fun hr => by simp only [Keyed.key_of_get hr, Option.some.injEq]

theorem hasNode_iff {replicas : Keyed Replica.replicaId} {node : NodeID} {id : ReplicaID} :
    replicas.Has Replica.node? node id ↔
      ∃ r, replicas.get id = some r ∧ r.spec.assignNodeId ≠ [] ∧ r.spec.assignNodeId = node := by
  simp [Keyed.Has, Replica.node?]

/-! ## Names are unique -/

/-- Two databases of one name are one. -/
theorem Catalog.dbName_unique {t : MetaStoreTxn} (hc : Catalog t) {name : Bytes} {id id' : Int}
    (h : t.durable.databases.Has (fun db => some db.name) name id)
    (h' : t.durable.databases.Has (fun db => some db.name) name id') : id = id' := by
  obtain ⟨db, hdb, hname⟩ := h
  obtain ⟨db', hdb', hname'⟩ := h'
  exact hc.dbNames id id' db db' hdb hdb' (Option.some.inj (hname.trans hname'.symm))

/-- So are two tables that are not DELETED. -/
theorem Catalog.tableName_unique {t : MetaStoreTxn} (hc : Catalog t) {key : Bytes × Bytes}
    {id id' : Int} (h : t.durable.tables.Has Table.liveName key id)
    (h' : t.durable.tables.Has Table.liveName key id') : id = id' := by
  obtain ⟨table, htable, hlive, hname⟩ := hasName_iff.mp h
  obtain ⟨table', htable', hlive', hname'⟩ := hasName_iff.mp h'
  exact hc.tableNames id id' table table' htable htable' hlive hlive' (hname.trans hname'.symm)

/-! ## Nodes and replicas -/

variable {i : MetaIndex}

/-- **Writing** a node. -/
theorem onNodeUpsert_lists {nodes : Keyed Node.id}
    (h : i.poolNodes.Lists (nodes.Has fun node => some node.info.resourcePool)) (node : Node) :
    (i.onNodeUpsert (nodes.get node.id) node).poolNodes.Lists
      ((nodes.put node).Has fun node => some node.info.resourcePool) := by
  rcases hget : nodes.get node.id with _ | old
  · exact h.enter hget
  · exact h.rewrite hget

variable {replicas : Keyed Replica.replicaId}

/-- **Deleting** a record. -/
theorem ReplicasIndexed.delete (h : ReplicasIndexed i replicas) {old : Replica}
    (hold : replicas.get old.replicaId = some old) :
    ReplicasIndexed (i.onReplicaDelete old) (replicas.erase old.replicaId) := by
  refine ⟨h.shard.leave hold, ?_⟩
  have hnode := h.node.leave hold
  unfold Replica.node? at hnode
  rwa [apply_ite (Option.elim · _ _)] at hnode

/-- **Writing** a record: the old one is deleted first. -/
theorem ReplicasIndexed.upsert (h : ReplicasIndexed i replicas) (replica : Replica) :
    ReplicasIndexed (i.onReplicaUpsert (replicas.get replica.replicaId) replica) (replicas.put replica) := by
  rcases hget : replicas.get replica.replicaId with _ | old
  · refine ⟨h.shard.enter hget, ?_⟩
    have hnode := h.node.enter hget
    unfold Replica.node? at hnode
    rwa [apply_ite (Option.elim · _ _)] at hnode
  · refine ⟨h.shard.rewrite hget, ?_⟩
    have hnode := h.node.rewrite hget
    unfold Replica.node? at hnode
    rwa [apply_ite (Option.elim · _ _), apply_ite (Option.elim · _ _)] at hnode

/-- **Writing several** records, the old ones read before any is written. -/
theorem ReplicasIndexed.upserts (h : ReplicasIndexed i replicas) {rs : List Replica}
    (hdistinct : (rs.map Replica.replicaId).Nodup) (old : ReplicaID → Option Replica)
    (hold : ∀ r ∈ rs, old r.replicaId = replicas.get r.replicaId) :
    ReplicasIndexed (rs.foldl (fun i r => i.onReplicaUpsert (old r.replicaId) r) i)
      (rs.foldl Keyed.put replicas) := by
  induction rs generalizing i replicas with
  | nil => exact h
  | cons r rs ih =>
    obtain ⟨hnew, hrest⟩ := List.nodup_cons.mp hdistinct
    have hupsert := h.upsert r
    rw [← hold r List.mem_cons_self] at hupsert
    refine ih hupsert hrest fun r' hr' => ?_
    have hne : r.replicaId ≠ r'.replicaId := by
      intro heq
      exact hnew (heq ▸ List.mem_map_of_mem hr')
    rw [Keyed.get_put, if_neg hne]
    exact hold r' (List.mem_cons_of_mem _ hr')

/-! ## Hooks on replicas leave the other tables alone -/

/-- Everything but the listings of replicas is the same. -/
structure OthersKept (i i' : MetaIndex) : Prop where
  tableNames : i'.tableNames = i.tableNames
  dbNames : i'.dbNames = i.dbNames
  poolNodes : i'.poolNodes = i.poolNodes

theorem othersKept_upsert (i : MetaIndex) (old : Option Replica) (r : Replica) :
    OthersKept i (i.onReplicaUpsert old r) := by
  rcases old with _ | old
  · exact ⟨rfl, rfl, rfl⟩
  · exact ⟨rfl, rfl, rfl⟩

/-- The hooks of replicas leave the names and the pools alone. -/
theorem othersKept_upserts (i : MetaIndex) (old : ReplicaID → Option Replica) (rs : List Replica) :
    OthersKept i (rs.foldl (fun i r => i.onReplicaUpsert (old r.replicaId) r) i) := by
  induction rs generalizing i with
  | nil => exact ⟨rfl, rfl, rfl⟩
  | cons r rs ih =>
    have hfirst := othersKept_upsert i (old r.replicaId) r
    have hrest := ih (i.onReplicaUpsert (old r.replicaId) r)
    exact ⟨hrest.tableNames.trans hfirst.tableNames, hrest.dbNames.trans hfirst.dbNames,
      hrest.poolNodes.trans hfirst.poolNodes⟩

/-- Writes of replicas. -/
theorem Indexed.of_replicas {d d' : DurableData} {r r' : RuntimeData} {i' : MetaIndex} (h : Indexed i d r)
    (hothers : OthersKept i i') (htables : d'.tables = d.tables) (hdbs : d'.databases = d.databases)
    (hnodes : r'.nodes = r.nodes) (hreplicas : ReplicasIndexed i' d'.replicas) : Indexed i' d' r' where
  tableNames := by
    rw [hothers.tableNames, htables]
    exact h.tableNames
  dbNames := by
    rw [hothers.dbNames, hdbs]
    exact h.dbNames
  poolNodes := by
    rw [hothers.poolNodes, hnodes]
    exact h.poolNodes
  replicas := hreplicas

/-! ## Transactions -/

/-- The index of a transaction is exact for its working copies. -/
abbrev MetaStoreTxn.Indexed (t : MetaStoreTxn) : Prop := Meta.Indexed t.index t.durable t.runtime

namespace MetaStoreTxn.Indexed

variable {t₀ t : MetaStoreTxn} {omitted : ReplicaID → Prop}

/-- A database is only created under a new id and a free name. -/
theorem putDatabase (h : t.Indexed) {db : Database} (hfresh : t.getDatabase db.dbId = none)
    (hfree : ∀ id other, t.getDatabase id = some other → other.name ≠ db.name) :
    (t.putDatabase db).Indexed := by
  refine ⟨h.tableNames, ?_, h.poolNodes, ⟨h.replicas.shard, h.replicas.node⟩⟩
  show (t.index.onDbUpsert (t.getDatabase db.dbId) db).dbNames.Stands _
  rw [hfresh]
  refine h.dbNames.write (fun _ _ _ => Iff.rfl) (fun old hget => ?_) ?_ rfl
  · cases hfresh.symm.trans hget
  · rintro id ⟨other, hother, hname⟩
    exact absurd (Option.some.inj hname) (hfree id other hother)

theorem deleteDatabase (h : t.Indexed) (hc : Catalog t) (dbId : Int) : (t.deleteDatabase dbId).Indexed := by
  unfold MetaStoreTxn.deleteDatabase
  rcases hget : t.getDatabase dbId with _ | old
  · exact h
  · refine ⟨h.tableNames, ?_, h.poolNodes, ⟨h.replicas.shard, h.replicas.node⟩⟩
    refine h.dbNames.delete (fun old' hget' => ?_) fun id hid => hc.dbName_unique hid ⟨old, hget, rfl⟩
    cases hget.symm.trans hget'
    rfl

/-- The name a table gives up is its own, so the other tables keep theirs. -/
theorem putTable (h : t.Indexed) (hc : Catalog t) {table : Table}
    (hop : NewTable t₀ t table ∨ NextTable t₀ t table) : (t.putTable table).Indexed := by
  refine ⟨?_, h.dbNames, h.poolNodes, ⟨h.replicas.shard, h.replicas.node⟩⟩
  show (t.index.onTableUpsert (t.getTable table.tableId) table).tableNames.Stands
    ((t.durable.tables.put table).Has Table.liveName)
  rcases hop with hnew | hnext
  · have hlive : table.state.phase ≠ .deleted := by
      rw [hnew.phase]
      nofun
    rw [hnew.fresh]
    show Names.Stands (if table.state.phase = .deleted then _ else _) _
    rw [if_neg hlive]
    refine h.tableNames.write (fun _ _ _ => Iff.rfl) (fun old hget => ?_) (fun id hid => ?_) (if_neg hlive)
    · cases hnew.fresh.symm.trans hget
    · obtain ⟨other, hother, hphase, hname⟩ := hasName_iff.mp hid
      exact absurd hname (hnew.free id other hother hphase)
  · obtain ⟨old, -, hold, hphase, -, hkey, -⟩ := hnext.old
    have hname : old.liveName = some old.nameKey := if_neg hphase
    have hsame : ∀ old', t.getTable table.tableId = some old' → old'.liveName = some old.nameKey := by
      intro old' hget
      cases hold.symm.trans hget
      exact hname
    have hfree : ∀ id, t.durable.tables.Has Table.liveName old.nameKey id → id = table.tableId :=
      fun id hid => hc.tableName_unique hid ⟨old, hold, hname⟩
    rw [hold]
    show Names.Stands (if table.state.phase = .deleted then _ else _) _
    by_cases hdeleted : table.state.phase = .deleted
    · rw [if_pos hdeleted]
      exact h.tableNames.drop hsame hfree (if_pos hdeleted)
    · rw [if_neg hdeleted, hkey]
      exact (h.tableNames.erase old.nameKey).write (fun _ _ hk => and_iff_right hk) hsame hfree
        (hkey ▸ if_neg hdeleted)

theorem putReplicas (h : t.Indexed) {rs : List Replica} (hdistinct : (rs.map Replica.replicaId).Nodup) :
    (t.putReplicas rs).Indexed := by
  unfold MetaStoreTxn.putReplicas
  by_cases hempty : rs = []
  · rw [if_pos hempty]
    exact h
  · rw [if_neg hempty]
    exact Meta.Indexed.of_replicas h (othersKept_upserts t.index t.getReplica rs) rfl rfl rfl
      (h.replicas.upserts hdistinct t.getReplica fun r _ => rfl)

theorem deleteReplica (h : t.Indexed) (id : ReplicaID) : (t.deleteReplica id).Indexed := by
  unfold MetaStoreTxn.deleteReplica
  rcases hget : t.getReplica id with _ | old
  · exact ⟨h.tableNames, h.dbNames, h.poolNodes, h.replicas⟩
  · have hkey : old.replicaId = id := Keyed.key_of_get hget
    subst hkey
    exact Meta.Indexed.of_replicas h ⟨rfl, rfl, rfl⟩ rfl rfl rfl (h.replicas.delete hget)

/-- **Every write** keeps the index exact. -/
theorem write (h : t.Indexed) (hc : Catalog t) {op : Op} (hop : op.Fits t₀ omitted t) :
    (op.run t).Indexed := by
  cases op with
  | putDatabase db => exact h.putDatabase hop.2.2.1 hop.2.2.2
  | deleteDatabase dbId => exact h.deleteDatabase hc dbId
  | putTable table => exact h.putTable hc hop
  -- no service deletes a table record
  | deleteTable tableId => exact hop.elim
  | putReplica r =>
    exact Meta.Indexed.of_replicas h (othersKept_upsert t.index (t.getReplica r.replicaId) r) rfl rfl rfl
      (h.replicas.upsert r)
  | putReplicas rs => exact h.putReplicas hop.1
  | deleteReplica id => exact h.deleteReplica id
  | putNode node =>
    exact ⟨h.tableNames, h.dbNames, onNodeUpsert_lists h.poolNodes node,
      ⟨h.replicas.shard, h.replicas.node⟩⟩
  | deleteReplicaGroup shard =>
    simp only [Op.run, MetaStoreTxn.deleteReplicaGroup]
    split
    · exact h
    · exact ⟨h.tableNames, h.dbNames, h.poolNodes, h.replicas⟩
  | deleteShardRoute shard =>
    simp only [Op.run, MetaStoreTxn.deleteShardRoute]
    split
    · exact h
    · exact ⟨h.tableNames, h.dbNames, h.poolNodes, h.replicas⟩
  | _ => exact ⟨h.tableNames, h.dbNames, h.poolNodes, h.replicas⟩

/-- **Every transaction.** -/
theorem writes (h : t.Indexed) (hc : Catalog t) {t' : MetaStoreTxn} (hw : Writes t₀ omitted t t') :
    t'.Indexed := by
  have hboth : t'.Indexed ∧ Catalog t' := by
    induction hw with
    | refl => exact ⟨h, hc⟩
    | tail _ hlast ih =>
      obtain ⟨op, hop, rfl⟩ := hlast
      exact ⟨ih.1.write ih.2 hop, ih.2.write hop⟩
  exact hboth.1

end MetaStoreTxn.Indexed

/-! ## Building -/

/-- Building goes table by table, each into its own part of the index. -/
theorem foldl_onDbUpsert (dbs : List Database) (i : MetaIndex) :
    dbs.foldl (fun i db => i.onDbUpsert none db) i =
      { i with dbNames := dbs.foldl (fun m db => (some db.name).elim m fun k => m.put (k, db.dbId)) i.dbNames } :=
  List.foldl_hom (fun names => { i with dbNames := names }) fun _ _ => rfl

theorem foldl_onTableUpsert (tables : List Table) (i : MetaIndex) :
    tables.foldl (fun i table => i.onTableUpsert none table) i =
      { i with
        tableNames := tables.foldl
          (fun m table => table.liveName.elim m fun k => m.put (k, table.tableId)) i.tableNames } := by
  refine List.foldl_hom (fun names => { i with tableNames := names }) fun names table => ?_
  rw [Table.liveName, apply_ite (Option.elim · _ _)]
  rfl

theorem foldl_onNodeUpsert (nodes : List Node) (i : MetaIndex) :
    nodes.foldl (fun i node => i.onNodeUpsert none node) i =
      { i with
        poolNodes := nodes.foldl
          (fun b node => (some node.info.resourcePool).elim b fun k => b.add k node.id) i.poolNodes } :=
  List.foldl_hom (fun pools => { i with poolNodes := pools }) fun _ _ => rfl

/-- Records entered one after another into an empty index. -/
theorem replicas_built {i : MetaIndex} (replicas : Keyed Replica.replicaId)
    (hempty : ReplicasIndexed i .empty) :
    ReplicasIndexed (replicas.entries.foldl (fun i r => i.onReplicaUpsert none r) i) replicas := by
  have hbuilt := hempty.upserts replicas.nodup (fun _ => none) fun _ _ => rfl
  rwa [show replicas.entries.foldl Keyed.put .empty = replicas from Keyed.fill_entries replicas] at hbuilt

theorem replicasIndexed_empty (i : MetaIndex) (hshard : i.shardReplicas = .empty)
    (hnode : i.nodeReplicas = .empty) : ReplicasIndexed i .empty where
  shard := by
    rw [hshard]
    exact Buckets.lists_empty.congr fun shard id => by simp [Keyed.Has]
  node := by
    rw [hnode]
    exact Buckets.lists_empty.congr fun node id => by simp [Keyed.Has]

/-- **Building the index** from data whose names are unique. -/
theorem rebuildIndex_indexed {t : MetaStoreTxn} (hc : Catalog t) :
    Indexed (rebuildIndex t.durable t.runtime) t.durable t.runtime := by
  unfold rebuildIndex
  dsimp only
  rw [foldl_onDbUpsert, foldl_onTableUpsert, foldl_onNodeUpsert]
  set i : MetaIndex := { dbNames := _, tableNames := _, poolNodes := _ }
  have hempty : ReplicasIndexed i .empty := replicasIndexed_empty _ rfl rfl
  -- before the records are entered, the index is exact for data without them
  have hbefore : Indexed i { t.durable with replicas := .empty } t.runtime :=
    ⟨Names.stands_entries hc.tableName_unique, Names.stands_entries hc.dbName_unique,
      Buckets.lists_entries t.runtime.nodes _, hempty⟩
  exact hbefore.of_replicas (othersKept_upserts _ (fun _ => none) _) rfl rfl rfl (replicas_built _ hempty)

/-! ## Runs -/

namespace Server

variable {w w' : Server}

theorem indexed_start : ({} : Server).txn.Indexed := rebuildIndex_indexed catalog_start

/-- A step of the server: it commits a transaction, or builds the index again at a start. -/
theorem Steps.indexed {a : ServerAction} (hw : w.Good) (h : Steps w a w') (hindexed : w.txn.Indexed) :
    w'.txn.Indexed := by
  have hgood := h.good hw
  cases h with
  | committed c fault haction hstep hdisk =>
    obtain ⟨t', hwrites, hdata⟩ := hw.toWhole.writes hstep
    have ht' := hindexed.writes hw.catalog hwrites
    show Indexed w'.view.data.index w'.view.data.durable w'.view.data.runtime
    rw [hdata]
    exact ht'
  | failed c fault haction hview hdisk =>
    rw [durable_of_view hview]
    exact hindexed
  | thought b hstep hstore =>
    have htxn : w'.txn = w.txn := congrArg (fun s : MetaStore => MetaStoreTxn.start s.published) hstore
    rw [htxn]
    exact hindexed
  | restarted powerLoss d haction hload hview hdisk =>
    have hbuilt := rebuildIndex_indexed hgood.catalog
    have htxn : w'.txn = .start (.loaded d) := congrArg MetaState.txn hview
    rw [show w'.view.txn = w'.txn from rfl, htxn] at hbuilt
    rw [htxn]
    exact hbuilt

theorem indexed_of_run (h : Machine.Run step {} w) : w.Good ∧ w.txn.Indexed := by
  have hsteps : ∀ (w : Server) a w', w.Good ∧ w.txn.Indexed → True → step a w = some w' →
      w'.Good ∧ w'.txn.Indexed := by
    rintro w a w' ⟨hgood, hindexed⟩ - hstep
    have hdoes := Steps.of_step hgood.toWhole hstep
    exact ⟨hdoes.good hgood, hdoes.indexed hgood hindexed⟩
  have hboth := h.invariant hsteps ⟨good_start, indexed_start⟩
  exact hboth

end Server

/-- The tables of two indexes are the same under every key. -/
structure MetaIndex.Same (i i' : MetaIndex) : Prop where
  tableNames : ∀ key, i.tableNames.get key = i'.tableNames.get key
  dbNames : ∀ name, i.dbNames.get name = i'.dbNames.get name
  poolNodes : ∀ pool, i.poolNodes.get pool = i'.poolNodes.get pool
  shardReplicas : ∀ shard, i.shardReplicas.get shard = i'.shardReplicas.get shard
  nodeReplicas : ∀ node, i.nodeReplicas.get node = i'.nodeReplicas.get node

/-- What an exact index holds is determined by the records. -/
theorem Indexed.same {i i' : MetaIndex} {d : DurableData} {r : RuntimeData} (h : Indexed i d r)
    (h' : Indexed i' d r) : i.Same i' where
  tableNames := h.tableNames.get_eq h'.tableNames
  dbNames := h.dbNames.get_eq h'.dbNames
  poolNodes := h.poolNodes.get_eq h'.poolNodes
  shardReplicas := h.replicas.shard.get_eq h'.replicas.shard
  nodeReplicas := h.replicas.node.get_eq h'.replicas.node

/-- **The index is exact** in every published state of every run: it is the one `rebuild_index` would build, a
name leads to the table of that name that is not DELETED, and the listings are those of the records. -/
theorem index_exact {w : Server} (h : Machine.Run Server.step {} w) :
    w.store.published.index.Same (rebuildIndex w.store.published.durable w.store.published.runtime) ∧
    (∀ dbName name id, w.store.published.index.findTableByName dbName name = some id ↔
      ∃ table, w.store.published.durable.tables.get id = some table ∧ table.state.phase ≠ .deleted ∧
        table.spec.dbName = dbName ∧ table.spec.name = name) ∧
    (∀ shard id, id ∈ w.store.published.index.listReplicasByShard shard ↔
      ∃ r, w.store.published.durable.replicas.get id = some r ∧ shardOf id = shard) ∧
    (∀ node id, id ∈ w.store.published.index.listReplicasByNode node ↔
      ∃ r, w.store.published.durable.replicas.get id = some r ∧ r.spec.assignNodeId = node) := by
  obtain ⟨hgood, hindexed⟩ := Server.indexed_of_run h
  refine ⟨hindexed.same (rebuildIndex_indexed hgood.catalog), ?_, ?_, ?_⟩
  · intro dbName name id
    refine ((hindexed.tableNames.find (dbName, name) id).trans hasName_iff).trans ?_
    simp only [Table.nameKey, Prod.mk.injEq]
    exact Iff.rfl
  · exact fun shard id => (hindexed.replicas.shard.mem shard id).trans hasShard_iff
  · intro node id
    refine ((hindexed.replicas.node.mem node id).trans hasNode_iff).trans ?_
    constructor
    · rintro ⟨r, hr, -, hnode⟩
      exact ⟨r, hr, hnode⟩
    · rintro ⟨r, hr, rfl⟩
      -- every record has a node
      refine ⟨r, hr, fun hempty => hgood.housed id ?_, rfl⟩
      exact Option.map_eq_some_iff.mpr ⟨r, hr, hempty⟩

/-- The name of the table that was dropped leads to the one that was created after it. -/
theorem recreated_name_found : ∃ w table, Machine.Run Server.step {} w ∧
    w.store.published.durable.tables.get 0 = some table ∧ table.state.phase = .deleted ∧
    table.nameKey = ([1], [2]) ∧ w.store.published.index.findTableByName [1] [2] = some 1 := by
  obtain ⟨w, hw⟩ : ∃ w, Machine.run Server.step recreatedTable {} = some w := ⟨_, rfl⟩
  have hrun : Machine.Run Server.step {} w := .of_run hw
  obtain ⟨table, htable, hphase, hkey⟩ : ∃ table, w.store.published.durable.tables.get 0 = some table ∧
      table.state.phase = .deleted ∧ table.nameKey = ([1], [2]) := by
    cases hw
    exact ⟨_, rfl, rfl, rfl⟩
  refine ⟨w, table, hrun, htable, hphase, hkey, ((index_exact hrun).2.1 [1] [2] 1).mpr ?_⟩
  cases hw
  exact ⟨_, rfl, by decide, rfl, rfl⟩

/-! ## Searching the records -/

/-- **Inside a transaction** of a run, a search of the records finds what a lookup in the index would: the
functions of the services may be read either way. -/
theorem searches_as_index {w : Server} (h : Machine.Run Server.step {} w) {omitted : ReplicaID → Prop}
    {t : MetaStoreTxn} (hwrites : Writes w.txn omitted w.txn t) :
    (∀ name, (t.getDatabaseByName name).map Database.dbId = t.index.findDbByName name) ∧
    (∀ dbName name, (t.getTableByName dbName name).map Table.tableId = t.index.findTableByName dbName name) ∧
    (∀ shard id, (∃ r ∈ t.listReplicasByShard shard, r.replicaId = id) ↔
      id ∈ t.index.listReplicasByShard shard) ∧
    (∀ node id, (∃ r ∈ t.listReplicasByNode node, r.replicaId = id) ↔
      id ∈ t.index.listReplicasByNode node) := by
  obtain ⟨hgood, hindexed₀⟩ := Server.indexed_of_run h
  have hindexed := hindexed₀.writes hgood.catalog hwrites
  have hc := hgood.catalog.writes hwrites
  refine ⟨fun name => Option.ext fun id => ?_, fun dbName name => Option.ext fun id => ?_, ?_, ?_⟩
  · refine Iff.trans ?_ (hindexed.dbNames.find name id).symm
    rw [Option.map_eq_some_iff]
    constructor
    · rintro ⟨db, hdb, rfl⟩
      obtain ⟨hget, hname⟩ := getDatabaseByName_some hdb
      exact ⟨db, hget, congrArg some hname⟩
    · rintro ⟨db, hget, hname⟩
      replace hname := Option.some.inj hname
      -- the search may find another record of the name, but names are unique
      rcases hfound : t.getDatabaseByName name with _ | db'
      · exact absurd hname (getDatabaseByName_none hfound hget)
      · obtain ⟨hget', hname'⟩ := getDatabaseByName_some hfound
        exact ⟨db', rfl, hc.dbNames _ _ db' db hget' hget (hname'.trans hname.symm)⟩
  · refine Iff.trans ?_ ((hindexed.tableNames.find (dbName, name) id).trans hasName_iff).symm
    rw [Option.map_eq_some_iff]
    constructor
    · rintro ⟨table, htable, rfl⟩
      obtain ⟨hget, hlive, hkey⟩ := getTableByName_some htable
      exact ⟨table, hget, hlive, hkey⟩
    · rintro ⟨table, hget, hlive, hkey⟩
      rcases hfound : t.getTableByName dbName name with _ | table'
      · exact absurd hkey (getTableByName_none hfound hget hlive)
      · obtain ⟨hget', hlive', hkey'⟩ := getTableByName_some hfound
        exact ⟨table', rfl, hc.tableNames _ _ table' table hget' hget hlive' hlive (hkey'.trans hkey.symm)⟩
  · intro shard id
    refine Iff.trans ?_ ((hindexed.replicas.shard.mem shard id).trans hasShard_iff).symm
    constructor
    · rintro ⟨r, hr, rfl⟩
      obtain ⟨hmem, hshard⟩ := List.mem_filter.mp hr
      exact ⟨r, Keyed.get_eq_some_iff.mpr ⟨hmem, rfl⟩, by simpa using hshard⟩
    · rintro ⟨r, hr, rfl⟩
      obtain ⟨hmem, rfl⟩ := Keyed.get_eq_some_iff.mp hr
      exact ⟨r, List.mem_filter.mpr ⟨hmem, by simp⟩, rfl⟩
  · intro node id
    refine Iff.trans ?_ ((hindexed.replicas.node.mem node id).trans hasNode_iff).symm
    unfold listReplicasByNode
    -- the index has no entry for the empty node id
    by_cases hempty : node = []
    · rw [if_pos hempty]
      simp only [List.not_mem_nil, false_and, exists_false, false_iff]
      rintro ⟨r, -, hne, hnode⟩
      exact hne (hnode.trans hempty)
    · rw [if_neg hempty]
      constructor
      · rintro ⟨r, hr, rfl⟩
        obtain ⟨hmem, hnode⟩ := List.mem_filter.mp hr
        have hnode' : r.spec.assignNodeId = node := by simpa using hnode
        exact ⟨r, Keyed.get_eq_some_iff.mpr ⟨hmem, rfl⟩, hnode' ▸ hempty, hnode'⟩
      · rintro ⟨r, hr, -, hnode⟩
        obtain ⟨hmem, rfl⟩ := Keyed.get_eq_some_iff.mp hr
        exact ⟨r, List.mem_filter.mpr ⟨hmem, by simpa using hnode⟩, rfl⟩

/-- Searching finds the table that was created after the one of the same name had been dropped. -/
theorem recreated_name_searched : ∃ w, Machine.Run Server.step {} w ∧
    (w.txn.getTableByName [1] [2]).map Table.tableId = w.txn.index.findTableByName [1] [2] ∧
    w.txn.index.findTableByName [1] [2] = some 1 := by
  obtain ⟨w, hw⟩ : ∃ w, Machine.run Server.step recreatedTable {} = some w := ⟨_, rfl⟩
  have hrun : Machine.Run Server.step {} w := .of_run hw
  have hnone : Writes w.txn (fun _ => False) w.txn w.txn := .refl
  refine ⟨w, hrun, (searches_as_index hrun hnone).2.1 [1] [2], ?_⟩
  cases hw
  rfl

end AdvisKV.Meta
