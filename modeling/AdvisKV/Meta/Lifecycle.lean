import AdvisKV.Meta.ServerRuns

/-!
# AdvisKV — the life of a table

DDL calls and reconcilers write the phase of a table in transactions of their own, each after reads of its own.
Over every run the phases still follow one path, restarts included; a table that is DELETED has nothing left
and nothing comes back; names and databases of the other tables are in order.

Main results:

* `deleted_of_run` — DELETED is never left.
* `nothing_left` — a DELETED table has no group and no record.
* `table_lifecycle` — all of it, for every run.
-/

namespace AdvisKV.Meta

open MetaStoreTxn

theorem TablePhase.Next.of_deleted {phase : TablePhase} (h : TablePhase.Next .deleted phase) :
    phase = .deleted := by
  cases h with
  | stay => rfl
  | drop habsent => cases habsent

/-- The table is DELETED. -/
def DurableData.Deleted (d : DurableData) (tableId : Int) : Prop :=
  ∃ table, d.tables.get tableId = some table ∧ table.state.phase = .deleted

variable {tableId : Int}

theorem Follows.deleted {d d' : DurableData} (h : Follows d d') (hd : d.Deleted tableId) :
    d'.Deleted tableId := by
  obtain ⟨table, htable, hphase⟩ := hd
  obtain ⟨table', htable', hnext⟩ := h.tables tableId table htable
  rw [hphase] at hnext
  exact ⟨table', htable', hnext.of_deleted⟩

/-- **DELETED is never left.** -/
theorem deleted_of_run {w w' : Server} (hw : w.Good) (hd : w.txn.durable.Deleted tableId)
    (h : Machine.Run Server.step w w') : w'.Good ∧ w'.txn.durable.Deleted tableId := by
  have hsteps : ∀ w a w', w.Good ∧ w.txn.durable.Deleted tableId → True → Server.step a w = some w' →
      w'.Good ∧ w'.txn.durable.Deleted tableId := by
    intro w a w' ⟨hgood, hdeleted⟩ _ hstep
    exact ⟨w.step_good a w' hgood hstep, (Server.step_follows hgood hstep).deleted hdeleted⟩
  have hboth := h.invariant hsteps ⟨hw, hd⟩
  exact hboth

/-- **Nothing is left** of a DELETED table. -/
theorem nothing_left {w : Server} (hw : w.Good) (hd : w.txn.durable.Deleted tableId) :
    (∀ shard, shard.tableId = tableId → w.txn.getReplicaGroup shard = none) ∧
      ∀ id, id.tableId = tableId → w.txn.getReplica id = none := by
  obtain ⟨table, htable, hphase⟩ := hd
  have hgroups : ∀ shard, shard.tableId = tableId → w.txn.getReplicaGroup shard = none := by
    rintro shard rfl
    by_contra hne
    obtain ⟨group, hgroup⟩ := Option.ne_none_iff_exists'.mp hne
    obtain ⟨table', htable', hlive, -⟩ := hw.catalog.grouped shard group hgroup
    have hsame : some table' = some table := htable'.symm.trans htable
    cases hsame
    exact hlive hphase
  refine ⟨hgroups, fun id hid => ?_⟩
  by_contra hne
  obtain ⟨r, hr⟩ := Option.ne_none_iff_exists'.mp hne
  obtain ⟨group, hgroup⟩ := hw.catalog.recorded id r hr
  exact Option.some_ne_none group (hgroup.symm.trans (hgroups (shardOf id) hid))

/-- **The life of a table.** In every run of Meta each step moves a table's phase along its path and a new table
is CREATING; a DELETED table stays DELETED, and no later state has a group or a record of it; of the tables
that are not DELETED no two have one name in one database, and each has its database. -/
theorem table_lifecycle {w : Server} (h : Machine.Run Server.step {} w) :
    (∀ a w', Server.step a w = some w' →
      (∀ id table, w.txn.getTable id = some table → ∃ table', w'.txn.getTable id = some table' ∧
        table.state.phase.Next table'.state.phase) ∧
      ∀ id table', w.txn.getTable id = none → w'.txn.getTable id = some table' →
        table'.state.phase = .creating) ∧
    (∀ id table, w.txn.getTable id = some table → table.state.phase = .deleted →
      ∀ w', Machine.Run Server.step w w' →
        (∃ table', w'.txn.getTable id = some table' ∧ table'.state.phase = .deleted) ∧
        (∀ shard, shard.tableId = id → w'.txn.getReplicaGroup shard = none) ∧
        ∀ rid, rid.tableId = id → w'.txn.getReplica rid = none) ∧
    (∀ id id' table table', w.txn.getTable id = some table → w.txn.getTable id' = some table' →
      table.state.phase ≠ .deleted → table'.state.phase ≠ .deleted →
      table.spec.dbName = table'.spec.dbName → table.spec.name = table'.spec.name → id = id') ∧
    ∀ id table, w.txn.getTable id = some table → table.state.phase ≠ .deleted →
      ∃ db, w.txn.getDatabase table.spec.dbId = some db ∧ db.name = table.spec.dbName := by
  have hgood := Server.good_of_run h
  refine ⟨fun a w' hstep => ?_, fun id table htable hphase w' hrun => ?_, ?_, hgood.catalog.homes⟩
  · have hfollows := Server.step_follows hgood hstep
    exact ⟨hfollows.tables, fun id table' hnone htable' => (hfollows.newTables id table' hnone htable').2⟩
  · obtain ⟨hgood', hdeleted⟩ := deleted_of_run hgood ⟨table, htable, hphase⟩ hrun
    exact ⟨hdeleted, nothing_left hgood' hdeleted⟩
  · intro id id' table table' htable htable' hlive hlive' hdb hname
    exact hgood.catalog.tableNames id id' table table' htable htable' hlive hlive' (Prod.ext hdb hname)

/-- A database, and a table that is created, dropped and created again. -/
def recreatedTable : List ServerAction :=
  [ .call (.createDb { dbName := [1] }) none,
    .call (.createTable 0 { dbName := [1], tableName := [2], shardCount := 1 }) none,
    .call (.dropTable 1 { dbName := [1], tableName := [2] }) none,
    .call (.finalizeAbsentTable 2 0) none,
    .call (.createTable 3 { dbName := [1], tableName := [2], shardCount := 1 }) none ]

/-- The old table is DELETED for good, and the new one has the name and a database. -/
theorem recreated_table_lifecycle : ∃ w table table', Machine.Run Server.step {} w ∧
    w.txn.getTable 0 = some table ∧ table.state.phase = .deleted ∧
    (∀ w', Machine.Run Server.step w w' → w'.txn.getReplicaGroup ⟨0, 0⟩ = none) ∧
    w.txn.getTable 1 = some table' ∧ table'.state.phase = .creating ∧
    ∃ db, w.txn.getDatabase table'.spec.dbId = some db ∧ db.name = table'.spec.dbName := by
  obtain ⟨w, hw⟩ : ∃ w, Machine.run Server.step recreatedTable {} = some w := ⟨_, rfl⟩
  have hrun : Machine.Run Server.step {} w := .of_run hw
  obtain ⟨table, htable, hphase⟩ : ∃ table, w.txn.getTable 0 = some table ∧
      table.state.phase = .deleted := by
    cases hw
    exact ⟨_, rfl, rfl⟩
  obtain ⟨table', htable', hphase'⟩ : ∃ table, w.txn.getTable 1 = some table ∧
      table.state.phase = .creating := by
    cases hw
    exact ⟨_, rfl, rfl⟩
  obtain ⟨-, hdeleted, -, hhomes⟩ := table_lifecycle hrun
  refine ⟨w, table, table', hrun, htable, hphase, ?_, htable', hphase', hhomes 1 table' htable' ?_⟩
  · exact fun w' hrun' => (hdeleted 0 table htable hphase w' hrun').2.1 ⟨0, 0⟩ rfl
  · rw [hphase']
    decide

end AdvisKV.Meta
