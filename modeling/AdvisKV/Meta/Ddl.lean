import AdvisKV.Meta.Reconcile

/-!
# AdvisKV — databases and tables by name

`DdlService` finds databases and tables by their names. A name belongs to the table that is not DELETED: a
dropped name is free again once its table is gone, and the old record stays beside the new one under its own
id. `MetaIndex` answers these lookups in the source; here they search the records, which finds the same.

Each call is a function on a transaction that either fails, and then nothing is written, or returns a record
and the transaction it leaves.
-/

namespace AdvisKV.Meta

/-! ## Parameters -/

structure CreateDBParam where
  dbName : Bytes := []
  zone : Bytes := []
deriving DecidableEq, Repr

structure DropDBParam where
  dbName : Bytes := []
deriving DecidableEq, Repr

structure CreateTableParam where
  dbName : Bytes := []
  tableName : Bytes := []
  shardCount : Int := 0
  replicaCount : Int := 0
  resourcePool : Bytes := []
  engineType : EngineType := .map
deriving DecidableEq, Repr

structure DropTableByNameParam where
  dbName : Bytes := []
  tableName : Bytes := []
deriving DecidableEq, Repr

structure AlterTableReplicaCountParam where
  dbName : Bytes := []
  tableName : Bytes := []
  replicaCount : Int := 0
deriving DecidableEq, Repr

/-- `RETURN_IF_INVALID_CONDITION`. -/
def checkCondition (condition : Bool) (msg : String) (rest : Status) : Status :=
  if condition then rest else ⟨.invalidArgument, msg⟩

def CreateDBParam.validate (p : CreateDBParam) : Status :=
  checkCondition (p.dbName != []) "db_name should not empty" .OK

def DropDBParam.validate (p : DropDBParam) : Status :=
  checkCondition (p.dbName != []) "db_name should not empty" .OK

def CreateTableParam.validate (p : CreateTableParam) : Status :=
  checkCondition (p.dbName != []) "db_name should not empty" <|
  checkCondition (p.tableName != []) "table_name should not empty" <|
  checkCondition (decide (0 < p.shardCount ∧ p.shardCount ≤ hashBucketCount)) "shard count is not valid" <|
  checkCondition (decide (0 ≤ p.replicaCount)) "replica count should >= 0" .OK

def DropTableByNameParam.validate (p : DropTableByNameParam) : Status :=
  checkCondition (p.dbName != []) "db_name should not empty" <|
  checkCondition (p.tableName != []) "table_name should not empty" .OK

def AlterTableReplicaCountParam.validate (p : AlterTableReplicaCountParam) : Status :=
  checkCondition (p.dbName != []) "db_name should not empty" <|
  checkCondition (p.tableName != []) "table_name should not empty" <|
  checkCondition (decide (0 ≤ p.replicaCount)) "replica_count should >= 0" .OK

def RegisterNodeParam.validate (p : RegisterNodeParam) : Status :=
  checkCondition (p.nodeId != []) "node_id should not empty" <|
  checkCondition (p.ip != []) "ip should not empty" <|
  checkCondition (decide (0 < p.port)) "port should > 0" <|
  checkCondition (p.resourcePool != []) "resource_pool should not empty" <|
  checkCondition (p.dc != []) "dc should not empty" .OK

/-! ## Names -/

/-- The bytes of a name as the characters of a message. -/
def textOf (name : Bytes) : String := String.ofList (name.map fun b => Char.ofNat b.toNat)

/-- `get_database_by_name`. -/
def MetaStoreTxn.getDatabaseByName (t : MetaStoreTxn) (name : Bytes) : Option Database :=
  t.durable.databases.entries.find? fun db => db.name = name

/-- `get_table_by_name`. -/
def MetaStoreTxn.getTableByName (t : MetaStoreTxn) (dbName name : Bytes) : Option Table :=
  t.durable.tables.entries.find? fun table =>
    table.state.phase ≠ .deleted ∧ table.nameKey = (dbName, name)

/-- `make_shard_ranges`. -/
def makeShardRanges (count : Int) : List ShardRange :=
  if count ≤ 0 ∨ (hashBucketCount : Int) < count then []
  else (List.range count.toNat).map fun (i : Nat) =>
    ⟨i, ⟨hashBucketCount * i / count.toNat, hashBucketCount * (i + 1) / count.toNat⟩⟩

/-! ## Calls -/

namespace DdlService

def dbNotFound (dbName : Bytes) : Status :=
  ⟨.dbNotFound, "db_name:" ++ textOf dbName ++ " does not exist"⟩

/-- `create_db`. -/
def createDb (p : CreateDBParam) (t : MetaStoreTxn) : Except Status (Database × MetaStoreTxn) :=
  if (t.getDatabaseByName p.dbName).isSome then
    .error ⟨.alreadyExist, "db_name:" ++ textOf p.dbName ++ " already exists"⟩
  else
    let created : Database := { dbId := t.allocateDbId.1, name := p.dbName, zone := p.zone }
    .ok (created, t.allocateDbId.2.putDatabase created)

/-- `drop_db`. -/
def dropDb (p : DropDBParam) (t : MetaStoreTxn) : Except Status (Database × MetaStoreTxn) :=
  match t.getDatabaseByName p.dbName with
  | none => .error (dbNotFound p.dbName)
  | some db =>
    if t.durable.tables.entries.any fun table =>
        decide (table.spec.dbId = db.dbId ∧ table.state.phase ≠ .deleted) then
      .error ⟨.invalidArgument, "db_id:" ++ toString db.dbId ++ " still has tables, cannot delete"⟩
    else .ok (db, t.deleteDatabase db.dbId)

/-- The table `create_table` makes for a database. -/
def newTable (now : Int) (p : CreateTableParam) (db : Database) (tableId : Int) : Table :=
  { tableId
    spec :=
      { dbId := db.dbId
        dbName := db.name
        name := p.tableName
        engineType := p.engineType
        shardRanges := makeShardRanges p.shardCount
        targetReplicaCount := p.replicaCount
        resourcePool := p.resourcePool }
    state :=
      { phase := .creating
        operationId := "create-table-" ++ toString tableId ++ "-" ++ toString now
        createTs := now
        updateTs := now } }

/-- The table is the one the call asks for. -/
def sameSpec (p : CreateTableParam) (db : Database) (table : Table) : Bool :=
  decide (table.spec.dbId = db.dbId) && decide ((table.spec.shardRanges.length : Int) = p.shardCount) &&
  decide (table.spec.targetReplicaCount = p.replicaCount) &&
  decide (table.spec.resourcePool = p.resourcePool) && decide (table.spec.engineType = p.engineType)

/-- `create_table`. -/
def createTable (now : Int) (p : CreateTableParam) (t : MetaStoreTxn) :
    Except Status (Table × MetaStoreTxn) :=
  match t.getDatabaseByName p.dbName with
  | none => .error (dbNotFound p.dbName)
  | some db =>
    match (t.getTableByName p.dbName p.tableName).filter fun table => table.state.phase ≠ .deleted with
    | some table =>
      if table.state.phase = .deleting then
        .error ⟨.alreadyExist,
          "table_name:" ++ textOf p.tableName ++ " is deleting in db:" ++ textOf p.dbName⟩
      else if sameSpec p db table then .ok (table, t)
      else
        .error ⟨.alreadyExist,
          "table_name:" ++ textOf p.tableName ++ " already exists in db:" ++ textOf p.dbName⟩
    | none =>
      let created := newTable now p db t.allocateTableId.1
      .ok (created, t.allocateTableId.2.putTable created)

/-- `drop_table`. -/
def dropTable (now : Int) (p : DropTableByNameParam) (t : MetaStoreTxn) :
    Except Status (Table × MetaStoreTxn) :=
  match t.getDatabaseByName p.dbName with
  | none => .error (dbNotFound p.dbName)
  | some _ =>
    match (t.getTableByName p.dbName p.tableName).filter fun table => table.state.phase ≠ .deleted with
    | none => .error ⟨.tableNotFound,
        "table_name:" ++ textOf p.tableName ++ " does not exist in db:" ++ textOf p.dbName⟩
    | some table =>
      if table.state.phase = .deleting then .ok (table, t)
      else
        let dropped := { table with state := { table.state with
          phase := .deleting
          operationId := "drop-table-" ++ toString table.tableId ++ "-" ++ toString now
          lastErrorMsg := ""
          updateTs := now } }
        .ok (dropped, t.putTable dropped)

/-- `alter_table_replica_count`. -/
def alterTableReplicaCount (now : Int) (p : AlterTableReplicaCountParam) (t : MetaStoreTxn) :
    Except Status (Table × MetaStoreTxn) :=
  match t.getDatabaseByName p.dbName with
  | none => .error (dbNotFound p.dbName)
  | some _ =>
    match (t.getTableByName p.dbName p.tableName).filter fun table => table.state.phase ≠ .deleted with
    | none => .error ⟨.tableNotFound,
        "table_name:" ++ textOf p.dbName ++ "." ++ textOf p.tableName ++ " does not exist"⟩
    | some table =>
      if table.state.phase = .resizing then
        if table.spec.targetReplicaCount ≠ p.replicaCount then
          .error ⟨.invalidArgument, "table_id:" ++ toString table.tableId ++
            " is already altering replica_count to " ++ toString table.spec.targetReplicaCount⟩
        else .ok (table, t)
      else if table.state.phase ≠ .ready then
        .error ⟨.invalidArgument, "table_id:" ++ toString table.tableId ++
          " state is not READY for alter replica_count"⟩
      else if table.spec.targetReplicaCount = p.replicaCount then .ok (table, t)
      else
        let updated := { table with
          spec := { table.spec with targetReplicaCount := p.replicaCount }
          state := { table.state with
            phase := .resizing
            operationId := "alter-table-replica-count-" ++ toString table.tableId ++ "-" ++ toString now
            lastErrorMsg := ""
            updateTs := now } }
        .ok (updated, t.putTable updated)

end DdlService

/-! ## What a name finds -/

variable {t : MetaStoreTxn}

variable {name : Bytes}

theorem getDatabaseByName_some {db : Database} (h : t.getDatabaseByName name = some db) :
    t.getDatabase db.dbId = some db ∧ db.name = name :=
  ⟨Keyed.get_eq_some_iff.mpr ⟨List.mem_of_find?_eq_some h, rfl⟩, by simpa using List.find?_some h⟩

theorem getDatabaseByName_none (h : t.getDatabaseByName name = none) {id : Int} {db : Database}
    (hdb : t.getDatabase id = some db) : db.name ≠ name := by
  have := List.find?_eq_none.mp h db (Keyed.mem_of_get hdb)
  simpa using this

theorem getTableByName_some {dbName : Bytes} {table : Table} (h : t.getTableByName dbName name = some table) :
    t.getTable table.tableId = some table ∧
      table.state.phase ≠ .deleted ∧ table.nameKey = (dbName, name) := by
  have hfound := List.find?_some h
  rw [decide_eq_true_eq] at hfound
  exact ⟨Keyed.get_eq_some_iff.mpr ⟨List.mem_of_find?_eq_some h, rfl⟩, hfound⟩

theorem getTableByName_none {dbName : Bytes} (h : t.getTableByName dbName name = none) {id : Int}
    {table : Table} (htable : t.getTable id = some table) (hlive : table.state.phase ≠ .deleted) :
    table.nameKey ≠ (dbName, name) := by
  have hnot := List.find?_eq_none.mp h table (Keyed.mem_of_get htable)
  rw [decide_eq_true_eq] at hnot
  exact fun hkey => hnot ⟨hlive, hkey⟩

/-- The check for a DELETED table that follows a lookup never applies. -/
theorem getTableByName_filter (dbName name : Bytes) :
    ((t.getTableByName dbName name).filter fun table => table.state.phase ≠ .deleted) =
      t.getTableByName dbName name := by
  rcases h : t.getTableByName dbName name with _ | table
  · rfl
  · exact Option.filter_some_pos (by simpa using (getTableByName_some h).2.1)

end AdvisKV.Meta
