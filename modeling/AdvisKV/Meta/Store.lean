import AdvisKV.Meta.Index

/-!
# AdvisKV — the store of Meta

`MetaStoreTxn` works on a copy of the published data, keeps the index in step with every write, and remembers
whether it has touched the durable part.
`MetaStore::write_with` runs a function on such a copy; when the function succeeds and the durable part was
touched, the data is written to `meta.json` first and published only if that succeeds.

`File::atomic_replace` writes a temporary file, syncs and closes it, renames it over the old one and syncs
the directory. Each of these steps can fail on its own. A rename is visible at once, but before the directory
is synced a crash of the machine may undo it, so the disk keeps both the visible file and the one that is
certain to survive.
-/

namespace AdvisKV.Meta

/-! ## Transactions -/

structure MetaSnapshot where
  durable : DurableData := {}
  runtime : RuntimeData := {}
  index : MetaIndex := {}
deriving DecidableEq

/-- What a new process publishes: the durable data, no observations, and the index built from it. -/
def MetaSnapshot.loaded (durable : DurableData) : MetaSnapshot :=
  { durable, index := rebuildIndex durable {} }

/-- `MetaStoreTxn`: the working copies and `durable_dirty_`. -/
structure MetaStoreTxn where
  durable : DurableData
  runtime : RuntimeData
  index : MetaIndex := {}
  durableDirty : Bool := false
deriving DecidableEq

namespace MetaStoreTxn

def start (s : MetaSnapshot) : MetaStoreTxn :=
  { durable := s.durable, runtime := s.runtime, index := s.index }

def finish (t : MetaStoreTxn) : MetaSnapshot := ⟨t.durable, t.runtime, t.index⟩

/-- `mutable_durable` followed by `mark_durable_dirty`. -/
def modifyDurable (t : MetaStoreTxn) (f : DurableData → DurableData) : MetaStoreTxn :=
  { t with durable := f t.durable, durableDirty := true }

def modifyRuntime (t : MetaStoreTxn) (f : RuntimeData → RuntimeData) : MetaStoreTxn :=
  { t with runtime := f t.runtime }

def modifyIndex (t : MetaStoreTxn) (f : MetaIndex → MetaIndex) : MetaStoreTxn :=
  { t with index := f t.index }

def getDatabase (t : MetaStoreTxn) (dbId : Int) : Option Database := t.durable.databases.get dbId

def putDatabase (t : MetaStoreTxn) (db : Database) : MetaStoreTxn :=
  (t.modifyDurable fun d => { d with databases := d.databases.put db }).modifyIndex fun i =>
    i.onDbUpsert (t.getDatabase db.dbId) db

def deleteDatabase (t : MetaStoreTxn) (dbId : Int) : MetaStoreTxn :=
  if (t.getDatabase dbId).isNone then t
  else (t.modifyDurable fun d => { d with databases := d.databases.erase dbId }).modifyIndex fun i =>
    (t.getDatabase dbId).elim i i.onDbDelete

def allocateDbId (t : MetaStoreTxn) : Int × MetaStoreTxn :=
  (t.durable.dbIdAllocator,
    t.modifyDurable fun d => { d with dbIdAllocator := d.dbIdAllocator + 1 })

def allocateTableId (t : MetaStoreTxn) : Int × MetaStoreTxn :=
  (t.durable.tableIdAllocator,
    t.modifyDurable fun d => { d with tableIdAllocator := d.tableIdAllocator + 1 })

def getTable (t : MetaStoreTxn) (tableId : Int) : Option Table := t.durable.tables.get tableId

def putTable (t : MetaStoreTxn) (table : Table) : MetaStoreTxn :=
  (t.modifyDurable fun d => { d with tables := d.tables.put table }).modifyIndex fun i =>
    i.onTableUpsert (t.getTable table.tableId) table

def deleteTable (t : MetaStoreTxn) (tableId : Int) : MetaStoreTxn :=
  if (t.getTable tableId).isNone then t
  else (t.modifyDurable fun d => { d with tables := d.tables.erase tableId }).modifyIndex fun i =>
    (t.getTable tableId).elim i i.onTableDelete

def getReplica (t : MetaStoreTxn) (id : ReplicaID) : Option Replica := t.durable.replicas.get id

def putReplica (t : MetaStoreTxn) (replica : Replica) : MetaStoreTxn :=
  (t.modifyDurable fun d => { d with replicas := d.replicas.put replica }).modifyIndex fun i =>
    i.onReplicaUpsert (t.getReplica replica.replicaId) replica

/-- `put_replicas`: an empty list leaves the flag alone. The old records are read before any is written. -/
def putReplicas (t : MetaStoreTxn) (replicas : List Replica) : MetaStoreTxn :=
  if replicas = [] then t
  else (t.modifyDurable fun d => { d with replicas := replicas.foldl Keyed.put d.replicas }).modifyIndex
    fun i => replicas.foldl (fun i r => i.onReplicaUpsert (t.getReplica r.replicaId) r) i

/-- `delete_replica`: the observation goes even when there is no record. -/
def deleteReplica (t : MetaStoreTxn) (id : ReplicaID) : MetaStoreTxn :=
  let t' := t.modifyRuntime fun r => { r with replicaObserveds := r.replicaObserveds.erase id }
  if (t.getReplica id).isNone then t'
  else (t'.modifyDurable fun d => { d with replicas := d.replicas.erase id }).modifyIndex fun i =>
    (t.getReplica id).elim i i.onReplicaDelete

def getReplicaGroup (t : MetaStoreTxn) (id : ShardID) : Option ReplicaGroup :=
  t.durable.replicaGroups.get id

def putReplicaGroup (t : MetaStoreTxn) (group : ReplicaGroup) : MetaStoreTxn :=
  t.modifyDurable fun d => { d with replicaGroups := d.replicaGroups.put group }

def deleteReplicaGroup (t : MetaStoreTxn) (id : ShardID) : MetaStoreTxn :=
  if (t.getReplicaGroup id).isNone then t
  else t.modifyDurable fun d => { d with replicaGroups := d.replicaGroups.erase id }

def getNode (t : MetaStoreTxn) (id : NodeID) : Option Node := t.runtime.nodes.get id

def putNode (t : MetaStoreTxn) (node : Node) : MetaStoreTxn :=
  (t.modifyRuntime fun r => { r with nodes := r.nodes.put node }).modifyIndex fun i =>
    i.onNodeUpsert (t.getNode node.id) node

def getReplicaObserved (t : MetaStoreTxn) (id : ReplicaID) : Option ReplicaObserved :=
  (t.runtime.replicaObserveds.get id).map Prod.snd

def putReplicaObserved (t : MetaStoreTxn) (id : ReplicaID) (observed : ReplicaObserved) :
    MetaStoreTxn :=
  t.modifyRuntime fun r => { r with replicaObserveds := r.replicaObserveds.put (id, observed) }

def getMembershipObserved (t : MetaStoreTxn) (id : ShardID) : Option MembershipObserved :=
  (t.runtime.membershipObserveds.get id).map Prod.snd

def putMembershipObserved (t : MetaStoreTxn) (id : ShardID) (observed : MembershipObserved) :
    MetaStoreTxn :=
  t.modifyRuntime fun r => { r with membershipObserveds := r.membershipObserveds.put (id, observed) }

def getShardRoute (t : MetaStoreTxn) (id : ShardID) : Option ShardRoute := t.runtime.shardRoutes.get id

def putShardRoute (t : MetaStoreTxn) (route : ShardRoute) : MetaStoreTxn :=
  t.modifyRuntime fun r => { r with shardRoutes := r.shardRoutes.put route }

def deleteShardRoute (t : MetaStoreTxn) (id : ShardID) : MetaStoreTxn :=
  if (t.getShardRoute id).isNone then t
  else t.modifyRuntime fun r => { r with shardRoutes := r.shardRoutes.erase id }

/-- One operation that changes the transaction. -/
inductive Op where
  | putDatabase (db : Database)
  | deleteDatabase (dbId : Int)
  | allocateDbId
  | allocateTableId
  | putTable (table : Table)
  | deleteTable (tableId : Int)
  | putReplica (replica : Replica)
  | putReplicas (replicas : List Replica)
  | deleteReplica (id : ReplicaID)
  | putReplicaGroup (group : ReplicaGroup)
  | deleteReplicaGroup (id : ShardID)
  | putNode (node : Node)
  | putReplicaObserved (id : ReplicaID) (observed : ReplicaObserved)
  | putMembershipObserved (id : ShardID) (observed : MembershipObserved)
  | putShardRoute (route : ShardRoute)
  | deleteShardRoute (id : ShardID)

def Op.run : Op → MetaStoreTxn → MetaStoreTxn
  | .putDatabase db, t => t.putDatabase db
  | .deleteDatabase dbId, t => t.deleteDatabase dbId
  | .allocateDbId, t => t.allocateDbId.2
  | .allocateTableId, t => t.allocateTableId.2
  | .putTable table, t => t.putTable table
  | .deleteTable tableId, t => t.deleteTable tableId
  | .putReplica replica, t => t.putReplica replica
  | .putReplicas replicas, t => t.putReplicas replicas
  | .deleteReplica id, t => t.deleteReplica id
  | .putReplicaGroup group, t => t.putReplicaGroup group
  | .deleteReplicaGroup id, t => t.deleteReplicaGroup id
  | .putNode node, t => t.putNode node
  | .putReplicaObserved id observed, t => t.putReplicaObserved id observed
  | .putMembershipObserved id observed, t => t.putMembershipObserved id observed
  | .putShardRoute route, t => t.putShardRoute route
  | .deleteShardRoute id, t => t.deleteShardRoute id

end MetaStoreTxn

/-! ## The persisted record -/

structure MetaPersistedRecord where
  nextDbId : Int := 0
  nextTableId : Int := 0
  databases : List Database := []
  tables : List Table := []
  replicas : List Replica := []
  replicaGroups : List ReplicaGroup := []
deriving DecidableEq

/-- The smallest value that is at least `start` and above every id of the list. -/
def watermark {α : Type} (id : α → Int) (start : Int) (records : List α) : Int :=
  records.foldl (fun next a => max next (id a + 1)) start

/-- The record `persist_if_needed` builds. -/
def MetaPersistedRecord.ofDurable (d : DurableData) : MetaPersistedRecord where
  nextDbId := watermark Database.dbId d.dbIdAllocator d.databases.entries
  nextTableId := watermark Table.tableId d.tableIdAllocator d.tables.entries
  databases := d.databases.entries
  tables := d.tables.entries
  replicas := d.replicas.entries
  replicaGroups := d.replicaGroups.entries

/-- `load_from_persist`. -/
def MetaPersistedRecord.toDurable (r : MetaPersistedRecord) : DurableData where
  dbIdAllocator := r.nextDbId
  tableIdAllocator := r.nextTableId
  databases := .fill r.databases
  tables := .fill r.tables
  replicas := .fill r.replicas
  replicaGroups := .fill r.replicaGroups

/-- The loop of `check_shard_ranges_is_valid`, from the start it expects and the indexes it has seen. -/
def checkRanges : Nat → List Int → List ShardRange → Status
  | _, _, [] => .OK
  | expected, seen, r :: rest =>
    if r.shardIndex < 0 then ⟨.invalidArgument, "shard_range.shard_index < 0"⟩
    else if r.shardIndex ∈ seen then ⟨.invalidArgument, "shard_range.shard_index is not unqiue"⟩
    else if r.range.start ≠ expected ∨ r.range.stop ≤ r.range.start ∨ hashBucketCount < r.range.stop ∨
        (rest = [] ∧ r.range.stop ≠ hashBucketCount) then
      ⟨.invalidArgument, "hash ranges is not valid"⟩
    else checkRanges r.range.stop (r.shardIndex :: seen) rest

/-- `check_shard_ranges_is_valid`, called with the number of ranges as the count. -/
def checkShardRangesIsValid (ranges : List ShardRange) : Status :=
  if ranges = [] ∨ hashBucketCount < ranges.length then ⟨.invalidArgument, "invalid shard count"⟩
  else checkRanges 0 [] ranges

/-- The loop over the tables in `validate_record`. -/
def validateTables : List Int → List Table → Status
  | _, [] => .OK
  | seen, table :: rest =>
    if table.tableId ∈ seen then ⟨.error, "duplicate table ID"⟩
    else
      let ranges := checkShardRangesIsValid table.spec.shardRanges
      if ranges.fail then ranges else validateTables (table.tableId :: seen) rest

/-- `validate_record`. -/
def MetaPersistedRecord.validate (r : MetaPersistedRecord) : Status :=
  if ¬ (r.databases.map Database.dbId).Nodup then ⟨.error, "duplicate database ID"⟩
  else if (validateTables [] r.tables).fail then validateTables [] r.tables
  else if ¬ (r.replicas.map Replica.replicaId).Nodup then ⟨.error, "duplicate replica ID"⟩
  else if ¬ (r.replicaGroups.map ReplicaGroup.shardId).Nodup then
    ⟨.error, "duplicate replica group ID"⟩
  else if r.tables ≠ [] ∧
      r.nextTableId ≤ r.tables.foldl (fun m table => max m table.tableId) (-1) then
    ⟨.error, "stale next_table_id allocator"⟩
  else if r.databases ≠ [] ∧ r.nextDbId ≤ r.databases.foldl (fun m db => max m db.dbId) 0 then
    ⟨.error, "stale next_db_id allocator"⟩
  else .OK

/-! ## The disk -/

/-- `meta.json`: `visible` is what a new process reads, `synced` what is certain to survive a crash of the
machine. `none` is a missing file. -/
structure Disk where
  visible : Option MetaPersistedRecord := none
  synced : Option MetaPersistedRecord := none
deriving DecidableEq

/-- The steps of `save_meta` that the system below it can fail: encoding, the size limit, and those of
`atomic_replace`. -/
inductive SaveStep where
  | encode
  | limit
  | createDir
  | openTmp
  | writeTmp
  | syncTmp
  | closeTmp
  | rename
  | syncDir
deriving DecidableEq, Repr

/-- A step fails with a status that is not OK, or all succeed. -/
abbrev Fault := Option (SaveStep × {st : Status // st.fail = true})

/-- `save_meta`. Only the failure of the last step comes after the file has been replaced. -/
def Disk.saveMeta (disk : Disk) (record : MetaPersistedRecord) (fault : Fault) : Status × Disk :=
  if record.validate.fail then (record.validate, disk)
  else match fault with
    | none => (.OK, ⟨some record, some record⟩)
    | some (.syncDir, st) => (st, { disk with visible := some record })
    | some (_, st) => (st, disk)

/-- `load_meta`; a missing file is an empty record. -/
def loadMeta (file : Option MetaPersistedRecord) : Except Status MetaPersistedRecord :=
  match file with
  | none => .ok {}
  | some record => if record.validate.fail then .error record.validate else .ok record

/-! ## The store -/

/-- A running Meta with a data directory. -/
structure MetaStore where
  published : MetaSnapshot := {}
  disk : Disk := {}
deriving DecidableEq

/-- `MetaStore::write_with`. -/
def MetaStore.writeWith (s : MetaStore) (func : MetaStoreTxn → Status × MetaStoreTxn) (fault : Fault) :
    Status × MetaStore :=
  let r := func (.start s.published)
  if r.1.fail then (r.1, s)
  else if r.2.durableDirty then
    let saved := s.disk.saveMeta (.ofDurable r.2.durable) fault
    if saved.1.fail then (saved.1, { s with disk := saved.2 })
    else (.OK, ⟨r.2.finish, saved.2⟩)
  else (.OK, { s with published := r.2.finish })

/-- `MetaStore::init` on a file: the durable data, with no observations. -/
def MetaStore.init (disk : Disk) : Except Status MetaStore :=
  match loadMeta disk.visible with
  | .error st => .error st
  | .ok record => .ok ⟨.loaded record.toDurable, disk⟩

end AdvisKV.Meta
