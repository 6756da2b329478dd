import AdvisKV.Lib.Indexes
import AdvisKV.Meta.Types

/-!
# AdvisKV — the index of Meta

`MetaIndex` answers lookups by name, by resource pool, by shard and by node. It is kept up to date by a hook on
every write of a database, a table, a node or a replica, and built from all records when Meta starts. A map to
sets has no entry for an empty set.
-/

namespace AdvisKV.Meta

/-- `make_table_name_key`. -/
def Table.nameKey (table : Table) : Bytes × Bytes := (table.spec.dbName, table.spec.name)

structure MetaIndex where
  tableNames : Names (Bytes × Bytes) Int := .empty
  dbNames : Names Bytes Int := .empty
  poolNodes : Buckets Bytes NodeID := .empty
  shardReplicas : Buckets ShardID ReplicaID := .empty
  nodeReplicas : Buckets NodeID ReplicaID := .empty
deriving DecidableEq

namespace MetaIndex

/-! ## Hooks -/

/-- `on_table_upsert`: the old name is given up, and a DELETED table takes none. -/
def onTableUpsert (i : MetaIndex) (old : Option Table) (table : Table) : MetaIndex :=
  let names := match old with
    | none => i.tableNames
    | some old => i.tableNames.erase old.nameKey
  { i with tableNames :=
      if table.state.phase = .deleted then names else names.put (table.nameKey, table.tableId) }

/-- `on_node_upsert`. -/
def onNodeUpsert (i : MetaIndex) (old : Option Node) (node : Node) : MetaIndex :=
  let pools := match old with
    | none => i.poolNodes
    | some old => i.poolNodes.remove old.info.resourcePool old.id
  { i with poolNodes := pools.add node.info.resourcePool node.id }

/-- `on_replica_delete`; a replica without a node is listed under none. -/
def onReplicaDelete (i : MetaIndex) (replica : Replica) : MetaIndex :=
  { i with
    shardReplicas := i.shardReplicas.remove (shardOf replica.replicaId) replica.replicaId
    nodeReplicas :=
      if replica.spec.assignNodeId = [] then i.nodeReplicas
      else i.nodeReplicas.remove replica.spec.assignNodeId replica.replicaId }

/-- `on_replica_upsert`: the old entries go as in `on_replica_delete`. -/
def onReplicaUpsert (i : MetaIndex) (old : Option Replica) (replica : Replica) : MetaIndex :=
  let i := match old with
    | none => i
    | some old => i.onReplicaDelete old
  { i with
    shardReplicas := i.shardReplicas.add (shardOf replica.replicaId) replica.replicaId
    nodeReplicas :=
      if replica.spec.assignNodeId = [] then i.nodeReplicas
      else i.nodeReplicas.add replica.spec.assignNodeId replica.replicaId }

/-- `on_db_upsert`. -/
def onDbUpsert (i : MetaIndex) (old : Option Database) (db : Database) : MetaIndex :=
  let names := match old with
    | none => i.dbNames
    | some old => i.dbNames.erase old.name
  { i with dbNames := names.put (db.name, db.dbId) }

def onTableDelete (i : MetaIndex) (table : Table) : MetaIndex :=
  { i with tableNames := i.tableNames.erase table.nameKey }

def onDbDelete (i : MetaIndex) (db : Database) : MetaIndex :=
  { i with dbNames := i.dbNames.erase db.name }

/-! ## Lookups -/

def findTableByName (i : MetaIndex) (dbName name : Bytes) : Option Int :=
  (i.tableNames.get (dbName, name)).map Prod.snd

def findDbByName (i : MetaIndex) (name : Bytes) : Option Int := (i.dbNames.get name).map Prod.snd

def listReplicasByShard (i : MetaIndex) (shard : ShardID) : Finset ReplicaID := i.shardReplicas.bucket shard

def listReplicasByNode (i : MetaIndex) (node : NodeID) : Finset ReplicaID := i.nodeReplicas.bucket node

end MetaIndex

/-- `rebuild_index`. -/
def rebuildIndex (durable : DurableData) (runtime : RuntimeData) : MetaIndex :=
  let i := durable.databases.entries.foldl (fun i db => i.onDbUpsert none db) ({} : MetaIndex)
  let i := durable.tables.entries.foldl (fun i table => i.onTableUpsert none table) i
  let i := runtime.nodes.entries.foldl (fun i node => i.onNodeUpsert none node) i
  durable.replicas.entries.foldl (fun i replica => i.onReplicaUpsert none replica) i

end AdvisKV.Meta
