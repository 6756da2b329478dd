import AdvisKV.Lib.Machine
import AdvisKV.Meta.Placement

/-!
# AdvisKV — runs of Meta

The transactions of Meta as the actions of one machine: databases and tables are created, altered and dropped,
nodes register and report, and the one background thread works through its reconcilers, each transaction after
the other; calls from outside may come between any two of them. The background thread decides about a group on
one snapshot, gathers the nodes its members occupy on a second one, selects new nodes on a third and writes in
a transaction of its own.

A call that fails leaves the data alone, and a task of the background thread whose write fails is given up. A
restart keeps the durable data and loses everything else. What a save that fails half-way leaves in the file is
not seen here: `Server` has the file, and `Server.simulates` says when the two machines agree.
-/

namespace AdvisKV.Meta

/-! ## Adding members, read by read -/

/-- What the background thread has under way with a group. -/
inductive Task where
  | plan (plan : Plan)
  | gathered (shard : ShardID) (count : Int) (pool : Bytes) (engine : EngineType) (occupied : List NodeID)
  | placed (shard : ShardID) (nodes : List Node) (engine : EngineType)
  | refused (shard : ShardID) (reason : String)
deriving DecidableEq

/-- The task a decision leaves: nothing at all, or a plan. -/
def planned (plan : Plan) : Option Task := if plan = .nothing then none else some (.plan plan)

/-- The first read of `add_members`: what to select for, and the nodes that are taken. -/
def gatherOccupied (t : MetaStoreTxn) (shard : ShardID) (count : Int) : Option Task :=
  match t.getTable shard.tableId, t.getReplicaGroup shard with
  | some table, some group =>
    if count ≤ 0 ∨ group.targetReplicaCount ≤ 0 then none
    else
      let occupied := (group.desiredMembers.filterMap t.getReplica).map fun r => r.spec.assignNodeId
      some (.gathered shard count table.spec.resourcePool table.spec.engineType
        (occupied.filter fun id => id ≠ []))
  | _, _ => none

/-- The request of `add_members` to the selector: nodes for one shard. -/
def placeOne (pool : Bytes) (count : Int) (occupied : List NodeID) : PlaceNodesParam :=
  { resourcePool := pool, shardCount := 1, replicaCount := Int32.ofInt count, excludedNodeIds := occupied }

/-- The next read of `add_members`, and the task it leaves. -/
def Task.read (t : MetaStoreTxn) : Task → Option (Option Task)
  | .plan (.addMembers shard count) => some (gatherOccupied t shard count)
  | .gathered shard count pool engine occupied =>
    match NodeSelector.selectTableNodes t (placeOne pool count occupied) with
    | .ok shards => some (shards.head?.map fun front => .placed shard front.nodes engine)
    | .error st => some (some (.refused shard ("waiting for resources: " ++ st.msg)))
  | _ => none

/-- The write of `add_members` when no nodes could be selected. -/
def noteRefusal (now : Int) (t : MetaStoreTxn) (shard : ShardID) (reason : String) : MetaStoreTxn :=
  match t.getTable shard.tableId with
  | none => t
  | some table =>
    if table.state.lastErrorMsg = reason then t
    else t.putTable { table with state := { table.state with lastErrorMsg := reason, updateTs := now } }

/-! ## Calls -/

/-- A function for `write_with`. -/
abbrev WriteFunc := MetaStoreTxn → Status × MetaStoreTxn

/-- Always succeeds. -/
def WriteFunc.total (f : MetaStoreTxn → MetaStoreTxn) : WriteFunc := fun t => (.OK, f t)

/-- Fails with an error, or leaves a transaction. -/
def WriteFunc.answer {α : Type} (f : MetaStoreTxn → Except Status (α × MetaStoreTxn)) : WriteFunc := fun t =>
  match f t with
  | .error st => (st, t)
  | .ok (_, t') => (.OK, t')

/-- `RETURN_IF_INVALID_PARAM`. -/
def WriteFunc.valid (st : Status) (f : WriteFunc) : WriteFunc := fun t => if st.fail then (st, t) else f t

/-- The calls from outside, and the transactions of the background thread. -/
inductive Call where
  | createDb (p : CreateDBParam)
  | dropDb (p : DropDBParam)
  | createTable (now : Int) (p : CreateTableParam)
  | dropTable (now : Int) (p : DropTableByNameParam)
  | alterTableReplicaCount (now : Int) (p : AlterTableReplicaCountParam)
  | registerNode (now : Int) (p : RegisterNodeParam)
  | heartbeat (now : Int) (p : HeartBeatParam)
  | checkNodes (startTs now : Int) (ids : List NodeID)
  | ensureGroup (tableId shardIndex : Int)
  | absentTable (tableId : Int)
  | phases (now : Int)
  | carryOut (now : Int)
  | route (shard : ShardID)
  | finalizeTable (now : Int) (tableId : Int)
  | finalizeAbsentTable (now : Int) (tableId : Int)

/-- The write of the background thread's task, if the task is to write. -/
def Task.func (now : Int) : Task → Option WriteFunc
  | .plan (.removeMembers shard count) => some (.total fun t => removeMembers now t shard count)
  | .plan (.removeSpecificMembers shard victims) =>
    some (.total fun t => removeSpecificMembers now t shard victims)
  | .plan (.cleanupGroup shard) => some (.total fun t => cleanupGroup t shard)
  | .placed shard nodes engine => some (.total fun t => addMembers now t shard engine nodes)
  | .refused shard reason => some (.total fun t => noteRefusal now t shard reason)
  | _ => none

/-- Carrying a task out ends it, whether the write succeeds or not. -/
def Call.taskAfter (task : Option Task) : Call → Option Task
  | .carryOut _ => none
  | _ => task

/-! ## The machine -/

/-- The published data, and what the background thread has under way. -/
structure MetaState where
  data : MetaSnapshot := {}
  task : Option Task := none
deriving DecidableEq

namespace MetaState

/-- The published data, as a transaction reads it. -/
def txn (s : MetaState) : MetaStoreTxn := .start s.data

/-- A transaction of the background thread, which has no task under way. -/
def background (s : MetaState) (f : MetaStoreTxn → MetaStoreTxn) : Option WriteFunc :=
  if s.task.isSome then none else some (.total f)

end MetaState

/-- The function a call hands to `write_with`, if the call can be made. The background thread goes through the
tables and their shards as it has read them: a shard it looks after is one of its table, and a table it takes
for absent is absent. -/
def Call.func (s : MetaState) : Call → Option WriteFunc
  | .createDb p => some (.valid p.validate (.answer (DdlService.createDb p)))
  | .dropDb p => some (.valid p.validate (.answer (DdlService.dropDb p)))
  | .createTable now p => some (.valid p.validate (.answer (DdlService.createTable now p)))
  | .dropTable now p => some (.valid p.validate (.answer (DdlService.dropTable now p)))
  | .alterTableReplicaCount now p =>
    some (.valid p.validate (.answer (DdlService.alterTableReplicaCount now p)))
  | .registerNode now p => some (.valid p.validate (.total fun t => Meta.registerNode now t p))
  | .heartbeat now p => some (.valid p.validate (heartbeatTxn now p))
  | .checkNodes startTs now ids => s.background fun t => ids.foldl (checkNode startTs now) t
  | .ensureGroup tableId shardIndex =>
    if (s.txn.getTable tableId).any fun table =>
        decide (shardIndex ∈ table.spec.shardRanges.map ShardRange.shardIndex) then
      s.background fun t => ensureGroupForShard t tableId shardIndex
    else none
  | .absentTable tableId =>
    if (s.txn.getTable tableId).any fun table => table.state.phase.isAbsent then
      s.background fun t => reconcileAbsentTable t tableId
    else none
  | .phases now => s.background (reconcilePhases now)
  | .carryOut now => s.task.bind (Task.func now)
  | .route shard => s.background fun t => checkShardRoute t shard
  | .finalizeTable now tableId => s.background fun t => Meta.finalizeTable now t tableId
  | .finalizeAbsentTable now tableId => s.background fun t => Meta.finalizeAbsentTable now t tableId

inductive MetaAction where
  | call (c : Call)
  | decide (shard : ShardID)
  | read
  | abandon
  | restart

/-- One action. A call that fails is no step, except that it may end a task: `abandon`. -/
def MetaState.step : MetaAction → MetaState → Option MetaState
  | .call c, s => (c.func s).bind fun f =>
    if (f s.txn).1.fail then none
    else some { data := (f s.txn).2.finish, task := c.taskAfter s.task }
  | .decide shard, s =>
    if s.task.isSome then none else some { s with task := planned (reconcileGroup s.txn shard) }
  | .read, s => (s.task.bind (Task.read s.txn)).map fun task => { s with task }
  | .abandon, s => some { s with task := none }
  | .restart, s => some { data := .loaded s.data.durable }

end AdvisKV.Meta
