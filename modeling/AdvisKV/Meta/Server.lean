import AdvisKV.Meta.Durability
import AdvisKV.Meta.Runs

/-!
# AdvisKV — the Meta server

The whole process: the machine of `MetaState` on a store with its file. Every call hands a function to
`write_with`, which saves before it publishes and may fail at any step of the save.

A restart loads the file, whatever the last save left in it. A process that dies inside a transaction leaves
the file as a failed save does, so a crash is a failed call followed by a restart.
-/

namespace AdvisKV.Meta

/-- A running Meta. -/
structure Server where
  store : MetaStore := {}
  task : Option Task := none

inductive ServerAction where
  | call (c : Call) (fault : Fault)
  | decide (shard : ShardID)
  | read
  | restart (powerLoss : Bool)

namespace Server

/-- What a server shows: its published data and its task. -/
def view (w : Server) : MetaState := { data := w.store.published, task := w.task }

/-- The published data, as a transaction reads it. -/
def txn (w : Server) : MetaStoreTxn := .start w.store.published

/-- A new process on this disk. -/
def boot (disk : Disk) : Option Server :=
  match MetaStore.init disk with
  | .ok store => some { store }
  | .error _ => none

def step : ServerAction → Server → Option Server
  | .call c fault, w =>
    (c.func w.view).map fun f => { store := (w.store.writeWith f fault).2, task := c.taskAfter w.task }
  | .decide shard, w =>
    if w.task.isSome then none else some { w with task := planned (reconcileGroup w.txn shard) }
  | .read, w => (w.task.bind (Task.read w.txn)).map fun task => { w with task }
  | .restart powerLoss, w => boot (w.store.disk.reopen powerLoss)

end Server

end AdvisKV.Meta
