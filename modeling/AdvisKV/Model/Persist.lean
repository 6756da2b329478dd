import AdvisKV.Model.RaftCore
import AdvisKV.Model.StateMachine

/-!
# AdvisKV — what is on disk

The three durable pieces of a replica (`raft_meta`, the WAL and the published snapshot), how the
effects of a core step reach them, and how a restarted replica is rebuilt from them
(`PersistEngine::recover` and `ReplicaLoop::handle_call(RecoverCall)`).

A WAL is the list of its records. A record that cannot be decoded is either torn (the file ends inside
it) or damaged (its checksum or its contents are wrong); nothing behind it is ever read.
-/

namespace AdvisKV

/-! ## The WAL -/

inductive WalRecord where
  | entry (e : LogEntry)
  | torn
  | damaged (msg : String)
deriving DecidableEq, Repr

structure WalReadResult where
  entries : List LogEntry := []
  error : Bool := false
  errorMsg : String := ""
deriving DecidableEq, Repr

namespace WalStore

/-- The read loop of `read_wal_from_disk` after a record with index `prevIndex`, if there was one. -/
def readLoop : Option Nat → List WalRecord → WalReadResult
  | _, [] => {}
  | _, .torn :: _ => { error := true, errorMsg := "partial wal record" }
  | _, .damaged msg :: _ =>
    { error := true, errorMsg := if msg = "" then "wal record decode failure" else msg }
  | prevIndex, .entry e :: rest =>
    match prevIndex with
    | some p =>
      if e.index ≠ p + 1 then
        { error := true
          errorMsg := "wal index is not continuous, prev=" ++ toString p ++ ", current=" ++
            toString e.index }
      else
        let r := readLoop (some e.index) rest
        { r with entries := e :: r.entries }
    | none =>
      let r := readLoop (some e.index) rest
      { r with entries := e :: r.entries }

def readWalFromDisk (records : List WalRecord) : WalReadResult := readLoop none records

/-- The WAL `rewrite` and `append_batch` leave behind. -/
def encode (es : List LogEntry) : List WalRecord := es.map .entry

structure RecoverResult where
  entries : List LogEntry := []
  needRecover : Bool := false
deriving DecidableEq, Repr

/-- `WalStore::recover`: the result and the WAL it leaves on disk. Every path rewrites the file with the
entries it keeps. -/
def recover (records : List WalRecord) (snapshotIndex : Nat) : RecoverResult × List WalRecord :=
  let read := readWalFromDisk records
  let kept := read.entries.filter fun e => decide (snapshotIndex < e.index)
  let result : RecoverResult :=
    match kept with
    | [] => { entries := [], needRecover := read.error }
    | first :: _ =>
      if first.index ≠ snapshotIndex + 1 then { entries := [], needRecover := true }
      else { entries := kept, needRecover := read.error }
  (result, encode result.entries)

end WalStore

/-! ## PersistEngine -/

/-- The files of one replica. The published snapshot is a complete one here. -/
structure PersistEngine where
  raftMeta : RaftMeta := {}
  wal : List WalRecord := []
  snapshot : Option SnapshotData := none
deriving DecidableEq, Repr

namespace PersistEngine

/-- `RaftEffectExecutor::persist_effects`: hard state first, then the rewrite or the append. -/
def persistEffects (p : PersistEngine) (effects : RaftEffects) : Status × PersistEngine :=
  if effects.entriesToRewrite.isSome && effects.entriesToAppend ≠ [] then
    (⟨.invalidArgument, "cannot both rewrite and append"⟩, p)
  else
    let p := match effects.hardState with
      | some m => { p with raftMeta := m }
      | none => p
    let p := match effects.entriesToRewrite with
      | some es => { p with wal := WalStore.encode es }
      | none => p
    (.OK, { p with wal := p.wal ++ WalStore.encode effects.entriesToAppend })

structure RecoverResult where
  snapshot : Option SnapshotData := none
  raftMeta : RaftMeta := {}
  walEntries : List LogEntry := []
  needRecover : Bool := false

/-- `PersistEngine::recover`: the header of the published snapshot, the hard state and the WAL behind
the snapshot. -/
def recover (p : PersistEngine) : RecoverResult × PersistEngine :=
  let snapshotIndex := match p.snapshot with
    | some d => d.header.applyIndex
    | none => 0
  let r := WalStore.recover p.wal snapshotIndex
  ({ snapshot := p.snapshot
     raftMeta := p.raftMeta
     walEntries := r.1.entries
     needRecover := r.1.needRecover },
    { p with wal := r.2 })

end PersistEngine

/-! ## A replica's core, state machine and files -/

structure ReplicaState where
  core : RaftCore
  stateMachine : KvStateMachine := {}
  persist : PersistEngine := {}

namespace ReplicaState

/-- `RaftEffectExecutor::execute`: run a core step, make its effects durable, and only then, if the step
itself reported OK, hand the messages to the dispatcher. -/
def execute (s : ReplicaState) (step : CoreState → Status × CoreState) :
    Status × ReplicaState × List RaftMessage :=
  let r := step { core := s.core }
  let p := s.persist.persistEffects r.2.effects
  let s := { s with core := r.2.core, persist := p.2 }
  if p.1.fail then (p.1, s, [])
  else if r.1.fail then (r.1, s, [])
  else (.OK, s, r.2.effects.messages)

/-- The first step of `SnapshotTracker::on_install_snapshot_chunk`: `prepare_install_snapshot` through the
executor, with the watermark it reports. -/
def prepareInstallSnapshot (s : ReplicaState) (param : InstallSnapshotParam) :
    Status × Nat × ReplicaState :=
  let r := s.execute fun cs =>
    let prepared := cs.prepareInstallSnapshot param
    (prepared.1, prepared.2.2)
  (r.1, (CoreState.prepareInstallSnapshot { core := s.core } param).2.1, r.2.1)

/-- `SnapshotTracker::finish_install_snapshot` for a received file that has passed verification: publish
it under the snapshot's name, restore the state machine, install the header into the core. -/
def finishInstallSnapshot (s : ReplicaState) (received : SnapshotData) : Status × ReplicaState :=
  let s := { s with persist := { s.persist with snapshot := some received } }
  match KvStateMachine.restore received with
  | .error st => (st, s)
  | .ok sm =>
    let r := { s with stateMachine := sm }.execute fun cs => (.OK, cs.installSnapshot received.header)
    (r.1, r.2.1)

end ReplicaState

/-! ## Restart -/

/-- Everything `RecoverCall` does to the core once the files are read. -/
def RaftCore.adoptRecovered (c : RaftCore) (r : PersistEngine.RecoverResult) : RaftCore :=
  let c := match r.snapshot with
    | some d => c.installSnapshotIntoLog d.header
    | none => c
  let c := (c.updateRaftMeta r.raftMeta).updateLogEntries r.walEntries
  if r.needRecover then c.enterRecovering else c

/-- `handle_call(RecoverCall)` on a replica `Replica::init` has just built: restore the state machine
from the published snapshot, install its header, then the hard state and the WAL entries. -/
def recoverCall (c : RaftCore) (p : PersistEngine) : Except Status ReplicaState :=
  let r := p.recover
  match r.1.snapshot with
  | none => .ok { core := c.adoptRecovered r.1, persist := r.2 }
  | some d =>
    match KvStateMachine.restore d with
    | .error st => .error st
    | .ok sm => .ok { core := c.adoptRecovered r.1, stateMachine := sm, persist := r.2 }

end AdvisKV
