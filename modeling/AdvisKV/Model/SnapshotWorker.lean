import AdvisKV.Model.ReplicaLoop

/-!
# AdvisKV — the snapshot worker and the files it shares with the loop

`SnapshotWriter` writes a snapshot candidate on a thread of its own while the replica loop goes on. The
two meet in the directory: the worker opens (and truncates) the candidate file of its capture index and
writes it part by part; the loop renames a candidate, or a received file, to the published name. This
module keeps names and files apart, so that a rename moves a name and a worker that still has the file
open goes on writing it.

The replica loop's own view of snapshots in `ReplicaLoop` takes candidates as complete.
-/

namespace AdvisKV

/-- The contents of a snapshot file: the snapshot being written into it and how many of its parts are
still missing. `SnapshotFileReader::initialize` accepts it when none is. -/
structure SnapshotFile where
  data : SnapshotData := {}
  missing : Nat := 0
deriving DecidableEq

/-- The files of one replica directory, and the names that point to them. -/
structure SnapshotDisk where
  files : Nat → SnapshotFile := fun _ => {}
  nextFile : Nat := 0
  published : Option Nat := none
  candidate : Nat → Option Nat := fun _ => none

namespace SnapshotDisk

/-- The index `publish_local_snapshot` reads from the published file: 0 without one, and 0 when it does
not verify. -/
def currentIndex (d : SnapshotDisk) : Nat :=
  match d.published with
  | none => 0
  | some f => if (d.files f).missing = 0 then (d.files f).data.header.applyIndex else 0

/-- `File::open_for_write` on the candidate name of `data`: an existing file is truncated in place. -/
def openCandidate (d : SnapshotDisk) (data : SnapshotData) (parts : Nat) : Nat × SnapshotDisk :=
  match d.candidate data.header.applyIndex with
  | some f => (f, { d with files := Function.update d.files f ⟨data, parts⟩ })
  | none =>
    (d.nextFile, { d with
      files := Function.update d.files d.nextFile ⟨data, parts⟩
      nextFile := d.nextFile + 1
      candidate := Function.update d.candidate data.header.applyIndex (some d.nextFile) })

/-- The worker writes one part. -/
def writePart (d : SnapshotDisk) (f : Nat) : SnapshotDisk :=
  let file := d.files f
  { d with files := Function.update d.files f { file with missing := file.missing - 1 } }

/-- `publish_local_snapshot`: `none` when there is no candidate to rename. -/
def publishLocal (d : SnapshotDisk) (captureIndex : Nat) : Option SnapshotDisk :=
  let removed := Function.update d.candidate captureIndex none
  if captureIndex ≤ d.currentIndex then some { d with candidate := removed }
  else match d.candidate captureIndex with
    | none => none
    | some f => some { d with published := some f, candidate := removed }

/-- A received file that verifies takes the published name. -/
def publishReceived (d : SnapshotDisk) (received : SnapshotData) : SnapshotDisk :=
  { d with
    files := Function.update d.files d.nextFile ⟨received, 0⟩
    nextFile := d.nextFile + 1
    published := some d.nextFile }

end SnapshotDisk

/-- Where the worker stands. It is busy in every phase but `idle`. -/
inductive WorkerPhase where
  | idle
  | starting (data : SnapshotData)
  | writing (file : Nat) (data : SnapshotData)
  | finishing
deriving DecidableEq

/-- A loop iteration is a dispatch followed by `advance_trackers`. -/
inductive LoopPhase where
  | dispatch
  | advance
deriving DecidableEq

/-- The event that installs a snapshot into the core, which only the snapshot tracker runs. -/
def CoreEvent.installs : CoreEvent → Bool
  | .installSnapshot _ => true
  | _ => false

/-- A replica loop with its snapshot worker. -/
structure SnapshotSystem where
  replica : ReplicaState
  snapshotLimit : Nat := 0
  disk : SnapshotDisk := {}
  worker : WorkerPhase := .idle
  doneEvents : List (Nat × Nat) := []
  phase : LoopPhase := .dispatch
  faulted : Bool := false

/-- The steps of the two threads. `received` is the last chunk of a snapshot transfer, with what the
verification of the received file finds in it; the chunks before it touch neither the candidates nor
the published file. -/
inductive SnapshotAction where
  | core (ev : CoreEvent)
  | received (param : InstallSnapshotParam) (file : Except Status SnapshotData)
  | snapshotDone
  | advance
  | workerOpen (parts : Nat)
  | workerWrite
  | workerPost
  | workerClear

namespace SnapshotSystem

/-- `finish_dispatch`. -/
def finish (s : SnapshotSystem) : SnapshotSystem :=
  match ApplyState.applyCommittedEntriesInline
      { core := s.replica.core, stateMachine := s.replica.stateMachine } with
  | none => { s with phase := .advance }
  | some (applied, a) =>
    { s with
      replica := { s.replica with core := a.core, stateMachine := a.stateMachine }
      faulted := applied.fail
      phase := .advance }

def fault (s : SnapshotSystem) : SnapshotSystem := { s with faulted := true }

/-- The end of `on_install_snapshot_chunk` for the last chunk of a transfer. -/
def onReceived (s : SnapshotSystem) (param : InstallSnapshotParam) (file : Except Status SnapshotData) :
    SnapshotSystem :=
  let prepared := s.replica.prepareInstallSnapshot param
  let s := { s with replica := prepared.2.2 }
  if prepared.1.fail then s.finish
  else if param.snapshotIndex ≤ prepared.2.1 then s.finish
  else match file with
    -- the old file is still the published one
    | .error _ => s.fault
    | .ok received =>
      let s := { s with disk := s.disk.publishReceived received }
      match KvStateMachine.restore received with
      | .error _ => s.fault
      | .ok sm =>
        { s with replica := ({ s.replica with stateMachine := sm }.executeEvent
          (.installSnapshot received.header)).2.1 }.finish

/-- `on_snapshot_done`: the flag of `publish_local_snapshot` is not looked at. -/
def onDone (s : SnapshotSystem) (captureIndex captureTerm : Nat) : SnapshotSystem :=
  match s.disk.publishLocal captureIndex with
  | none => s.fault
  | some disk =>
    let s' := { s with disk }
    if captureIndex ≤ s.replica.core.snapshotIndex then s'.finish
    else
      { s' with replica := (s.replica.executeEvent
        (.installSnapshot { applyIndex := captureIndex, applyTerm := captureTerm })).2.1 }.finish

/-- `SnapshotTracker::advance`. -/
def advance (s : SnapshotSystem) : SnapshotSystem :=
  let c := s.replica.core
  let s := { s with phase := .dispatch }
  if c.lastApplied < c.snapshotIndex ∨ c.lastApplied - c.snapshotIndex < s.snapshotLimit then s
  else if s.worker ≠ .idle then s
  else { s with worker := .starting (ReplicaLoop.captured s.replica) }

/-- The loop thread is about to dispatch. -/
def dispatches (s : SnapshotSystem) : Bool := s.phase == .dispatch && !s.faulted

/-- One step of either thread, if it is possible. -/
def step : SnapshotAction → SnapshotSystem → Option SnapshotSystem
  | .core ev, s =>
    if s.dispatches && !ev.installs then
      some { s with replica := (s.replica.executeEvent ev).2.1 }.finish
    else none
  | .received param file, s => if s.dispatches then some (s.onReceived param file) else none
  | .snapshotDone, s =>
    match s.doneEvents with
    | [] => none
    | (k, t) :: rest =>
      if s.dispatches then some ({ s with doneEvents := rest }.onDone k t) else none
  | .advance, s => if s.phase == .advance && !s.faulted then some s.advance else none
  | .workerOpen parts, s =>
    match s.worker with
    | .starting data =>
      let opened := s.disk.openCandidate data parts
      some { s with disk := opened.2, worker := .writing opened.1 data }
    | _ => none
  | .workerWrite, s =>
    match s.worker with
    | .writing f _ => some { s with disk := s.disk.writePart f }
    | _ => none
  -- the event is queued before the busy flag is cleared
  | .workerPost, s =>
    match s.worker with
    | .writing f data =>
      if (s.disk.files f).missing = 0 then
        some { s with
          worker := .finishing
          doneEvents := s.doneEvents ++ [(data.header.applyIndex, data.header.applyTerm)] }
      else none
    | _ => none
  | .workerClear, s =>
    match s.worker with
    | .finishing => some { s with worker := .idle }
    | _ => none

end SnapshotSystem

end AdvisKV
