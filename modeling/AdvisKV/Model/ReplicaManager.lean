import AdvisKV.Lib.Keyed
import AdvisKV.Meta.Types
import AdvisKV.Model.AppendCall

/-!
# AdvisKV — the replicas of a storage node

`ReplicaManager`, `Replica` as far as it is built, recovered and started, and `ReplicaMetaPersistEngine`: the map of
replicas, the index of shards, and a data directory with one directory for each replica. The name of that directory
has the table and the shard of the replica, not its sequence number.

An operation on files may fail, and a call then returns with part of its work done. A crash inside a call leaves the
files a failure at that place leaves.

Each file is annotated with the ids of the replicas whose data it holds. The code has no such thing; it serves to
say whose data a replica runs with.
-/

namespace AdvisKV

open Meta (ShardID shardOf)

/-! ## The data directory -/

/-- The status of an operation that has failed. -/
abbrev Failure := { status : Status // status.fail = true }

/-- `replica_dir`, below the data directory. -/
def replicaDir (id : ReplicaID) : String := toString id.tableId ++ "-" ++ toString id.shardIndex

/-- `ReplicaInitParam`, without what the manager fills in. -/
structure ReplicaInitParam where
  replicaId : ReplicaID := {}
  localEndpoint : Endpoint := {}
  members : List PeerMember := []
deriving DecidableEq, Repr

/-- A file and the replicas whose data it holds. -/
structure StateFile (α : Type) where
  content : α
  writers : List ReplicaID := []
deriving DecidableEq, Repr

/-- The directory of a replica: `wal.log`, `raft_meta`, `snapshot` and `replica_meta`. -/
structure ReplicaDir where
  name : String
  wal : Option (StateFile (List WalRecord)) := none
  raftMeta : Option (StateFile RaftMeta) := none
  snapshot : Option (StateFile SnapshotData) := none
  replicaMeta : Option ReplicaInitParam := none
deriving DecidableEq, Repr

inductive ReplicaFile where
  | wal
  | raftMeta
  | snapshot
  | replicaMeta
deriving DecidableEq, Repr

namespace ReplicaDir

/-- The replicas whose log entries, hard state or snapshot the directory holds. -/
def writers (d : ReplicaDir) : List ReplicaID :=
  (d.wal.map StateFile.writers).getD [] ++ (d.raftMeta.map StateFile.writers).getD [] ++
    (d.snapshot.map StateFile.writers).getD []

/-- What `PersistEngine` finds. An absent file is read as an empty one. -/
def engine (d : ReplicaDir) : PersistEngine :=
  { raftMeta := (d.raftMeta.map StateFile.content).getD {}
    wal := (d.wal.map StateFile.content).getD []
    snapshot := d.snapshot.map StateFile.content }

/-- The test of `disk_has_replica_state`. -/
def hasReplicaState (d : ReplicaDir) : Bool := d.wal.isSome || d.raftMeta.isSome || d.snapshot.isSome

/-- `WalStore::open` creates the file if it is not there. -/
def openWal (d : ReplicaDir) : ReplicaDir := { d with wal := d.wal.or (some { content := [] }) }

/-- The WAL after replica `id` has made it `records`. What was there before may still be part of it. -/
def writeWal (d : ReplicaDir) (id : ReplicaID) (records : List WalRecord) :
    Option (StateFile (List WalRecord)) :=
  if records = d.engine.wal then d.wal
  else some { content := records
              writers := if records = [] then [] else id :: (d.wal.map StateFile.writers).getD [] }

/-- The directory after replica `id` has stored `p`; of the three files only those in `stored` have been reached. The
hard state and the snapshot are replaced as a whole. -/
def write (d : ReplicaDir) (id : ReplicaID) (p : PersistEngine) (stored : ReplicaFile → Bool) : ReplicaDir :=
  { d with
    wal := if stored .wal then d.writeWal id p.wal else d.wal
    raftMeta :=
      if stored .raftMeta && p.raftMeta ≠ d.engine.raftMeta then some ⟨p.raftMeta, [id]⟩ else d.raftMeta
    snapshot :=
      if stored .snapshot && p.snapshot ≠ d.engine.snapshot then p.snapshot.map (⟨·, [id]⟩) else d.snapshot }

/-- What is left when `remove_all` has reached every file but those in `kept`. -/
def keep (d : ReplicaDir) (kept : ReplicaFile → Bool) : ReplicaDir :=
  { d with
    wal := if kept .wal then d.wal else none
    raftMeta := if kept .raftMeta then d.raftMeta else none
    snapshot := if kept .snapshot then d.snapshot else none
    replicaMeta := if kept .replicaMeta then d.replicaMeta else none }

end ReplicaDir

/-- The directories below the data directory, by name. -/
abbrev DataDir := Keyed ReplicaDir.name

namespace DataDir

def createDirectory (disk : DataDir) (name : String) : DataDir :=
  match disk.get name with
  | some _ => disk
  | none => disk.put { name }

/-- Change a directory that is there. -/
def modify (disk : DataDir) (name : String) (f : ReplicaDir → ReplicaDir) : DataDir :=
  match disk.get name with
  | some d => disk.put { f d with name }
  | none => disk

/-- `disk_has_replica_state`. -/
def hasReplicaState (disk : DataDir) (id : ReplicaID) : Bool :=
  ((disk.get (replicaDir id)).map ReplicaDir.hasReplicaState).getD false

/-- What the `PersistEngine` of `id` finds. -/
def engine (disk : DataDir) (id : ReplicaID) : PersistEngine :=
  ((disk.get (replicaDir id)).map ReplicaDir.engine).getD {}

/-- The replicas whose data the directory of `id` holds. -/
def writers (disk : DataDir) (id : ReplicaID) : List ReplicaID :=
  ((disk.get (replicaDir id)).map ReplicaDir.writers).getD []

/-- `save_replica_meta`. -/
def saveReplicaMeta (disk : DataDir) (param : ReplicaInitParam) : DataDir :=
  disk.modify (replicaDir param.replicaId) fun d => { d with replicaMeta := some param }

/-- `scan_replica_meta_files` and `load_replica_meta` of each file, in the order of the paths. -/
def scanReplicaMetaFiles (disk : DataDir) : List ReplicaInitParam :=
  (disk.entries.insertionSort fun d d' => d.name ≤ d'.name).filterMap ReplicaDir.replicaMeta

end DataDir

/-- How the removal of a directory ends: completely, on an error that leaves the files in `kept`, or with the
directory gone and its parent not synced. -/
inductive Removal where
  | complete
  | interrupted (kept : ReplicaFile → Bool) (what : String)
  | unsynced (failure : Failure)

/-- `delete_replica_data`. -/
def DataDir.deleteReplicaData (disk : DataDir) (id : ReplicaID) (removal : Removal) : Status × DataDir :=
  match disk.get (replicaDir id), removal with
  | none, _ => (.OK, disk)
  | some _, .complete => (.OK, disk.erase (replicaDir id))
  | some _, .interrupted kept what =>
    (⟨.error, "delete replica data failed: " ++ what⟩, disk.modify (replicaDir id) (·.keep kept))
  | some _, .unsynced failure => (failure, disk.erase (replicaDir id))

/-! ## Replicas -/

/-- `ReplicaRuntimeOptions`, and the random numbers the election timers of the process draw. -/
structure ReplicaRuntimeOptions where
  dataDir : String
  raftDoSnapshotLimit : Nat := 0
  electionLimits : Nat → Nat := fun _ => 1

/-- A `Replica` with what it was created with. `loadedFrom` are the replicas whose data it was recovered from. -/
structure ManagedReplica extends Replica where
  param : ReplicaInitParam
  loadedFrom : List ReplicaID := []

namespace ManagedReplica

def replicaId (r : ManagedReplica) : ReplicaID := r.param.replicaId

def needsRecover (r : ManagedReplica) : Bool := r.localState = .awaitingRecover

/-- The arguments `PersistEngine::init` refuses. -/
def checkArguments (options : ReplicaRuntimeOptions) (id : ReplicaID) : Status :=
  if options.dataDir = "" then
    ⟨.invalidArgument, "persist engine init error: data_dir is epmty"⟩
  else if id.replicaSeq = -1 ∨ id.shardIndex = -1 ∨ id.tableId = -1 then
    ⟨.invalidArgument, "persist engine init error: replica_id:" ++ id.toText ++ " invalid"⟩
  else .OK

/-- `Replica::init`. The WAL is created here, and `openFault` says that this fails. -/
def init (options : ReplicaRuntimeOptions) (disk : DataDir) (param : ReplicaInitParam)
    (openFault : Option Failure) : Except Status ManagedReplica × DataDir :=
  let localState :=
    if disk.hasReplicaState param.replicaId then LocalState.awaitingRecover else LocalState.created
  let checked := checkArguments options param.replicaId
  if checked.fail then (.error checked, disk)
  else
    let disk := disk.createDirectory (replicaDir param.replicaId)
    match openFault with
    | some failure => (.error failure, disk)
    | none =>
      (.ok
        { param, localState
          loop :=
            { state :=
                { core := RaftCore.create param.replicaId param.members options.electionLimits }
              snapshotLimit := options.raftDoSnapshotLimit } },
        disk.modify (replicaDir param.replicaId) ReplicaDir.openWal)

/-- `Replica::start`. -/
def start (r : ManagedReplica) : Status × ManagedReplica :=
  match r.localState with
  | .faulted => (⟨.isFaulted, "faulted or shut down replica requires destroy and rebuild"⟩, r)
  | .running => (.OK, r)
  | .awaitingRecover =>
    (⟨.notInit, "replica has persisted state, recover must run before start"⟩, r)
  | _ => (.OK, { r with localState := .running })

/-- `Replica::recover`. `fault` says that the files cannot be read. -/
def recover (options : ReplicaRuntimeOptions) (disk : DataDir) (r : ManagedReplica) (fault : Option Failure) :
    Status × ManagedReplica × DataDir :=
  match r.localState with
  | .faulted => (⟨.isFaulted, "faulted or shut down replica requires destroy and rebuild"⟩, r, disk)
  | .running =>
    (⟨.invalidArgument, "replica is already started; reload requires destroy and rebuild"⟩, r, disk)
  | _ =>
    match fault with
    | some failure => (failure, { r with localState := .faulted }, disk)
    | none =>
      -- the WAL is rewritten before the snapshot is restored
      let found := disk.engine r.replicaId
      let rewritten := disk.modify (replicaDir r.replicaId) fun d =>
        d.write r.replicaId found.recover.2 fun _ => true
      match ReplicaLoop.boot r.replicaId r.param.members options.electionLimits
          options.raftDoSnapshotLimit found with
      | .error status => (status, { r with localState := .faulted }, rewritten)
      | .ok loop =>
        (.OK, { r with localState := .recovering, loop, loadedFrom := disk.writers r.replicaId }, rewritten)

end ManagedReplica

/-! ## The manager -/

/-- `ReplicaManager`: `replica_map_` and `shard_primary_index_`. -/
structure ReplicaManager where
  replicaMap : Keyed ManagedReplica.replicaId := .empty
  shardPrimaryIndex : Keyed (Prod.fst : ShardID × ReplicaID → ShardID) := .empty

/-- What fails in a call of `add_replica`: the WAL cannot be opened, or the meta file cannot be saved. An error after
the rename leaves the new meta file in place. -/
structure AddFault where
  openWal : Option Failure := none
  saveMeta : Option (Failure × Bool) := none

/-- What fails while a replica is recovered. -/
structure RecoverFault where
  openWal : Option Failure := none
  recover : Option Failure := none

namespace ReplicaManager

def insert (m : ReplicaManager) (r : ManagedReplica) : ReplicaManager :=
  { replicaMap := m.replicaMap.put r
    shardPrimaryIndex := m.shardPrimaryIndex.put (shardOf r.replicaId, r.replicaId) }

/-- `add_replica`. -/
def addReplica (options : ReplicaRuntimeOptions) (m : ReplicaManager) (disk : DataDir)
    (param : ReplicaInitParam) (fault : AddFault) : Status × ReplicaManager × DataDir :=
  let shard := shardOf param.replicaId
  if (m.replicaMap.get param.replicaId).isSome then (.OK, m, disk)
  else if (m.shardPrimaryIndex.get shard).isSome then
    (⟨.alreadyExist, "shard already exists on current node, table_id: " ++ toString shard.tableId ++
      ", shard_index: " ++ toString shard.shardIndex⟩, m, disk)
  else match ManagedReplica.init options disk param fault.openWal with
    | (.error status, disk) => (status, m, disk)
    | (.ok replica, disk) =>
      let started := if replica.needsRecover then (.OK, replica) else replica.start
      if started.1.fail then (started.1, m, disk)
      else match fault.saveMeta with
        | some (failure, published) =>
          (failure, m, if published then disk.saveReplicaMeta param else disk)
        | none => (.OK, m.insert started.2, disk.saveReplicaMeta param)

/-- `delete_replica`. -/
def deleteReplica (m : ReplicaManager) (disk : DataDir) (id : ReplicaID) (removal : Removal) :
    Status × ReplicaManager × DataDir :=
  let m := match m.replicaMap.get id with
    | some r =>
      { replicaMap := m.replicaMap.erase id
        shardPrimaryIndex := m.shardPrimaryIndex.erase (shardOf r.replicaId) }
    | none => m
  let removed := disk.deleteReplicaData id removal
  (removed.1, m, removed.2)

/-- The first loop of `recover`, for one meta file. -/
def rebuild (options : ReplicaRuntimeOptions) (fault : ReplicaID → RecoverFault)
    (s : ReplicaManager × DataDir) (param : ReplicaInitParam) : ReplicaManager × DataDir :=
  if (s.1.replicaMap.get param.replicaId).isSome ||
      (s.1.shardPrimaryIndex.get (shardOf param.replicaId)).isSome then s
  else match ManagedReplica.init options s.2 param (fault param.replicaId).openWal with
    | (.error _, disk) => (s.1, disk)
    | (.ok replica, disk) => (s.1.insert replica, disk)

/-- The second loop of `recover`, for one replica. -/
def restart (options : ReplicaRuntimeOptions) (fault : ReplicaID → RecoverFault)
    (s : ReplicaManager × DataDir) (r : ManagedReplica) : ReplicaManager × DataDir :=
  if !r.needsRecover then s
  else
    let recovered := r.recover options s.2 (fault r.replicaId).recover
    let r := if recovered.1.fail then recovered.2.1 else recovered.2.1.start.2
    ({ s.1 with replicaMap := s.1.replicaMap.put r }, recovered.2.2)

/-- `recover`. -/
def recover (options : ReplicaRuntimeOptions) (m : ReplicaManager) (disk : DataDir)
    (fault : ReplicaID → RecoverFault) : ReplicaManager × DataDir :=
  let s := disk.scanReplicaMetaFiles.foldl (rebuild options fault) (m, disk)
  s.1.replicaMap.entries.foldl (restart options fault) s

end ReplicaManager

end AdvisKV
