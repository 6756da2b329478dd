import AdvisKV.Model.ReplicaLoop

/-!
# AdvisKV — a group of replicas and the network between them

The replica processes of one shard, every packet that was ever sent, the snapshot transfers a sender has
under way and the InstallSnapshot calls a receiver has not answered yet. A packet stays where it is when
it is delivered, so it may arrive late, never, or any number of times.

Three things happen outside the loops and are steps of their own here. `RaftSender::send_install_snapshot`
opens the published file once and reads every chunk from it. `StorageServiceImpl::InstallSnapshot` reads
the term and the snapshot index of its replica one after the other, when the chunk has been handled. And
a process that is down, or whose loop has given up, answers a call without handling it: the response then
carries an error status and default fields, and `GrpcRaftRpcTransport` looks at the status of none but an
InstallSnapshot response.

A process may crash between two dispatches or inside one, behind any of the writes the dispatch makes.
-/

namespace AdvisKV

def raftSnapshotChunkBytes : Nat := 1024 * 1024

/-- What the replicas of a group share. -/
structure Group where
  codec : SnapshotCodec
  voters : List PeerMember
  snapshotLimit : Nat

/-- A replica process: its loop, or the files it left behind. -/
inductive ReplicaProcess where
  | running (loop : ReplicaLoop)
  | down (disk : PersistEngine)

/-- What travels between processes. A reply goes back to the sender of its request and names it. -/
inductive Packet where
  | request (message : RaftMessage)
  | chunk (param : InstallSnapshotParam)
  | voteReply (param : RequestVoteParam) (result : RequestVoteResult)
  | preVoteReply (param : PreVoteParam) (result : PreVoteResult)
  | appendReply (param : AppendEntriesParam) (result : AppendEntriesResult)
  | snapshotReply (param : InstallSnapshotParam) (result : InstallSnapshotResult)

/-- A running `send_install_snapshot`: the message and the contents of the file it has opened. -/
structure Transfer where
  param : InstallSnapshotParam
  file : Bytes

/-- An InstallSnapshot call whose chunk is handled; `term` is the term it has read for its response. -/
structure SnapshotHandler where
  param : InstallSnapshotParam
  status : Status
  term : Option Nat := none

structure GroupState where
  process : ReplicaID → ReplicaProcess := fun _ => .down {}
  packets : List Packet := []
  transfers : List Transfer := []
  handlers : List SnapshotHandler := []

/-- Where a crash may cut a dispatch short: when the hard state is saved, when a snapshot has been published
as well, or in the middle of an append to the WAL. -/
inductive CrashPoint where
  | metaSaved
  | snapshotPublished
  | appended (records : Nat) (torn : Bool)

inductive GroupAction where
  | boot (id : ReplicaID) (limits : Nat → Nat)
  | join (id : ReplicaID) (members : List PeerMember) (limits : Nat → Nat)
  | crash (id : ReplicaID)
  | crashInside (point : CrashPoint) (action : GroupAction)
  | stop (id : ReplicaID)
  | tick (id : ReplicaID)
  | propose (id : ReplicaID) (params : List ProposeParam)
  | submitRead (id : ReplicaID) (key : Key)
  | addMember (id : ReplicaID) (member : PeerMember)
  | removeMember (id : ReplicaID) (target : ReplicaID)
  | timeOut (id : ReplicaID) (completion : Nat)
  | workerPost (id : ReplicaID)
  | workerClear (id : ReplicaID)
  | snapshotDone (id : ReplicaID)
  | deliver (packet : Nat)
  | openTransfer (packet : Nat)
  | sendFailed (packet : Nat)
  | sendChunk (transfer number : Nat)
  | loadTerm (handler : Nat)
  | loadWatermark (handler : Nat)

namespace ReplicaProcess

def loop? : ReplicaProcess → Option ReplicaLoop
  | .running l => some l
  | .down _ => none

/-- The loop, if it takes events. -/
def serving? (p : ReplicaProcess) : Option ReplicaLoop := p.loop?.filter fun l => !l.faulted

end ReplicaProcess

/-- `ensure_running` of a process that has not started its replica, and of one whose loop has ended. -/
def notStarted : Status := ⟨.notInit, "replica is not running, local_state:not started"⟩

def stoppedByFault : Status := ⟨.isFaulted, "replica is not running, local_state:faulted"⟩

/-- The response fields of a vote call: those of its reply, or the defaults when it failed. -/
def LoopReply.voteResult : Option LoopReply → RequestVoteResult
  | some (.vote r) => r
  | _ => {}

def LoopReply.preVoteResult : Option LoopReply → PreVoteResult
  | some (.preVote r) => r
  | _ => {}

def LoopReply.appendResult : Option LoopReply → AppendEntriesResult
  | some (.append r) => r
  | _ => {}

/-- The packet an event is answered with when the loop is done with it. -/
def LoopEvent.reply (reply : Option LoopReply) : LoopEvent → Option Packet
  | .requestVote param => some (.voteReply param (LoopReply.voteResult reply))
  | .preVote param => some (.preVoteReply param (LoopReply.preVoteResult reply))
  | .appendEntries param => some (.appendReply param (LoopReply.appendResult reply))
  | _ => none

/-- The handler that goes on when the loop is done with a chunk. -/
def LoopEvent.handler (status : Status) : LoopEvent → Option SnapshotHandler
  | .installSnapshot param => some ⟨param, status, none⟩
  | _ => none

/-- `SnapshotFileReader::read_chunk` at the `number`-th offset, as the parameter of the call. -/
def Transfer.chunk (t : Transfer) (number : Nat) : InstallSnapshotParam :=
  let offset := number * raftSnapshotChunkBytes
  let data := (t.file.drop offset).take raftSnapshotChunkBytes
  { t.param with offset, data, done := decide (t.file.length ≤ offset + data.length) }

/-- The message a chunk belongs to. -/
def InstallSnapshotParam.message (param : InstallSnapshotParam) : InstallSnapshotParam :=
  { param with offset := 0, data := [], done := false }

/-- The event a packet is for its addressee. A reply to a chunk that is neither the last nor refused only
lets the sender go on with the next chunk. -/
def Packet.event : Packet → Option (ReplicaID × LoopEvent)
  | .request (.requestVote _ param) => some (param.toReplicaId, .requestVote param)
  | .request (.preVote _ param) => some (param.toReplicaId, .preVote param)
  | .request (.appendEntries _ param) => some (param.toReplicaId, .appendEntries param)
  | .request (.installSnapshot _ _) => none
  | .chunk param => some (param.toReplicaId, .installSnapshot param)
  | .voteReply param result => some (param.fromReplicaId, .voteResponse param.toReplicaId result)
  | .preVoteReply param result => some (param.fromReplicaId, .preVoteResponse param.toReplicaId result)
  | .appendReply param result =>
    if param.readQuorumSeq ≠ 0 then
      some (param.fromReplicaId, .readQuorumResponse param.toReplicaId param.readQuorumSeq result.term)
    else some (param.fromReplicaId, .appendResponse param.toReplicaId param result)
  | .snapshotReply param result =>
    if param.done || result.status.fail then
      some (param.fromReplicaId, .snapshotResponse param.toReplicaId param.message result)
    else none

/-- What `send_install_snapshot` reports to its own loop when it gives up. -/
def Packet.sendFailure : Packet → Option (ReplicaID × LoopEvent)
  | .request (.installSnapshot target param) =>
    some (param.fromReplicaId, .snapshotSendFailed target.replicaId param)
  | _ => none

/-- The event an action brings to a loop. -/
def GroupAction.event (s : GroupState) : GroupAction → Option (ReplicaID × LoopEvent)
  | .tick id => some (id, .tick)
  | .propose id params => some (id, .propose params)
  | .submitRead id key => some (id, .submitRead key)
  | .addMember id member => some (id, .addMember member)
  | .removeMember id target => some (id, .removeMember target)
  | .snapshotDone id => some (id, .snapshotDone)
  | .deliver n => s.packets[n]?.bind Packet.event
  | .sendFailed n => s.packets[n]?.bind Packet.sendFailure
  | _ => none

/-- The files after a dispatch that was cut short; an append is a prefix of its records. -/
def PersistEngine.cutShort (old new : PersistEngine) : CrashPoint → PersistEngine
  | .metaSaved => { old with raftMeta := new.raftMeta }
  | .snapshotPublished => { old with raftMeta := new.raftMeta, snapshot := new.snapshot }
  | .appended records torn =>
    { new with wal := new.wal.take (old.wal.length + records) ++ if torn then [.torn] else [] }

/-- A rewritten WAL takes the place of the old one at once; only an append can be cut short. -/
def CrashPoint.possible (old new : PersistEngine) : CrashPoint → Bool
  | .appended _ _ => old.wal.isPrefixOf new.wal
  | _ => true

namespace GroupState

variable (g : Group)

def setProcess (s : GroupState) (id : ReplicaID) (p : ReplicaProcess) : GroupState :=
  { s with process := Function.update s.process id p }

def post (s : GroupState) (packet : Packet) : GroupState :=
  { s with packets := s.packets ++ [packet] }

/-- The state after an event: the loop has run, its messages and its answer are on their way. -/
def dispatch (s : GroupState) (id : ReplicaID) (l : ReplicaLoop) (ev : LoopEvent) : GroupState :=
  let h := l.iterate g.codec ev
  { s.setProcess id (.running h.loop) with
    packets := s.packets ++ h.messages.map .request ++ (ev.reply h.reply).toList
    handlers := s.handlers ++ (ev.handler h.status).toList }

/-- An event reaches a loop that takes it. -/
def feed (s : GroupState) (id : ReplicaID) (ev : LoopEvent) : Option GroupState :=
  (s.process id).serving?.map fun l => s.dispatch g id l ev

/-- The answer to a call that no loop takes. -/
def refuse (s : GroupState) : Packet → Option GroupState
  | .request (.requestVote _ param) => some (s.post (.voteReply param {}))
  | .request (.preVote _ param) => some (s.post (.preVoteReply param {}))
  | .request (.appendEntries _ param) => some (s.post (.appendReply param {}))
  | .chunk param =>
    match s.process param.toReplicaId with
    -- the service still has the replica, whose loop has ended
    | .running _ => some { s with handlers := s.handlers ++ [⟨param, stoppedByFault, none⟩] }
    | .down _ => some (s.post (.snapshotReply param { status := notStarted }))
  | _ => none

/-- A packet reaches its addressee. -/
def receive (s : GroupState) (packet : Packet) : Option GroupState :=
  (packet.event.bind fun e => s.feed g e.1 e.2) <|> s.refuse packet

/-- The head of `send_install_snapshot`: the published file must still be the announced one. -/
def openTransfer (s : GroupState) : Packet → Option GroupState
  | .request (.installSnapshot _ param) =>
    match s.process param.fromReplicaId with
    | .running l =>
      match l.state.persist.snapshot with
      | some d =>
        if d.header.applyIndex = param.snapshotIndex ∧ d.header.applyTerm = param.snapshotTerm then
          some { s with transfers := s.transfers ++ [⟨param, g.codec.encode d⟩] }
        else none
      | none => none
    | .down _ => none
  | _ => none

/-- `response->set_term(replica->current_term())`; a failed call is answered at once. -/
def loadTerm (s : GroupState) (n : Nat) (h : SnapshotHandler) : Option GroupState :=
  match s.process h.param.toReplicaId, h.term with
  | .running l, none =>
    let term := l.state.core.currentTerm
    if h.status.fail then
      some ({ s with handlers := s.handlers.eraseIdx n }.post
        (.snapshotReply h.param { term, status := h.status }))
    else some { s with handlers := s.handlers.set n { h with term := some term } }
  | _, _ => none

/-- `response->set_snapshot_watermark(std::max(param.snapshot_index, replica->snapshot_index()))`. -/
def loadWatermark (s : GroupState) (n : Nat) (h : SnapshotHandler) : Option GroupState :=
  match s.process h.param.toReplicaId, h.term with
  | .running l, some term =>
    some ({ s with handlers := s.handlers.eraseIdx n }.post
      (.snapshotReply h.param
        { term
          status := h.status
          snapshotWatermark := max h.param.snapshotIndex l.state.core.snapshotIndex }))
  | _, _ => none

/-- The process ends and leaves these files; what it had under way ends with it. -/
def crash (s : GroupState) (id : ReplicaID) (disk : PersistEngine) : GroupState :=
  { s.setProcess id (.down disk) with
    -- packets on their way outlive the process
    transfers := s.transfers.filter fun t => t.param.fromReplicaId != id
    handlers := s.handlers.filter fun h => h.param.toReplicaId != id }

/-- The process of `id` ends while its loop is busy with `ev`. -/
def crashInside (s : GroupState) (point : CrashPoint) (id : ReplicaID) (ev : LoopEvent) :
    Option GroupState :=
  (s.process id).serving?.bind fun l =>
    let old := l.state.persist
    let new := (l.iterate g.codec ev).loop.state.persist
    if point.possible old new then some (s.crash id (old.cutShort new point)) else none

/-- `Replica::shutdown`: the loop ends and every caller that still waits is told so. -/
def stop (s : GroupState) (id : ReplicaID) (l : ReplicaLoop) : GroupState :=
  s.setProcess id (.running { l.failAllPending ⟨.error, "raft loop is stopped"⟩ with faulted := true })

/-- `Replica::init` on the files of the process, with `members` as its member list. -/
def start (s : GroupState) (id : ReplicaID) (members : List PeerMember) (limits : Nat → Nat)
    (disk : PersistEngine) : Option GroupState :=
  match ReplicaLoop.boot id members limits g.snapshotLimit disk with
  | .error _ => none
  | .ok l => some (s.setProcess id (.running l))

/-- One step of the group, if it is possible. -/
def step : GroupAction → GroupState → Option GroupState
  | .boot id limits, s =>
    match s.process id with
    | .down disk => if id ∈ g.voters.map PeerMember.replicaId then s.start g id g.voters limits disk else none
    | .running _ => none
  | .join id members limits, s =>
    match s.process id with
    | .down disk =>
      if disk = {} ∧ id ∉ g.voters.map PeerMember.replicaId then s.start g id members limits disk else none
    | .running _ => none
  | .crash id, s => (s.process id).loop?.map fun l => s.crash id l.state.persist
  | .crashInside point a, s => (a.event s).bind fun e => s.crashInside g point e.1 e.2
  | .stop id, s => (s.process id).serving?.map (s.stop id)
  | .timeOut id completion, s => (s.process id).loop?.map fun l =>
    s.setProcess id (.running { l with
      completions := Function.update l.completions completion (l.completions completion).timeOut })
  | .workerPost id, s => (s.process id).loop?.map fun l => s.setProcess id (.running l.workerPost)
  | .workerClear id, s => (s.process id).loop?.map fun l => s.setProcess id (.running l.workerClear)
  | .deliver n, s => s.packets[n]?.bind (s.receive g)
  | .openTransfer n, s => s.packets[n]?.bind (s.openTransfer g)
  | .sendChunk t n, s => s.transfers[t]?.bind fun t =>
    if n * raftSnapshotChunkBytes ≤ t.file.length then some (s.post (.chunk (t.chunk n))) else none
  | .loadTerm n, s => s.handlers[n]?.bind (s.loadTerm n)
  | .loadWatermark n, s => s.handlers[n]?.bind (s.loadWatermark n)
  | a, s => (a.event s).bind fun e => s.feed g e.1 e.2

end GroupState

end AdvisKV
