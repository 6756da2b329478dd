import AdvisKV.Model.Group
import AdvisKV.Replica.LoopSteps

/-!
# AdvisKV — what one step of a group can do

The inversion lemma for `GroupState.step`. A step dispatches one event to one loop, and the event is one
the network or the environment can produce in this state; or it starts or ends a process; or it touches a
process without its replica; or it only adds to the network.

Main results:

* `GroupMove.of_step` — every step is one of these moves.
* `ReplicaLoop.iterate_messages` — what an iteration sends was built by a handler of the core.
-/

namespace AdvisKV

namespace GroupState

/-- The events that can reach the loop of replica `id`. -/
def Feeds (s : GroupState) (id : ReplicaID) : LoopEvent → Prop
  | .requestVote param => param.toReplicaId = id ∧ ∃ target, .request (.requestVote target param) ∈ s.packets
  | .preVote param => param.toReplicaId = id ∧ ∃ target, .request (.preVote target param) ∈ s.packets
  | .appendEntries param =>
    param.toReplicaId = id ∧ ∃ target, .request (.appendEntries target param) ∈ s.packets
  | .installSnapshot param => param.toReplicaId = id ∧ .chunk param ∈ s.packets
  | .voteResponse sender result =>
    ∃ param, param.fromReplicaId = id ∧ param.toReplicaId = sender ∧ .voteReply param result ∈ s.packets
  | .preVoteResponse sender result =>
    ∃ param, param.fromReplicaId = id ∧ param.toReplicaId = sender ∧ .preVoteReply param result ∈ s.packets
  | .appendResponse sender sent result =>
    sent.fromReplicaId = id ∧ sent.toReplicaId = sender ∧ sent.readQuorumSeq = 0 ∧
      .appendReply sent result ∈ s.packets
  | .readQuorumResponse sender seq term =>
    ∃ param result, param.fromReplicaId = id ∧ param.toReplicaId = sender ∧ param.readQuorumSeq = seq ∧
      seq ≠ 0 ∧ result.term = term ∧ .appendReply param result ∈ s.packets
  | .snapshotResponse sender sent result =>
    ∃ param, param.fromReplicaId = id ∧ param.toReplicaId = sender ∧ sent = param.message ∧
      (param.done = true ∨ result.status.fail = true) ∧ .snapshotReply param result ∈ s.packets
  | .snapshotSendFailed sender sent =>
    sent.fromReplicaId = id ∧
      ∃ target, target.replicaId = sender ∧ .request (.installSnapshot target sent) ∈ s.packets
  | _ => True

end GroupState

/-- The action behind an event, where only one kind of action brings it about. -/
def LoopEvent.Cause (id : ReplicaID) (a : GroupAction) : LoopEvent → Prop
  | .addMember member => a = .addMember id member
  | .removeMember target => a = .removeMember id target
  | .propose params => a = .propose id params
  | .submitRead key => a = .submitRead id key
  | _ => True

/-- A step of the group, sorted by what it does. -/
inductive GroupMove (g : Group) (s : GroupState) : GroupAction → GroupState → Prop
  | boots {id : ReplicaID} {limits : Nat → Nat} {disk : PersistEngine} {l : ReplicaLoop}
    (down : s.process id = .down disk) (voter : id ∈ g.voters.map PeerMember.replicaId)
    (booted : ReplicaLoop.boot id g.voters limits g.snapshotLimit disk = .ok l) :
    GroupMove g s (.boot id limits) (s.setProcess id (.running l))
  | joins {id : ReplicaID} {members : List PeerMember} {limits : Nat → Nat} {l : ReplicaLoop}
    (down : s.process id = .down {}) (foreign : id ∉ g.voters.map PeerMember.replicaId)
    (booted : ReplicaLoop.boot id members limits g.snapshotLimit {} = .ok l) :
    GroupMove g s (.join id members limits) (s.setProcess id (.running l))
  | crashes {id : ReplicaID} {l : ReplicaLoop} (running : s.process id = .running l) :
    GroupMove g s (.crash id) (s.crash id l.state.persist)
  | crashesInside {point : CrashPoint} {a : GroupAction} {id : ReplicaID} {l : ReplicaLoop} {ev : LoopEvent}
    (running : s.process id = .running l) (serving : l.faulted = false) (cause : a.event s = some (id, ev))
    (possible : point.possible l.state.persist (l.iterate g.codec ev).loop.state.persist = true) :
    GroupMove g s (.crashInside point a)
      (s.crash id (l.state.persist.cutShort (l.iterate g.codec ev).loop.state.persist point))
  | stops {id : ReplicaID} {l : ReplicaLoop} (running : s.process id = .running l)
    (serving : l.faulted = false) : GroupMove g s (.stop id) (s.stop id l)
  | timesOut {id : ReplicaID} {l : ReplicaLoop} {completion : Nat} (running : s.process id = .running l) :
    GroupMove g s (.timeOut id completion) (s.setProcess id (.running { l with
      completions := Function.update l.completions completion (l.completions completion).timeOut }))
  | workerPosts {id : ReplicaID} {l : ReplicaLoop} (running : s.process id = .running l) :
    GroupMove g s (.workerPost id) (s.setProcess id (.running l.workerPost))
  | workerClears {id : ReplicaID} {l : ReplicaLoop} (running : s.process id = .running l) :
    GroupMove g s (.workerClear id) (s.setProcess id (.running l.workerClear))
  | dispatches {a : GroupAction} {id : ReplicaID} {l : ReplicaLoop} {ev : LoopEvent}
    (running : s.process id = .running l) (serving : l.faulted = false)
    (cause : a.event s = some (id, ev)) : GroupMove g s a (s.dispatch g id l ev)
  | voteRefused {n : Nat} {target : PeerMember} {param : RequestVoteParam}
    (sent : s.packets[n]? = some (.request (.requestVote target param))) :
    GroupMove g s (.deliver n) (s.post (.voteReply param {}))
  | preVoteRefused {n : Nat} {target : PeerMember} {param : PreVoteParam}
    (sent : s.packets[n]? = some (.request (.preVote target param))) :
    GroupMove g s (.deliver n) (s.post (.preVoteReply param {}))
  | appendRefused {n : Nat} {target : PeerMember} {param : AppendEntriesParam}
    (sent : s.packets[n]? = some (.request (.appendEntries target param)))
    (idle : (s.process param.toReplicaId).serving? = none) :
    GroupMove g s (.deliver n) (s.post (.appendReply param {}))
  | chunkIgnored {n : Nat} {param : InstallSnapshotParam} (sent : s.packets[n]? = some (.chunk param)) :
    GroupMove g s (.deliver n) { s with handlers := s.handlers ++ [⟨param, stoppedByFault, none⟩] }
  | chunkRefused {n : Nat} {param : InstallSnapshotParam} (sent : s.packets[n]? = some (.chunk param)) :
    GroupMove g s (.deliver n) (s.post (.snapshotReply param { status := notStarted }))
  | opens {n : Nat} {target : PeerMember} {param : InstallSnapshotParam} {l : ReplicaLoop} {d : SnapshotData}
    (sent : s.packets[n]? = some (.request (.installSnapshot target param)))
    (running : s.process param.fromReplicaId = .running l)
    (published : l.state.persist.snapshot = some d)
    (index : d.header.applyIndex = param.snapshotIndex) (term : d.header.applyTerm = param.snapshotTerm) :
    GroupMove g s (.openTransfer n) { s with transfers := s.transfers ++ [⟨param, g.codec.encode d⟩] }
  | sendsChunk {n number : Nat} {t : Transfer} (underWay : s.transfers[n]? = some t)
    (inside : number * raftSnapshotChunkBytes ≤ t.file.length) :
    GroupMove g s (.sendChunk n number) (s.post (.chunk (t.chunk number)))
  | loadsTerm {n : Nat} {h : SnapshotHandler} {l : ReplicaLoop} (pending : s.handlers[n]? = some h)
    (running : s.process h.param.toReplicaId = .running l) (unread : h.term = none)
    (ok : h.status.fail = false) :
    GroupMove g s (.loadTerm n)
      { s with handlers := s.handlers.set n { h with term := some l.state.core.currentTerm } }
  | fails {n : Nat} {h : SnapshotHandler} {l : ReplicaLoop} (pending : s.handlers[n]? = some h)
    (running : s.process h.param.toReplicaId = .running l) (failed : h.status.fail = true) :
    GroupMove g s (.loadTerm n) ({ s with handlers := s.handlers.eraseIdx n }.post
      (.snapshotReply h.param { term := l.state.core.currentTerm, status := h.status }))
  | answers {n : Nat} {h : SnapshotHandler} {l : ReplicaLoop} {term : Nat}
    (pending : s.handlers[n]? = some h) (running : s.process h.param.toReplicaId = .running l)
    (read : h.term = some term) :
    GroupMove g s (.loadWatermark n) ({ s with handlers := s.handlers.eraseIdx n }.post
      (.snapshotReply h.param
        { term
          status := h.status
          snapshotWatermark := max h.param.snapshotIndex l.state.core.snapshotIndex }))

/-! ## Inversion -/

variable {p : ReplicaProcess}

theorem ReplicaProcess.loop?_eq_some {l : ReplicaLoop} (h : p.loop? = some l) :
    p = .running l := by
  cases p with
  | running l' =>
    cases h
    rfl
  | down disk => cases h

/-- One process is replaced: it is the one that is asked for, or not. -/
theorem process_of_update {f f' : ReplicaID → ReplicaProcess} {id v : ReplicaID} {q : ReplicaProcess}
    (h : f' = Function.update f id p) (hv : f' v = q) : (v = id ∧ p = q) ∨ (v ≠ id ∧ f v = q) := by
  rw [h] at hv
  by_cases hid : v = id
  · subst hid
    rw [Function.update_self] at hv
    exact .inl ⟨rfl, hv⟩
  · rw [Function.update_of_ne hid] at hv
    exact .inr ⟨hid, hv⟩

/-- Requests are only handled by a loop without a fault. -/
theorem ReplicaProcess.serving?_eq_some {l : ReplicaLoop} (h : p.serving? = some l) :
    p = .running l ∧ l.faulted = false := by
  obtain ⟨hloop, hfaulted⟩ := Option.filter_eq_some_iff.mp h
  exact ⟨loop?_eq_some hloop, by simpa using hfaulted⟩

section

variable {g : Group} {s s' : GroupState} {a : GroupAction}

variable {id : ReplicaID} {n : Nat} {packet : Packet} {h : SnapshotHandler}

/-- The events of actions are those the network and the environment can produce. -/
theorem GroupAction.event_feeds {ev : LoopEvent} (h : a.event s = some (id, ev)) :
    s.Feeds id ev := by
  cases a with
  | deliver n =>
    obtain ⟨packet, hsent, hevent⟩ := Option.bind_eq_some_iff.mp h
    have hmem : packet ∈ s.packets := List.mem_of_getElem? hsent
    unfold Packet.event at hevent
    split at hevent <;> try cases hevent
    · exact ⟨rfl, _, hmem⟩
    · exact ⟨rfl, _, hmem⟩
    · exact ⟨rfl, _, hmem⟩
    · exact ⟨rfl, hmem⟩
    · exact ⟨_, rfl, rfl, hmem⟩
    · exact ⟨_, rfl, rfl, hmem⟩
    · split at hevent <;> cases hevent
      · next hseq => exact ⟨_, _, rfl, rfl, rfl, hseq, rfl, hmem⟩
      · next hseq => exact ⟨rfl, rfl, not_not.mp hseq, hmem⟩
    · split at hevent <;> cases hevent
      next hlast => exact ⟨_, rfl, rfl, rfl, by simpa using hlast, hmem⟩
  | sendFailed n =>
    obtain ⟨packet, hsent, hevent⟩ := Option.bind_eq_some_iff.mp h
    have hmem : packet ∈ s.packets := List.mem_of_getElem? hsent
    unfold Packet.sendFailure at hevent
    split at hevent <;> try cases hevent
    exact ⟨rfl, _, rfl, hmem⟩
  | _ =>
    cases h <;> trivial

/-- A membership change comes from its own action only. -/
theorem GroupAction.event_cause {ev : LoopEvent} (h : a.event s = some (id, ev)) :
    ev.Cause id a := by
  cases a with
  | deliver n =>
    obtain ⟨packet, -, hevent⟩ := Option.bind_eq_some_iff.mp h
    unfold Packet.event at hevent
    split at hevent <;> try cases hevent
    all_goals first | trivial | (split at hevent <;> cases hevent <;> trivial)
  | sendFailed n =>
    obtain ⟨packet, -, hevent⟩ := Option.bind_eq_some_iff.mp h
    unfold Packet.sendFailure at hevent
    split at hevent <;> cases hevent
    trivial
  | _ =>
    cases h <;> first | rfl | trivial

theorem GroupMove.of_feed (h : (a.event s).bind (fun e => s.feed g e.1 e.2) = some s') :
    GroupMove g s a s' := by
  obtain ⟨⟨id, ev⟩, hevent, hfed⟩ := Option.bind_eq_some_iff.mp h
  obtain ⟨l, hl, rfl⟩ := Option.map_eq_some_iff.mp hfed
  obtain ⟨hrunning, hserving⟩ := ReplicaProcess.serving?_eq_some hl
  exact .dispatches hrunning hserving hevent

theorem GroupMove.of_refuse (hsent : s.packets[n]? = some packet)
    (hidle : ∀ {id ev}, packet.event = some (id, ev) → (s.process id).serving? = none)
    (h : s.refuse packet = some s') : GroupMove g s (.deliver n) s' := by
  unfold GroupState.refuse at h
  split at h <;> try cases h
  · exact .voteRefused hsent
  · exact .preVoteRefused hsent
  · exact .appendRefused hsent (hidle rfl)
  · split at h <;> cases h
    · exact .chunkIgnored hsent
    · exact .chunkRefused hsent

/-- The delivery of a packet. -/
theorem GroupMove.of_receive (hsent : s.packets[n]? = some packet) (h : s.receive g packet = some s') :
    GroupMove g s (.deliver n) s' := by
  unfold GroupState.receive at h
  rcases hfed : packet.event.bind fun e => s.feed g e.1 e.2 with - | s₁
  · rw [hfed] at h
    change s.refuse packet = some s' at h
    refine .of_refuse hsent (fun {id ev} hevent => ?_) h
    rw [hevent] at hfed
    exact Option.map_eq_none_iff.mp hfed
  · rw [hfed] at h
    change some s₁ = some s' at h
    cases h
    refine .of_feed ?_
    rw [GroupAction.event, hsent]
    exact hfed

/-- A crash while an event is handled. -/
theorem GroupMove.of_crashInside {point : CrashPoint}
    (h : (a.event s).bind (fun e => s.crashInside g point e.1 e.2) = some s') :
    GroupMove g s (.crashInside point a) s' := by
  obtain ⟨⟨id, ev⟩, hevent, hcrash⟩ := Option.bind_eq_some_iff.mp h
  obtain ⟨l, hl, hcut⟩ := Option.bind_eq_some_iff.mp hcrash
  obtain ⟨hrunning, hserving⟩ := ReplicaProcess.serving?_eq_some hl
  dsimp only at hcut
  split at hcut <;> cases hcut
  next hpossible => exact .crashesInside hrunning hserving hevent hpossible

/-- The file of a transfer is opened only if it is still the published one. -/
theorem GroupMove.of_openTransfer (hsent : s.packets[n]? = some packet)
    (h : s.openTransfer g packet = some s') : GroupMove g s (.openTransfer n) s' := by
  unfold GroupState.openTransfer at h
  split at h <;> try cases h
  next target param =>
    split at h <;> try cases h
    next l hrunning =>
      split at h <;> try cases h
      next d hpublished =>
        split at h <;> try cases h
        next heq => exact .opens hsent hrunning hpublished heq.1 heq.2

/-- The two reads a chunk handler makes after its loop has answered. -/
theorem GroupMove.of_loadTerm (hpending : s.handlers[n]? = some h) (hstep : s.loadTerm n h = some s') :
    GroupMove g s (.loadTerm n) s' := by
  unfold GroupState.loadTerm at hstep
  split at hstep <;> try cases hstep
  next l hrunning hunread =>
    dsimp only at hstep
    split at hstep <;> cases hstep
    · next hfail => exact .fails hpending hrunning hfail
    · next hok => exact .loadsTerm hpending hrunning hunread (by simpa using hok)

theorem GroupMove.of_loadWatermark (hpending : s.handlers[n]? = some h)
    (hstep : s.loadWatermark n h = some s') :
    GroupMove g s (.loadWatermark n) s' := by
  unfold GroupState.loadWatermark at hstep
  split at hstep <;> try cases hstep
  next l term hrunning hread =>
    exact .answers hpending hrunning hread

theorem GroupState.start_eq_some {members : List PeerMember} {limits : Nat → Nat} {disk : PersistEngine}
    (h : s.start g id members limits disk = some s') :
    ∃ l, ReplicaLoop.boot id members limits g.snapshotLimit disk = .ok l ∧
      s' = s.setProcess id (.running l) := by
  unfold GroupState.start at h
  split at h <;> cases h
  next l hboot => exact ⟨l, hboot, rfl⟩

/-- **Inversion.** A step is a move. -/
theorem GroupMove.of_step (h : GroupState.step g a s = some s') : GroupMove g s a s' := by
  cases a with
  | boot id limits =>
    simp only [GroupState.step] at h
    split at h <;> try cases h
    next disk hdown =>
      split at h <;> try cases h
      next hvoter =>
        obtain ⟨l, hboot, rfl⟩ := GroupState.start_eq_some h
        exact .boots hdown hvoter hboot
  | join id members limits =>
    simp only [GroupState.step] at h
    split at h <;> try cases h
    next disk hdown =>
      split at h <;> try cases h
      next hnew =>
        obtain ⟨rfl, hforeign⟩ := hnew
        obtain ⟨l, hboot, rfl⟩ := GroupState.start_eq_some h
        exact .joins hdown hforeign hboot
  | crash id =>
    obtain ⟨l, hl, rfl⟩ := Option.map_eq_some_iff.mp h
    exact .crashes (ReplicaProcess.loop?_eq_some hl)
  | crashInside point a => exact .of_crashInside h
  | stop id =>
    obtain ⟨l, hl, rfl⟩ := Option.map_eq_some_iff.mp h
    exact .stops (ReplicaProcess.serving?_eq_some hl).1 (ReplicaProcess.serving?_eq_some hl).2
  | timeOut id completion =>
    obtain ⟨l, hl, rfl⟩ := Option.map_eq_some_iff.mp h
    exact .timesOut (ReplicaProcess.loop?_eq_some hl)
  | workerPost id =>
    obtain ⟨l, hl, rfl⟩ := Option.map_eq_some_iff.mp h
    exact .workerPosts (ReplicaProcess.loop?_eq_some hl)
  | workerClear id =>
    obtain ⟨l, hl, rfl⟩ := Option.map_eq_some_iff.mp h
    exact .workerClears (ReplicaProcess.loop?_eq_some hl)
  | deliver n =>
    obtain ⟨packet, hsent, hreceived⟩ := Option.bind_eq_some_iff.mp h
    exact .of_receive hsent hreceived
  | openTransfer n =>
    obtain ⟨packet, hsent, hopened⟩ := Option.bind_eq_some_iff.mp h
    exact .of_openTransfer hsent hopened
  | sendChunk t n =>
    obtain ⟨t, hunderWay, hsent⟩ := Option.bind_eq_some_iff.mp h
    split at hsent <;> cases hsent
    next hinside => exact .sendsChunk hunderWay hinside
  | loadTerm n =>
    obtain ⟨handler, hpending, hloaded⟩ := Option.bind_eq_some_iff.mp h
    exact .of_loadTerm hpending hloaded
  | loadWatermark n =>
    obtain ⟨handler, hpending, hloaded⟩ := Option.bind_eq_some_iff.mp h
    exact .of_loadWatermark hpending hloaded
  | _ => exact .of_feed h

end

/-! ## What an iteration sends -/

namespace ReplicaLoop

/-- The core handlers whose messages an event sends: the one it runs, or the check of a read. -/
inductive Asks : LoopEvent → CoreEvent → Prop
  | runs {ev : LoopEvent} {e : CoreEvent} (h : Runs ev e) : Asks ev e
  | read {key : Key} {seq : Nat} : Asks (.submitRead key) (.readQuorumCheck seq)

variable {m : RaftMessage} {l : ReplicaLoop} {codec : SnapshotCodec}

/-- The executor hands out messages of the handler, or none. -/
theorem mem_executeEvent_messages {s : ReplicaState} {e : CoreEvent} (h : m ∈ (s.executeEvent e).2.2) :
    m ∈ (e.step { core := s.core }).effects.messages := by
  simp only [ReplicaState.executeEvent, ReplicaState.execute] at h
  split at h
  · cases h
  split at h
  · cases h
  · exact h

/-- The messages of a read are those of its quorum check. -/
theorem mem_establish_messages {t : ReadTracker} {c : RaftCore} {cs : Completions} {key : Key} {id : Nat}
    (h : m ∈ (t.establish c cs key id).2.2) :
    ∃ seq, m ∈ (CoreEvent.step (.readQuorumCheck seq) { core := c }).effects.messages := by
  simp only [ReadTracker.establish] at h
  split at h
  · cases h
  split at h
  · cases h
  · exact ⟨_, h⟩

theorem mem_submitBatch_messages {params : List ProposeParam} (h : m ∈ (l.submitBatch params).messages) :
    ∃ e, Runs (.propose params) e ∧ m ∈ (e.step { core := l.state.core }).effects.messages := by
  simp only [submitBatch] at h
  split at h
  · cases h
  · exact ⟨_, runs_propose _ _ _ _ (batch_params params l.nextCompletion) _ rfl,
      mem_executeEvent_messages h⟩

theorem handle_messages {ev : LoopEvent} (h : m ∈ (l.handle codec ev).messages) :
    ∃ e, Asks ev e ∧ m ∈ (e.step { core := l.state.core }).effects.messages := by
  cases ev with
  | tick => exact ⟨_, .runs .tick, mem_executeEvent_messages h⟩
  | propose params =>
    obtain ⟨e, hruns, hm⟩ := mem_submitBatch_messages h
    exact ⟨e, .runs hruns, hm⟩
  | submitRead key =>
    obtain ⟨seq, hm⟩ := mem_establish_messages h
    exact ⟨_, .read, hm⟩
  | addMember member => exact ⟨_, .runs .addMember, mem_executeEvent_messages h⟩
  | removeMember id => exact ⟨_, .runs .removeMember, mem_executeEvent_messages h⟩
  | requestVote param => exact ⟨_, .runs .requestVote, mem_executeEvent_messages h⟩
  | preVote param => cases h
  | appendEntries param => exact ⟨_, .runs .appendEntries, mem_executeEvent_messages h⟩
  | installSnapshot param => cases h
  | voteResponse sender result => exact ⟨_, .runs .voteResponse, mem_executeEvent_messages h⟩
  | preVoteResponse sender result => exact ⟨_, .runs .preVoteResponse, mem_executeEvent_messages h⟩
  | appendResponse sender sent result => exact ⟨_, .runs .appendResponse, mem_executeEvent_messages h⟩
  | readQuorumResponse sender readSeq responseTerm => cases h
  | snapshotResponse sender sent result =>
    exact ⟨_, .runs .snapshotResponse, mem_executeEvent_messages h⟩
  | snapshotSendFailed sender sent => exact ⟨_, .runs .snapshotSendFailed, mem_executeEvent_messages h⟩
  | snapshotDone =>
    simp only [handle] at h
    split at h
    · cases h
    · simp only [onSnapshotDone] at h
      split at h
      · cases h
      · -- installing a header sends nothing
        cases mem_executeEvent_messages h

/-- **What an iteration sends.** -/
theorem iterate_messages {ev : LoopEvent} (h : m ∈ (l.iterate codec ev).messages) :
    ∃ e, Asks ev e ∧ m ∈ (e.step { core := l.state.core }).effects.messages := by
  unfold iterate at h
  split at h
  · cases h
  · exact handle_messages h

end ReplicaLoop

end AdvisKV
