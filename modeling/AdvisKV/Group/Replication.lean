import AdvisKV.Group.States

/-!
# AdvisKV — the replicated log of a fixed group

A group as a whole mirrors one replicated log: every replica its own part, running or down, every message
what its sender knew, every reply what the replier had done. An orderly step of the group moves the
replicated log by operations of the one replica that takes it.

A step is orderly if the voters stay, if a process dies between two dispatches and not inside one, if an
AppendEntries finds a loop that takes it, and if the two loads with which an InstallSnapshot call is
answered are made in one term. The last two are conditions on what the code leaves open: a call that no loop
takes is answered with default fields, and a watermark may be of a later term than the term beside it.

Main results:

* `GroupState.Mirrors.move` — one orderly move of the group.
* `GroupState.Charted.run` — a run.
-/

namespace AdvisKV

open Replicated (lastTerm Grows)

/-! ## Orderly steps -/

namespace GroupState

/-- Whether the loop an AppendEntries is for takes it. -/
def reaches (s : GroupState) : Packet → Bool
  | .request (.appendEntries _ param) => (s.process param.toReplicaId).serving?.isSome
  | _ => true

/-- Whether the replica is still in the term its InstallSnapshot call has read. -/
def untorn (s : GroupState) (h : SnapshotHandler) : Bool :=
  match s.process h.param.toReplicaId with
  | .running l => h.term == some l.state.core.currentTerm
  | .down _ => true

def orderly (s : GroupState) : GroupAction → Bool
  | .join _ _ _ | .addMember _ _ | .removeMember _ _ | .crashInside _ _ => false
  | .deliver n => s.packets[n]?.all s.reaches
  | .loadWatermark n => s.handlers[n]?.all s.untorn
  | _ => true

/-- An orderly action leaves the group as it is. -/
theorem orderly_static {s : GroupState} {a : GroupAction} (h : s.orderly a = true) : a.Static := by
  cases a with
  | join => cases h
  | addMember => cases h
  | removeMember => cases h
  | crashInside => cases h
  | _ => trivial

end GroupState

/-! ## Files -/

/-- The files of replica `id`: its hard state, its log behind the published snapshot, and that snapshot. -/
structure PersistEngine.Mirrors (g : Group) (R : GroupLog) (id : ReplicaID) (disk : PersistEngine) :
    Prop where
  hardState : disk.raftMeta = ⟨R.term id, R.vote (R.term id) id⟩
  covered : disk.header.applyIndex ≤ (R.log id).length
  wal : disk.wal = WalStore.encode ((R.log id).drop disk.header.applyIndex)
  term : disk.header.applyTerm = lastTerm ((R.log id).take disk.header.applyIndex)
  indexed : RaftLog.ConsecutiveFrom 0 (R.log id)
  chosen : R.Chosen g.voterIds (R.term id) ((R.log id).take disk.header.applyIndex)
  published : ∀ {d}, disk.snapshot = some d → d.Of ((R.log id).take disk.header.applyIndex)

section

variable {g : Group} {R R' : GroupLog} {F F' : Published} {id : ReplicaID} {l : ReplicaLoop}
  {disk : PersistEngine}

/-- Files mirror the same log as long as that replica does nothing. -/
theorem PersistEngine.Mirrors.still (h : disk.Mirrors g R id) (hg : Grows R R')
    (hstill : R.Still id R') : disk.Mirrors g R' id := by
  have hlog := hstill.log
  refine ⟨?_, hlog ▸ h.covered, hlog ▸ h.wal, hlog ▸ h.term, hlog ▸ h.indexed, ?_, hlog ▸ h.published⟩
  · rw [hstill.term, hstill.vote]
    exact h.hardState
  · rw [hlog, hstill.term]
    exact h.chosen.mono hg le_rfl

/-- What a process leaves behind when it ends. -/
theorem PersistEngine.Mirrors.of_loop (h : l.Mirrors g R id) (hreg : l.Regular g F id) :
    l.state.persist.Mirrors g R id := by
  have hindex := hreg.state.index
  have hlog := h.state.core.log
  refine ⟨?_, ?_, ?_, ?_, hlog.indexed, ?_, fun hd => ?_⟩
  · rw [hreg.state.files.1, RaftElection.hardState, h.state.core.term, h.state.core.vote]
  · rw [hindex]
    exact hlog.covered
  · rw [hindex, hreg.state.files.2, hlog.entries]
  · rw [hindex, hreg.state.term]
    exact hlog.term
  · rw [hindex, h.state.core.term]
    exact h.state.core.chosen.take (List.take_prefix_take_left h.state.core.snapshot_le)
  · rw [hindex]
    exact h.state.published hd

/-- What a restart reads back of its WAL. -/
theorem PersistEngine.Mirrors.walResult (h : disk.Mirrors g R id) :
    disk.walResult = { entries := (R.log id).drop disk.header.applyIndex } := by
  have hbehind := h.indexed.drop h.covered
  rw [Nat.zero_add] at hbehind
  have hrecover := recover_encode hbehind le_rfl
  unfold PersistEngine.walResult
  rw [h.wal, hrecover, Nat.sub_self, List.drop_zero]

/-- The state machine a restart restores. -/
theorem PersistEngine.Mirrors.restored (h : disk.Mirrors g R id) {sm : KvStateMachine}
    (hsm : disk.restored = .ok sm) : sm.After ((R.log id).take disk.header.applyIndex) := by
  rcases hd : disk.snapshot with - | d
  · simp only [PersistEngine.restored, hd] at hsm
    rw [← Except.ok.inj hsm, PersistEngine.header, hd]
    exact KvStateMachine.After.empty
  · obtain ⟨restored, hrestore, hafter⟩ := (h.published hd).restore
    simp only [PersistEngine.restored, hd] at hsm
    rw [← Except.ok.inj (hrestore.symm.trans hsm)]
    exact hafter

/-- **A restart.** -/
theorem ReplicaLoop.Mirrors.boot {limits : Nat → Nat} (h : disk.Mirrors g R id) (hc : g.Charts R)
    (hvoter : id ∈ g.voterIds) (hboot : ReplicaLoop.boot id g.voters limits g.snapshotLimit disk = .ok l) :
    l.Mirrors g R id := by
  have hbooted := ReplicaLoop.boot_ok hboot
  have hwal := h.walResult
  have hlog := hbooted.core.raftLog
  have happly := hbooted.core.raftApply
  have helection := hbooted.core.election
  rw [hwal] at hlog
  have hcore : l.state.core.Mirrors g R id := by
    refine .passive ⟨hc, hvoter, ?_, ?_, ⟨?_, ?_, ?_, h.indexed⟩, ?_, ?_, ?_, ?_⟩ (.inl ?_)
    · rw [helection, h.hardState]
    · rw [helection, h.hardState]
    · rw [hlog]
      exact h.covered
    · rw [hlog]
    · rw [hlog]
      exact h.term
    · rw [happly]
      exact h.covered
    · rw [happly, helection, h.hardState]
      exact h.chosen
    · rw [hlog, happly]
    · rw [happly]
    · rw [helection]
  -- what the snapshot restores is what the log says up to its index
  have hmachine : l.state.stateMachine.After ((R.log id).take l.state.core.raftApply.lastApplied) := by
    rw [happly]
    exact h.restored hbooted.stateMachine
  have hstate : l.state.Mirrors g R id := by
    refine ⟨hcore, hmachine, fun hd => ?_⟩
    rw [hbooted.persist] at hd
    rw [hlog]
    exact h.published hd
  obtain ⟨hwriting, hwritten, -⟩ := hbooted.worker
  refine ⟨hstate, fun {d} hd => ?_, fun d hd => ?_⟩
  · rw [hwriting d hd]
    exact hstate.capture
  · rw [hwritten] at hd
    cases hd

/-! ## The network -/

/-- What a packet says is so. -/
def Packet.Backed (g : Group) (R : GroupLog) : Packet → Prop
  | .request m => m.Backed g R
  | .chunk param => param.Backed g R
  | .voteReply param result =>
    (CoreEvent.voteResponse param.toReplicaId result).Informed R param.fromReplicaId
  | .preVoteReply _ _ => True
  | .appendReply param result =>
    (CoreEvent.appendResponse param.toReplicaId param result).Informed R param.fromReplicaId
  | .snapshotReply param result => param.done = true ∨ result.status.fail = true →
    (CoreEvent.snapshotResponse param.toReplicaId param.message result).Informed R param.fromReplicaId

/-- A call whose last chunk was taken: the replica holds what the snapshot covers. -/
structure SnapshotHandler.Backed (g : Group) (R : GroupLog) (h : SnapshotHandler) : Prop where
  param : h.param.Backed g R
  done : h.status.fail = false → h.param.done = true →
    R.Holds h.param.term h.param.toReplicaId h.param.snapshotIndex ∧
      R.Synced h.param.term h.param.toReplicaId

/-- A packet stays backed while it is under way. -/
theorem Packet.Backed.mono {p : Packet} (h : p.Backed g R) (hc : g.Charts R)
    (hg : Grows R R') : p.Backed g R' := by
  cases p with
  | request m => exact RaftMessage.Backed.mono h hc hg
  | chunk param => exact InstallSnapshotParam.Backed.mono h hc hg
  | voteReply param result =>
    have hinformed : (CoreEvent.voteResponse param.toReplicaId result).Informed R param.fromReplicaId := h
    exact hinformed.mono hc hg
  | preVoteReply param result => trivial
  | appendReply param result =>
    have hinformed : (CoreEvent.appendResponse param.toReplicaId param result).Informed R
      param.fromReplicaId := h
    exact hinformed.mono hc hg
  | snapshotReply param result => exact fun hlast => CoreEvent.Informed.mono (h hlast) hc hg

/-- So does a call that waits for its answer. -/
theorem SnapshotHandler.Backed.mono {h : SnapshotHandler} (hb : h.Backed g R) (hc : g.Charts R)
    (hg : Grows R R') : h.Backed g R' := by
  have hled := led_of_eq hb.param.led
  refine ⟨hb.param.mono hc hg, fun hok hdone => ?_⟩
  obtain ⟨hholds, hsynced⟩ := hb.done hok hdone
  exact ⟨hholds.mono hg hled hb.param.held, hsynced.mono hg hled⟩

theorem Status.fail_of_isOk {st : Status} (h : st.isOk = true) : st.fail = false := by
  rw [Status.isOk, beq_iff_eq] at h
  rw [Status.fail, h]
  rfl

/-- A refused chunk says nothing. -/
theorem Packet.Backed.refusal {param : InstallSnapshotParam} (h : param.Backed g R)
    {result : InstallSnapshotResult} (hfail : result.status.fail = true) :
    (Packet.snapshotReply param result).Backed g R := by
  refine fun _ => ⟨led_of_eq h.led, fun hok => ?_⟩
  rw [Status.fail_of_isOk hok] at hfail
  cases hfail

/-! ## The group -/

/-- A process mirrors with its loop or with the files it left. -/
def ReplicaProcess.Mirrors (g : Group) (R : GroupLog) (id : ReplicaID) : ReplicaProcess → Prop
  | .running l => l.Mirrors g R id
  | .down disk => disk.Mirrors g R id

/-- The group and its replicated log. -/
structure GroupState.Mirrors (g : Group) (R : GroupLog) (s : GroupState) : Prop where
  charts : g.Charts R
  process : ∀ id, (s.process id).Mirrors g R id
  packets : ∀ p ∈ s.packets, p.Backed g R
  transfers : ∀ t ∈ s.transfers, t.param.Backed g R
  handlers : ∀ h ∈ s.handlers, h.Backed g R

namespace GroupState.Mirrors

variable {s s' : GroupState} {ev : LoopEvent}

theorem running (h : s.Mirrors g R) (hp : s.process id = .running l) : l.Mirrors g R id := by
  have hprocess := h.process id
  rwa [hp] at hprocess

theorem down (h : s.Mirrors g R) (hp : s.process id = .down disk) : disk.Mirrors g R id := by
  have hprocess := h.process id
  rwa [hp] at hprocess

/-- One replica moves the replicated log. -/
theorem update (h : s.Mirrors g R) (hm : R.Moved id R') (hc : g.Charts R') {p : ReplicaProcess}
    (hprocess : s'.process = Function.update s.process id p) (hp : p.Mirrors g R' id)
    (hpackets : ∀ q ∈ s'.packets, q ∈ s.packets ∨ q.Backed g R') (htransfers : s'.transfers ⊆ s.transfers)
    (hhandlers : ∀ x ∈ s'.handlers, x ∈ s.handlers ∨ x.Backed g R') : s'.Mirrors g R' := by
  have hg := hm.grows
  refine ⟨hc, fun v => ?_, fun q hq => ?_, fun t ht => (h.transfers t (htransfers ht)).mono h.charts hg,
    fun x hx => ?_⟩
  · rw [hprocess]
    by_cases hid : v = id
    · subst hid
      rwa [Function.update_self]
    · rw [Function.update_of_ne hid]
      have hstill := hm.others hid
      rcases hv : s.process v with l | disk
      · have hl := h.running hv
        exact hl.stays hg (hl.state.core.still hc hg hstill)
      · exact (h.down hv).still hg hstill
  · exact (hpackets q hq).elim (fun hold => (h.packets q hold).mono h.charts hg) fun hnew => hnew
  · exact (hhandlers x hx).elim (fun hold => (h.handlers x hold).mono h.charts hg) fun hnew => hnew

/-- Only the network changes. -/
theorem network (h : s.Mirrors g R) (hprocess : s'.process = s.process)
    (hpackets : ∀ q ∈ s'.packets, q ∈ s.packets ∨ q.Backed g R)
    (htransfers : ∀ t ∈ s'.transfers, t ∈ s.transfers ∨ t.param.Backed g R)
    (hhandlers : ∀ x ∈ s'.handlers, x ∈ s.handlers ∨ x.Backed g R) : s'.Mirrors g R := by
  refine ⟨h.charts, hprocess ▸ h.process, fun q hq => ?_, fun t ht => ?_, fun x hx => ?_⟩
  · exact (hpackets q hq).elim (h.packets q) fun hnew => hnew
  · exact (htransfers t ht).elim (h.transfers t) fun hnew => hnew
  · exact (hhandlers x hx).elim (h.handlers x) fun hnew => hnew

/-- One more backed packet. -/
theorem post (h : s.Mirrors g R) {q : Packet} (hq : q.Backed g R) : (s.post q).Mirrors g R := by
  refine h.network rfl (fun q' hq' => ?_) (fun _ ht => .inl ht) fun _ hx => .inl hx
  rcases List.mem_append.mp hq' with hold | hnew
  · exact .inl hold
  · rw [List.mem_singleton.mp hnew]
    exact .inr hq

theorem handled (h : s.Mirrors g R) {handlers : List SnapshotHandler}
    (hhandlers : ∀ x ∈ handlers, x ∈ s.handlers ∨ x.Backed g R) :
    GroupState.Mirrors g R { s with handlers } :=
  h.network rfl (fun _ hq => .inl hq) (fun _ ht => .inl ht) hhandlers

/-- A process goes on with the replica it had. -/
theorem replace (h : s.Mirrors g R) {l' : ReplicaLoop} (hl' : l'.Mirrors g R id) :
    (s.setProcess id (.running l')).Mirrors g R :=
  h.update (.refl id R) h.charts rfl hl' (fun _ hq => .inl hq) (List.Subset.refl _) fun _ hx => .inl hx

/-- What the network brings to a loop is so. -/
theorem informed (h : s.Mirrors g R) (hfed : s.Feeds id ev) : ev.Informed g R id := by
  cases ev with
  | requestVote param =>
    obtain ⟨-, target, hsent⟩ := hfed
    exact h.packets _ hsent
  | appendEntries param =>
    obtain ⟨hto, target, hsent⟩ := hfed
    exact ⟨hto, h.packets _ hsent⟩
  | installSnapshot param =>
    obtain ⟨hto, hsent⟩ := hfed
    exact ⟨hto, h.packets _ hsent⟩
  | voteResponse sender result =>
    obtain ⟨param, rfl, rfl, hsent⟩ := hfed
    exact h.packets _ hsent
  | appendResponse sender sent result =>
    obtain ⟨rfl, rfl, -, hsent⟩ := hfed
    exact h.packets _ hsent
  | snapshotResponse sender sent result =>
    obtain ⟨param, rfl, rfl, rfl, hlast, hsent⟩ := hfed
    exact h.packets _ hsent hlast
  | _ => trivial

/-- **A dispatch.** -/
theorem dispatch (h : s.Mirrors g R) (hreg : s.Regular g F) (hF : F.Backed g R)
    (hrunning : s.process id = .running l) (hserving : l.faulted = false) (hev : ev.Regular)
    (hfed : s.Feeds id ev) :
    ∃ R', R.Moved id R' ∧ (s.dispatch g id l ev).Mirrors g R' ∧
      l.state.core.Advances (l.iterate g.codec ev).loop.state.core := by
  have hinf := h.informed hfed
  have hchunk : ∀ {param}, ev = .installSnapshot param → (Packet.chunk param).Regular g F := by
    rintro param rfl
    exact hreg.packets _ hfed.2
  obtain ⟨R', hmoved, hl', hadvances, hsent, happend, hinstall⟩ :=
    (h.running hrunning).iterate (hreg.running hrunning) hserving hF hev hinf hchunk
  refine ⟨R', hmoved, h.update hmoved hl'.state.core.charts rfl hl' (fun q hq => ?_)
    (List.Subset.refl _) fun x hx => ?_, hadvances⟩
  · -- the messages of the loop, and the answer to the call
    rcases List.mem_append.mp hq with hq | hreply
    · rcases List.mem_append.mp hq with hold | hnew
      · exact .inl hold
      · obtain ⟨m, hm, rfl⟩ := List.mem_map.mp hnew
        exact .inr (hsent m hm)
    · refine .inr ?_
      cases ev with
      | requestVote param =>
        rw [List.mem_singleton.mp hreply]
        obtain ⟨rfl, -⟩ := hfed
        exact fun hgranted => hl'.state.core.votes.reply hserving hgranted
      | preVote param =>
        rw [List.mem_singleton.mp hreply]
        trivial
      | appendEntries param =>
        rw [List.mem_singleton.mp hreply]
        obtain ⟨rfl, -⟩ := hfed
        exact happend rfl
      | _ => cases hreply
  · -- only a chunk leaves a call that waits
    rcases List.mem_append.mp hx with hold | hnew
    · exact .inl hold
    · refine .inr ?_
      cases ev with
      | installSnapshot param =>
        rw [List.mem_singleton.mp hnew]
        obtain ⟨rfl, hparam⟩ := hinf
        exact ⟨hparam.mono h.charts hmoved.grows, fun hok hdone => hinstall rfl hok hdone⟩
      | _ => cases hnew

/-- An InstallSnapshot call is answered; what the answer says becomes known. -/
theorem answers (h : s.Mirrors g R) {x : SnapshotHandler} (hx : x ∈ s.handlers)
    (hrunning : s.process x.param.toReplicaId = .running l) {handlers : List SnapshotHandler}
    (hsub : handlers ⊆ s.handlers) :
    ∃ R', R.Moved x.param.toReplicaId R' ∧ GroupState.Mirrors g R' (({ s with handlers } : GroupState).post
      (.snapshotReply x.param
        { term := l.state.core.currentTerm
          status := x.status
          snapshotWatermark := max x.param.snapshotIndex l.state.core.snapshotIndex })) := by
  have hbacked := h.handlers x hx
  have hidle : GroupState.Mirrors g R ({ s with handlers } : GroupState) :=
    h.handled fun y hy => .inl (hsub hy)
  -- only a success in the term of the sender says something about the log
  by_cases hgood : x.status.fail = false ∧ x.param.done = true ∧
      l.state.core.election.currentTerm ≤ x.param.term
  · obtain ⟨hok, hdone, hle⟩ := hgood
    obtain ⟨hholds, hsynced⟩ := hbacked.done hok hdone
    have hl := h.running hrunning
    obtain ⟨R', hmoved, hcore, hacked⟩ := hl.state.core.acknowledge hbacked.param hle hholds
    have hled := led_of_eq hbacked.param.led
    refine ⟨R', hmoved, Mirrors.post ?_ fun _ => ⟨hmoved.grows.led hled, fun _ _ => ⟨?_, ?_⟩⟩⟩
    · refine hidle.update hmoved hcore.charts (Function.update_eq_self _ _).symm ?_ (fun _ hq => .inl hq)
        (List.Subset.refl _) fun _ hy => .inl hy
      rw [show ({ s with handlers } : GroupState).process = s.process from rfl, hrunning]
      exact hl.stays hmoved.grows hcore
    · exact max_le hacked ((le_max_left _ _).trans hacked)
    · exact hsynced.mono hmoved.grows hled
  · refine ⟨R, .refl _ R, hidle.post fun hlast => ⟨led_of_eq hbacked.param.led, fun hok hle => ?_⟩⟩
    have hfine : x.status.fail = false := Status.fail_of_isOk hok
    have hdone : x.param.done = true := by
      rcases hlast with hdone | hfail
      · exact hdone
      · rw [hfine] at hfail
        cases hfail
    exact absurd ⟨hfine, hdone, hle⟩ hgood

/-- The worker moves its copy to the loop or drops it. -/
theorem worker {l' : ReplicaLoop} (h : l.Mirrors g R id) (hstep : l.WorkerStep l') : l'.Mirrors g R id := by
  have hheld : ∀ d, d ∈ l.writing ∨ d ∈ l.written → d.Taken R id l.state.core := fun d hd =>
    hd.elim (fun hd => h.writing hd) (h.written d)
  rw [hstep.same]
  exact ⟨h.state, fun {d} hd => hheld d (hstep.held d (.inl hd)), fun d hd => hheld d (hstep.held d (.inr hd))⟩

end GroupState.Mirrors

/-- The indexes of a replica, as long as its process goes on. -/
def GroupState.Advances (id : ReplicaID) (s s' : GroupState) : Prop :=
  ∀ l, s.process id = .running l →
    ∃ l', s'.process id = .running l' ∧ l.state.core.Advances l'.state.core

theorem GroupState.Advances.refl (id : ReplicaID) (s : GroupState) : s.Advances id s :=
  fun l hl => ⟨l, hl, .refl _⟩

variable {s s' : GroupState}

theorem GroupState.Advances.trans {s'' : GroupState} (h : s.Advances id s') (h' : s'.Advances id s'') :
    s.Advances id s'' := by
  intro l hl
  obtain ⟨l₁, hl₁, hadvances⟩ := h l hl
  obtain ⟨l₂, hl₂, hadvances'⟩ := h' l₁ hl₁
  exact ⟨l₂, hl₂, hadvances.trans hadvances'⟩

theorem GroupState.Advances.of_process (h : s'.process = s.process) (v : ReplicaID) :
    s.Advances v s' :=
  fun l hl => ⟨l, h ▸ hl, .refl _⟩

/-- One process goes on with `l'`. -/
theorem GroupState.Advances.of_update {l' : ReplicaLoop}
    (hprocess : s'.process = Function.update s.process id (.running l'))
    (hl' : ∀ {l}, s.process id = .running l → l.state.core.Advances l'.state.core) (v : ReplicaID) :
    s.Advances v s' := by
  intro l hl
  by_cases hv : v = id
  · subst hv
    exact ⟨l', by rw [hprocess, Function.update_self], hl' hl⟩
  · exact ⟨l, by rw [hprocess, Function.update_of_ne hv]; exact hl, .refl _⟩

/-- **Moves.** -/
theorem GroupState.Mirrors.move {a : GroupAction} (h : s.Mirrors g R) (hreg : s.Regular g F)
    (hF : F.Backed g R) (horderly : s.orderly a = true) (hmove : GroupMove g s a s') :
    ∃ R', Grows R R' ∧ s'.Mirrors g R' ∧ ∀ v, a ≠ .crash v → s.Advances v s' := by
  -- a process that is replaced by one with the same replica
  have hsame : ∀ {id l l'}, s.process id = .running l → l'.state = l.state → l'.Mirrors g R id →
      ∃ R', Grows R R' ∧ (s.setProcess id (.running l')).Mirrors g R' ∧
        ∀ v, a ≠ .crash v → s.Advances v (s.setProcess id (.running l')) := by
    intro id l l' hrunning hstate hl'
    refine ⟨R, .refl R, h.replace hl', fun v _ => .of_update rfl (fun hl => ?_) v⟩
    rw [← ReplicaProcess.running.inj (hrunning.symm.trans hl), hstate]
    exact .refl _
  -- the processes stay as they are, and only the network changes
  have hquiet : ∀ {s₁ : GroupState}, s₁.process = s.process → s₁.Mirrors g R →
      ∃ R', Grows R R' ∧ s₁.Mirrors g R' ∧ ∀ v, a ≠ .crash v → s.Advances v s₁ :=
    fun hprocess h₁ => ⟨R, .refl R, h₁, fun v _ => .of_process hprocess v⟩
  cases hmove with
  | @boots id limits disk l down voter booted =>
    refine ⟨R, .refl R, h.replace (.boot (h.down down) h.charts (List.mem_toFinset.mpr voter) booted),
      fun v _ => .of_update rfl (fun hrun => ?_) v⟩
    rw [down] at hrun
    cases hrun
  | joins => cases horderly
  | @crashes id l running =>
    refine ⟨R, .refl R, h.update (.refl id R) h.charts rfl
      (PersistEngine.Mirrors.of_loop (h.running running) (hreg.running running)) (fun _ hq => .inl hq)
      (fun _ ht => List.mem_of_mem_filter ht) fun _ hx => .inl (List.mem_of_mem_filter hx),
      fun v hv l' hl' => ?_⟩
    have hne : v ≠ id := fun heq => hv (by rw [heq])
    exact ⟨l', (Function.update_of_ne hne _ _).trans hl', .refl _⟩
  | crashesInside => cases horderly
  | stops running =>
    have hl := h.running running
    exact hsame running rfl ⟨hl.state, hl.writing, hl.written⟩
  | timesOut running =>
    have hl := h.running running
    exact hsame running rfl ⟨hl.state, hl.writing, hl.written⟩
  | @workerPosts _ l running =>
    have hstep := ReplicaLoop.workerPost_step l
    exact hsame running hstep.state (worker (h.running running) hstep)
  | @workerClears _ l running =>
    have hstep := ReplicaLoop.workerClear_step l
    exact hsame running hstep.state (worker (h.running running) hstep)
  | @dispatches _ id l ev running serving cause =>
    obtain ⟨R', hmoved, h', hadvances⟩ := h.dispatch hreg hF running serving
      (hreg.event (GroupState.orderly_static horderly) cause) (GroupAction.event_feeds cause)
    refine ⟨R', hmoved.grows, h', fun v _ => .of_update rfl (fun hl => ?_) v⟩
    rw [← ReplicaProcess.running.inj (running.symm.trans hl)]
    exact hadvances
  | voteRefused => exact hquiet rfl (h.post fun hgranted => by cases hgranted)
  | preVoteRefused => exact hquiet rfl (h.post trivial)
  | @appendRefused n target param sent idle =>
    -- an orderly delivery finds a loop
    have hfound : s.packets[n]?.all s.reaches = true := horderly
    rw [sent] at hfound
    replace hfound : (s.process param.toReplicaId).serving?.isSome = true := hfound
    rw [idle] at hfound
    cases hfound
  | chunkRefused sent =>
    have hparam := h.packets _ (List.mem_of_getElem? sent)
    exact hquiet rfl (h.post (.refusal hparam rfl))
  | @chunkIgnored n param sent =>
    refine hquiet rfl (h.handled fun x hx => ?_)
    rcases List.mem_append.mp hx with hold | hnew
    · exact .inl hold
    · rw [List.mem_singleton.mp hnew]
      exact .inr ⟨h.packets _ (List.mem_of_getElem? sent), fun hok => by cases hok⟩
  | opens sent =>
    refine hquiet rfl (h.network rfl (fun _ hq => .inl hq) (fun t ht => ?_) fun _ hx => .inl hx)
    rcases List.mem_append.mp ht with hold | hnew
    · exact .inl hold
    · rw [List.mem_singleton.mp hnew]
      exact .inr (h.packets _ (List.mem_of_getElem? sent))
  | sendsChunk underWay =>
    have hparam := h.transfers _ (List.mem_of_getElem? underWay)
    exact hquiet rfl (h.post ⟨hparam.led, hparam.held, hparam.term, hparam.chosen, hparam.probed⟩)
  | loadsTerm pending =>
    refine hquiet rfl (h.handled fun x hx => ?_)
    rcases List.mem_or_eq_of_mem_set hx with hold | rfl
    · exact .inl hold
    · have hbacked := h.handlers _ (List.mem_of_getElem? pending)
      exact .inr ⟨hbacked.param, hbacked.done⟩
  | fails pending running failed =>
    have hbacked := h.handlers _ (List.mem_of_getElem? pending)
    exact hquiet rfl ((h.handled fun x hx => .inl (List.mem_of_mem_eraseIdx hx)).post
      (.refusal hbacked.param failed))
  | @answers n x l term pending running read =>
    -- the term that was read is still the replica's
    have huntorn : s.handlers[n]?.all s.untorn = true := horderly
    rw [pending] at huntorn
    replace huntorn : s.untorn x = true := huntorn
    simp only [GroupState.untorn, running, read, beq_iff_eq, Option.some.injEq] at huntorn
    subst huntorn
    obtain ⟨R', hmoved, h'⟩ := h.answers (List.mem_of_getElem? pending) running
      fun x hx => List.mem_of_mem_eraseIdx hx
    exact ⟨R', hmoved.grows, h', fun v _ => .of_process rfl v⟩

/-- Nothing has happened. -/
theorem GroupState.Mirrors.initial (hdistinct : g.Distinct) : GroupState.Mirrors g {} {} :=
  ⟨⟨hdistinct, .empty _, (fun h => by cases h), fun h => absurd rfl h⟩,
    fun _ => ⟨rfl, le_rfl, rfl, rfl, .nil 0, .inl rfl, fun hd => by cases hd⟩, List.forall_mem_nil _,
    List.forall_mem_nil _, List.forall_mem_nil _⟩

/-! ## Runs -/

variable {s s' : GroupState}

/-- What the replicas publish are states of their logs. -/
theorem Published.Adds.backed (hadds : F.Adds F' s) (h : s.Mirrors g R) (hF : F.Backed g R)
    (hreg : s.Regular g F') : F'.Backed g R := by
  refine ⟨hreg.files, fun {v i d} hd => ?_⟩
  have htraced := h.charts.sound.traced v
  rcases hadds hd with hold | hnew
  · exact hF.backed hold
  · rcases hp : s.process v with l | disk
    · rw [hp] at hnew
      exact ⟨_, (h.running hp).state.published hnew, htraced.take (List.take_prefix _ _)⟩
    · rw [hp] at hnew
      exact ⟨_, (h.down hp).published hnew, htraced.take (List.take_prefix _ _)⟩

/-- The replicated log of a state of a run, later than `R`. -/
structure GroupState.Charted (g : Group) (R : GroupLog) (s : GroupState) : Prop where
  intro ::
  since : ∃ F R', s.Regular g F ∧ F.Backed g R' ∧ s.Mirrors g R' ∧ Grows R R'

/-- The runs of a fixed group in which every step is orderly. -/
abbrev Group.Orderly (g : Group) : GroupState → GroupState → Prop :=
  Machine.GuardedRun (GroupState.step g) fun s a => s.orderly a = true

/-- **An orderly step** extends the replicated log; a replica that does not crash does not fall back. -/
theorem GroupState.Charted.step {a : GroupAction} (h : s.Charted g R) (horderly : s.orderly a = true)
    (hstep : GroupState.step g a s = some s') : s'.Charted g R ∧ ∀ v, a ≠ .crash v → s.Advances v s' := by
  obtain ⟨F, R₁, hreg, hF, hmirrors, hgrows⟩ := h.since
  have hmove := GroupMove.of_step hstep
  -- the files first: what is published is named by them
  obtain ⟨F', hreg', hadds⟩ := hreg.move (GroupState.orderly_static horderly) hmove
  obtain ⟨R₂, hgrows', hmirrors', hadvances⟩ := hmirrors.move hreg hF horderly hmove
  refine ⟨⟨F', R₂, hreg', hadds.backed hmirrors' ?_ hreg', hmirrors', hgrows.trans hgrows'⟩, hadvances⟩
  exact ⟨hF.regular, fun hd => (hF.backed hd).mono hgrows'⟩

/-- At the start the log is empty. -/
theorem GroupState.Charted.initial (hdistinct : g.Distinct) : GroupState.Charted g {} {} :=
  ⟨_, _, .initial g, ⟨(fun hd => by cases hd), fun hd => by cases hd⟩, .initial hdistinct, .refl _⟩

theorem GroupState.Charted.run (h : s.Charted g R) (hrun : g.Orderly s s') : s'.Charted g R :=
  hrun.invariant (fun _ _ _ hinv horderly hstep => (hinv.step horderly hstep).1) h

/-- **Runs.** Two states of a run and their replicated logs. -/
theorem Group.Orderly.charted (hdistinct : g.Distinct) (hrun : g.Orderly {} s) (hlater : g.Orderly s s') :
    ∃ R R', s.Mirrors g R ∧ s'.Mirrors g R' ∧ Grows R R' := by
  obtain ⟨F, R, hreg, hF, hmirrors, -⟩ := ((GroupState.Charted.initial hdistinct).run hrun).since
  have hnow : s.Charted g R := ⟨F, R, hreg, hF, hmirrors, .refl R⟩
  obtain ⟨-, R', -, -, hmirrors', hgrows⟩ := (hnow.run hlater).since
  exact ⟨R, R', hmirrors, hmirrors', hgrows⟩

end

end AdvisKV
