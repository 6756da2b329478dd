import AdvisKV.Group.Regular

/-!
# AdvisKV — the files of a fixed group

A snapshot travels in chunks, and a receiver tells sessions apart by sender, term and snapshot index only.
That is safe because no replica publishes two snapshots at one index: `F` records, for the whole group, which
snapshot each replica has published at each index, and every transfer, chunk and half-received file is a
part of one of them.

Main results:

* `ReplicaLoop.Change.regular` — what a handler does to a replica and to `F`.
* `GroupState.Regular.move` — one move of the group, for every way packets may be delivered.
-/

namespace AdvisKV

/-! ## Handlers -/

/-- The events of a fixed group. -/
def LoopEvent.Regular : LoopEvent → Prop
  | .addMember _ | .removeMember _ => False
  | .appendEntries param => ∀ e ∈ param.entries, e.Plain
  | _ => True

/-- Of a regular event the core runs a regular one, and no install. -/
theorem ReplicaLoop.Runs.regular {g : Group} {ev : LoopEvent} {e : CoreEvent} (h : Runs ev e)
    (hev : ev.Regular) : e.Regular g ∧ e.KeepsSnapshot := by
  cases h with
  | propose sub writes =>
    refine ⟨fun p hp => ?_, fun header h => by cases h⟩
    obtain ⟨w, rfl, -⟩ := writes p hp
    exact ⟨w, rfl⟩
  | addMember => cases hev
  | removeMember => cases hev
  | appendEntries => exact ⟨hev, fun header h => by cases h⟩
  | _ => exact ⟨trivial, fun header h => by cases h⟩

/-- The published snapshots before and after: at most one more, and a regular one. -/
structure FilesGrow (g : Group) (F F' : Nat → Option SnapshotData) : Prop where
  keeps : ∀ {i d}, F i = some d → F' i = some d
  adds : ∀ {i d}, F' i = some d → F i = some d ∨ (d.Regular g ∧ d.header.applyIndex = i)

theorem FilesGrow.refl (g : Group) (F : Nat → Option SnapshotData) : FilesGrow g F F := ⟨id, .inl⟩

variable {F : Nat → Option SnapshotData}

/-- One more snapshot, at an index where there was none. -/
theorem FilesGrow.publish {g : Group} {d : SnapshotData} (hd : d.Regular g)
    (hfree : F d.header.applyIndex = none) :
    FilesGrow g F (Function.update F d.header.applyIndex (some d)) := by
  refine ⟨fun {i d'} h => ?_, fun {i d'} h => ?_⟩
  · have hi : i ≠ d.header.applyIndex := by
      rintro rfl
      rw [hfree] at h
      cases h
    rwa [Function.update_of_ne hi]
  · by_cases hi : i = d.header.applyIndex
    · subst hi
      rw [Function.update_self] at h
      cases h
      exact .inr ⟨hd, rfl⟩
    · rw [Function.update_of_ne hi] at h
      exact .inl h

/-- The one that is new. -/
theorem FilesGrow.mem_publish {d d' : SnapshotData} {i j : Nat} (h : Function.update F i (some d) j = some d') :
    F j = some d' ∨ some d = some d' := by
  by_cases hj : j = i
  · subst hj
    rw [Function.update_self] at h
    exact .inr h
  · rw [Function.update_of_ne hj] at h
    exact .inl h

section

variable {g : Group} {F : Nat → Option SnapshotData} {id : ReplicaID} {s : ReplicaState}

/-- Nothing is published behind the snapshot index. -/
theorem ReplicaState.Regular.free (h : s.Regular g F id) {i : Nat}
    (hi : s.core.raftLog.snapshotIndex < i) : F i = none := by
  rcases hF : F i with - | d
  · rfl
  · have := h.unpublished hF
    omega

/-- **Handlers.** -/
theorem ReplicaLoop.Change.regular {codec : SnapshotCodec} {l : ReplicaLoop} {ev : LoopEvent}
    (h : Change codec l ev s) (hl : l.state.Regular g F id) (hev : ev.Regular)
    (hwritten : ∀ d ∈ l.written, d.Regular g)
    (hreceived : ∀ {param received}, ev = .installSnapshot param → Receives codec l param received →
      received.Regular g ∧ received.header.applyIndex = param.snapshotIndex) :
    ∃ F', FilesGrow g F F' ∧ s.Regular g F' id ∧
      ∀ {i d}, F' i = some d → F i = some d ∨ s.persist.snapshot = some d := by
  cases h with
  | idle => exact ⟨F, .refl g F, hl, .inl⟩
  | runs hruns =>
    obtain ⟨he, hkeeps⟩ := hruns.regular (g := g) hev
    exact ⟨F, .refl g F, hl.executeEvent he hkeeps, .inl⟩
  | @received param d sm hr hrestore =>
    obtain ⟨hd, hindex⟩ := hreceived rfl hr
    have hruns : Runs (.installSnapshot param) (.prepareInstallSnapshot param) := .prepare
    obtain ⟨he, hkeeps⟩ := hruns.regular (g := g) trivial
    have hprepared := hl.executeEvent he hkeeps
    -- only a snapshot behind the commit index is asked for
    have hnew : (l.state.executeEvent (.prepareInstallSnapshot param)).2.1.core.raftLog.snapshotIndex <
        d.header.applyIndex := by
      have hwanted := ReplicaState.prepareInstallSnapshot_wanted hr.ok hr.wanted
      have hle := hl.core.shaped.snapshot_le
      rw [← hprepared.index, ReplicaState.Regular.header_eq (ReplicaState.executeEvent_snapshot _ _),
        hl.index]
      omega
    rw [ReplicaState.finishInstallSnapshot_of_restore hrestore, ReplicaState.prepareInstallSnapshot_eq]
    obtain ⟨sm', hsm', hnamed⟩ := hd.restore
    rw [hrestore] at hsm'
    cases hsm'
    refine ⟨_, .publish hd (hprepared.free hnew),
      hprepared.install hnew hnamed rfl rfl (.inr hd.members), fun hF => ?_⟩
    rw [ReplicaState.executeEvent_snapshot]
    exact FilesGrow.mem_publish hF
  | @stale candidate rest hqueue hle =>
    have hsame : l.state.persist.publishLocalSnapshot candidate = l.state.persist := by
      refine if_pos ?_
      rw [PersistEngine.publishedIndex_eq, hl.index]
      exact hle
    rw [hsame]
    exact ⟨F, .refl g F, hl, .inl⟩
  | @captured candidate rest hqueue hlt =>
    have hd := hwritten candidate (by rw [hqueue]; exact List.mem_cons_self)
    have hnew : l.state.persist.publishLocalSnapshot candidate =
        { l.state.persist with snapshot := some candidate } := by
      refine if_neg ?_
      rw [PersistEngine.publishedIndex_eq, hl.index]
      exact Nat.not_le.mpr hlt
    rw [hnew]
    refine ⟨_, .publish hd (hl.free hlt), hl.install hlt hl.records rfl rfl (.inl rfl), fun hF => ?_⟩
    rw [ReplicaState.executeEvent_snapshot]
    exact FilesGrow.mem_publish hF
  -- a published snapshot can be restored, so this cannot happen
  | unrestorable hr hrefused =>
    obtain ⟨sm, hsm, -⟩ := (hreceived rfl hr).1.restore
    rw [hsm] at hrefused
    cases hrefused

end

/-! ## The group -/

/-- The published snapshots of every replica. -/
abbrev Published := ReplicaID → Nat → Option SnapshotData

/-- A chunk is a part of the file of `d`, and the last one only if the file ends there. -/
structure InstallSnapshotParam.PartOf (codec : SnapshotCodec) (param : InstallSnapshotParam)
    (d : SnapshotData) : Prop where
  term : d.header.applyTerm = param.snapshotTerm
  offset : param.offset ≤ (codec.encode d).length
  data : ∃ k, param.data = ((codec.encode d).drop param.offset).take k
  done : param.done = true → (codec.encode d).length ≤ param.offset + param.data.length

def Packet.Regular (g : Group) (F : Published) : Packet → Prop
  | .request m => m.Plain
  | .chunk param =>
    ∃ d, F param.fromReplicaId param.snapshotIndex = some d ∧ param.PartOf g.codec d
  | _ => True

def Transfer.Regular (g : Group) (F : Published) (t : Transfer) : Prop :=
  ∃ d, F t.param.fromReplicaId t.param.snapshotIndex = some d ∧
    d.header.applyTerm = t.param.snapshotTerm ∧ t.file = g.codec.encode d

/-- A running replica; what it has received so far is the beginning of a published file. -/
structure ReplicaLoop.Regular (g : Group) (F : Published) (id : ReplicaID) (l : ReplicaLoop) : Prop where
  state : l.state.Regular g (F id) id
  writing : ∀ {d}, l.writing = some d → d.Regular g
  written : ∀ d ∈ l.written, d.Regular g
  receiving : ∀ {r}, l.receiving = some r → ∃ d, F r.fromReplicaId r.snapshotIndex = some d ∧
    r.nextOffset ≤ (g.codec.encode d).length ∧
    l.receivingFiles r.snapshotIndex = (g.codec.encode d).take r.nextOffset

/-- The files of a replica that is down. -/
structure PersistEngine.Regular (F : Nat → Option SnapshotData) (disk : PersistEngine) : Prop where
  wal : ∀ {e}, .entry e ∈ disk.wal → e.Plain
  published : ∀ {d}, disk.snapshot = some d → F d.header.applyIndex = some d
  unpublished : ∀ {i d}, F i = some d → i ≤ disk.header.applyIndex

/-- Every published snapshot is regular and stands at its index. -/
abbrev Published.Regular (g : Group) (F : Published) : Prop :=
  ∀ {id i d}, F id i = some d → d.Regular g ∧ d.header.applyIndex = i

/-- A group all of whose parts are regular. -/
structure GroupState.Regular (g : Group) (F : Published) (s : GroupState) : Prop where
  files : ∀ {id i d}, F id i = some d → d.Regular g ∧ d.header.applyIndex = i
  running : ∀ {id l}, s.process id = .running l → l.Regular g F id
  down : ∀ {id disk}, s.process id = .down disk → disk.Regular (F id)
  packets : ∀ p ∈ s.packets, p.Regular g F
  transfers : ∀ t ∈ s.transfers, t.Regular g F

/-- `F` has only grown, at one replica. -/
structure Published.Grows (id : ReplicaID) (F F' : Published) : Prop where
  keeps : ∀ {v i d}, F v i = some d → F' v i = some d
  others : ∀ {v}, v ≠ id → F' v = F v

theorem Published.Grows.refl (id : ReplicaID) (F : Published) : F.Grows id F := ⟨fun h => h, fun _ => rfl⟩

def ReplicaProcess.files : ReplicaProcess → PersistEngine
  | .running l => l.state.persist
  | .down disk => disk

/-- What `F` has gained is what the files hold now. -/
def Published.Adds (F F' : Published) (s : GroupState) : Prop :=
  ∀ {v i d}, F' v i = some d → F v i = some d ∨ (s.process v).files.snapshot = some d

section

variable {g : Group} {F F' : Published} {id : ReplicaID} {l : ReplicaLoop} {ev : LoopEvent}

/-- Packets stay regular while `F` grows. -/
theorem Packet.Regular.mono {p : Packet} (h : p.Regular g F) (hF : F.Grows id F') : p.Regular g F' := by
  cases p with
  | chunk param =>
    obtain ⟨d, hd, hpart⟩ := h
    exact ⟨d, hF.keeps hd, hpart⟩
  | _ => exact h

theorem Transfer.Regular.mono {t : Transfer} (h : t.Regular g F) (hF : F.Grows id F') :
    t.Regular g F' := by
  obtain ⟨d, hd, hrest⟩ := h
  exact ⟨d, hF.keeps hd, hrest⟩

theorem ReplicaLoop.Regular.mono {v : ReplicaID} (h : l.Regular g F v) (hF : F.Grows id F')
    (hv : v ≠ id) : l.Regular g F' v := by
  refine ⟨by rw [hF.others hv]; exact h.state, h.writing, h.written, fun hr => ?_⟩
  obtain ⟨d, hd, hrest⟩ := h.receiving hr
  exact ⟨d, hF.keeps hd, hrest⟩

/-- The file with one more chunk. -/
theorem ReplicaLoop.Regular.receivedFile (hl : l.Regular g F id) {param : InstallSnapshotParam}
    {d : SnapshotData} (hd : F param.fromReplicaId param.snapshotIndex = some d)
    (hpart : param.PartOf g.codec d)
    (hsession : param.offset = 0 ∨ l.receiving = some (ReplicaLoop.sessionOf param param.offset)) :
    l.receivedFile param = (g.codec.encode d).take (param.offset + param.data.length) ∧
      param.offset + param.data.length ≤ (g.codec.encode d).length := by
  obtain ⟨k, hk⟩ := hpart.data
  have hoffset := hpart.offset
  have hlen : param.data.length = min k ((g.codec.encode d).length - param.offset) := by
    rw [hk, List.length_take, List.length_drop]
  have hbefore : (if param.offset = 0 then [] else l.receivingFiles param.snapshotIndex) =
      (g.codec.encode d).take param.offset := by
    split
    · next h0 => rw [h0, List.take_zero]
    · next h0 =>
      -- the session is one of the same sender and index, so of the same file
      obtain ⟨d', hd', -, hfile⟩ := hl.receiving (hsession.resolve_left h0)
      cases hd.symm.trans hd'
      exact hfile
  refine ⟨?_, by omega⟩
  unfold ReplicaLoop.receivedFile
  rw [hbefore, List.take_add, hk, List.length_take, List.length_drop]
  congr 1
  rcases le_total k ((g.codec.encode d).length - param.offset) with hle | hle
  · rw [min_eq_left hle]
  · rw [min_eq_right hle, List.take_of_length_le (by simpa using hle),
      List.take_of_length_le (by simp)]

/-- A transfer that is complete yields the published snapshot. -/
theorem ReplicaLoop.Regular.received (hl : l.Regular g F id) {param : InstallSnapshotParam}
    {d received : SnapshotData} (hd : F param.fromReplicaId param.snapshotIndex = some d)
    (hpart : param.PartOf g.codec d) (hr : ReplicaLoop.Receives g.codec l param received) :
    received = d := by
  have hdecoded := hr.decoded
  rw [(hl.receivedFile hd hpart hr.session_eq).1, List.take_of_length_le (hpart.done hr.done),
    g.codec.decode_encode] at hdecoded
  exact (Except.ok.inj hdecoded).symm

variable {s s' : GroupState} {P : Nat → Option SnapshotData} {disk : PersistEngine}

/-- The copy handed to the worker is one the group can restore. -/
theorem ReplicaLoop.captured_regular {s : ReplicaState} (h : s.Regular g P id) :
    (ReplicaLoop.captured s).Regular g := by
  refine ⟨?_, h.records⟩
  show s.core.membership.members = g.members.members
  rw [h.core.membership]

/-- The iteration of one loop. -/
theorem ReplicaLoop.Regular.iterate (hl : l.Regular g F id) (hserving : l.faulted = false)
    (hfiles : F.Regular g) (hev : ev.Regular)
    (hchunk : ∀ {param}, ev = .installSnapshot param → (Packet.chunk param).Regular g F) :
    ∃ F' : Published, F.Grows id F' ∧ F'.Regular g ∧ (l.iterate g.codec ev).loop.Regular g F' id ∧
      ∀ {v i d}, F' v i = some d → F v i = some d ∨
        (v = id ∧ (l.iterate g.codec ev).loop.state.persist.snapshot = some d) := by
  obtain ⟨s, hchange, happlies⟩ := iterate_change g.codec l ev
  obtain ⟨P, hP, hs, hadds⟩ := hchange.regular hl.state hev hl.written fun {param received} heq hr => by
    obtain ⟨d, hd, hpart⟩ := hchunk heq
    obtain rfl := hl.received hd hpart hr
    exact hfiles hd
  have hstate := hs.applies happlies
  -- only this replica publishes
  set F' : Published := Function.update F id P with hF'
  have hself : F' id = P := Function.update_self _ _ _
  have hgrows : F.Grows id F' := by
    refine ⟨fun {v i d} hd => ?_, fun hv => Function.update_of_ne hv _ _⟩
    by_cases hv : v = id
    · subst hv
      rw [hself]
      exact hP.keeps hd
    · rwa [hF', Function.update_of_ne hv]
  refine ⟨F', hgrows, fun {v i d} hd => ?_, ?_, fun {v i d} hd => ?_⟩
  · by_cases hv : v = id
    · subst hv
      rw [hself] at hd
      rcases hP.adds hd with hold | hnew
      · exact hfiles hold
      · exact hnew
    · rw [hF', Function.update_of_ne hv] at hd
      exact hfiles hd
  swap
  · by_cases hv : v = id
    · subst hv
      rw [hself] at hd
      rw [happlies.frame.2]
      exact (hadds hd).imp_right fun hnew => ⟨rfl, hnew⟩
    · rw [hF', Function.update_of_ne hv] at hd
      exact .inl hd
  obtain ⟨hwriting, hwritten⟩ := iterate_worker g.codec hserving ev
  refine ⟨by rw [hself]; exact hstate, fun {d} hd => ?_, fun d hd => ?_, fun {r} hr => ?_⟩
  · rcases hwriting with hsame | ⟨-, hnew⟩
    · rw [hsame] at hd
      exact hl.writing hd
    · rw [hnew] at hd
      cases hd
      exact captured_regular hstate
  · rw [hwritten] at hd
    exact hl.written d (queueAfter_subset ev _ hd)
  · -- a half-received file only ever grows by the chunk of this event
    have hreceiving := iterate_receiving g.codec l ev
    rw [hr] at hreceiving
    generalize (l.iterate g.codec ev).loop.receivingFiles = files at hreceiving ⊢
    generalize hsome : some r = r' at hreceiving
    cases hreceiving with
    | none => cases hsome
    | same =>
      obtain ⟨d, hd, hrest⟩ := hl.receiving hsome.symm
      exact ⟨d, hgrows.keeps hd, hrest⟩
    | @chunk param hsession =>
      cases hsome
      obtain ⟨d, hd, hpart⟩ := hchunk rfl
      obtain ⟨hfile, hle⟩ := hl.receivedFile hd hpart hsession
      exact ⟨d, hgrows.keeps hd, hle, (Function.update_self ..).trans hfile⟩

/-! ## Restarts -/

/-- The files of a running replica. -/
theorem PersistEngine.Regular.of_state {s : ReplicaState} (h : s.Regular g P id) : s.persist.Regular P := by
  refine ⟨fun {e} he => ?_, h.published, fun hd => ?_⟩
  · rw [h.files.2] at he
    obtain ⟨e', he', heq⟩ := List.mem_map.mp he
    cases heq
    exact h.core.plain e he'
  · rw [h.index]
    exact h.unpublished hd

/-- The read loop makes up no entry. -/
theorem WalStore.mem_readLoop {prev : Option Nat} {records : List WalRecord} {e : LogEntry}
    (h : e ∈ (WalStore.readLoop prev records).entries) : .entry e ∈ records := by
  induction records generalizing prev with
  | nil => cases h
  | cons r rest ih =>
    have hcons : ∀ {p x}, e ∈ x :: (WalStore.readLoop p rest).entries → .entry e ∈ .entry x :: rest := by
      intro p x hmem
      rcases List.mem_cons.mp hmem with rfl | hrest
      · exact List.mem_cons_self
      · exact List.mem_cons_of_mem _ (ih hrest)
    cases r with
    | torn => cases h
    | damaged msg => cases h
    | entry x =>
      cases prev with
      | none => exact hcons h
      | some p =>
        simp only [WalStore.readLoop] at h
        split at h
        · cases h
        · exact hcons h

/-- What recovery reads back of regular files. -/
theorem PersistEngine.Regular.walResult (h : disk.Regular P) : ∀ e ∈ disk.walResult.entries, e.Plain := by
  intro e he
  unfold PersistEngine.walResult WalStore.recover at he
  dsimp only at he
  split at he
  · cases he
  split at he
  · cases he
  · next hkept _ =>
    exact h.wal (WalStore.mem_readLoop (List.mem_of_mem_filter he))

/-- **Boot.** What a process reads from regular files is regular: its log is the one the WAL and the snapshot
hold, and so is the copy its worker may be handed at once. -/
theorem ReplicaLoop.Regular.boot {limits : Nat → Nat}
    (hfiles : F.Regular g) (hdisk : disk.Regular (F id))
    (h : ReplicaLoop.boot id g.voters limits g.snapshotLimit disk = .ok l) : l.Regular g F id := by
  have hboot := ReplicaLoop.boot_ok h
  have hpublished : ∀ {d}, disk.snapshot = some d → d.Regular g := fun hd =>
    (hfiles (hdisk.published hd)).1
  have hlog := hboot.core.raftLog
  have hheader : l.state.persist.header = disk.header := by
    rw [hboot.persist]
    rfl
  -- the snapshot names the members of the group, as the configuration does
  have hmembership : l.state.core.membership = g.members := by
    rw [hboot.core.membership]
    rcases hd : disk.snapshot with - | d
    · simp [PersistEngine.header, hd, Group.members]
    · have hm := (hpublished hd).members
      simp only [PersistEngine.header, hd]
      split
      · rfl
      · rw [hm]
  have hnamed : l.state.stateMachine.Named := by
    have hrestored := hboot.stateMachine
    unfold PersistEngine.restored at hrestored
    rcases hd : disk.snapshot with - | d
    · rw [hd] at hrestored
      rw [← Except.ok.inj hrestored]
      intro r hr
      cases hr
    · rw [hd] at hrestored
      obtain ⟨sm, hsm, hn⟩ := (hpublished hd).restore
      rw [← Except.ok.inj (hsm.symm.trans hrestored)]
      exact hn
  have hstate : l.state.Regular g (F id) id := by
    refine ⟨⟨hboot.core.selfId, ?_, hmembership, hboot.core.shaped, ?_⟩, hnamed, ⟨?_, ?_⟩, ?_, ?_, ?_,
      fun hd => ?_⟩
    · rw [hboot.core.election]
    · rw [hlog]
      exact hdisk.walResult
    · rw [hboot.persist, hboot.core.election]
      rfl
    · rw [hboot.persist, hlog]
    · rw [hboot.persist]
      exact hdisk.published
    · rw [hheader, hlog]
    · rw [hheader, hlog]
    · rw [hlog]
      exact hdisk.unpublished hd
  obtain ⟨hwriting, hwritten, hreceiving⟩ := hboot.worker
  refine ⟨hstate, fun hd => ?_, fun d hd => ?_, fun hr => ?_⟩
  · rw [hwriting _ hd]
    exact ReplicaLoop.captured_regular hstate
  · rw [hwritten] at hd
    cases hd
  · rw [hreceiving] at hr
    cases hr

/-! ## Moves -/

/-- The worker's thread makes up no snapshot. -/
theorem ReplicaLoop.Regular.worker {l' : ReplicaLoop} (hl : l.Regular g F id) (h : l.WorkerStep l') :
    l'.Regular g F id := by
  have hheld : ∀ d, d ∈ l.writing ∨ d ∈ l.written → d.Regular g := fun d hd =>
    hd.elim (fun hd => hl.writing hd) (hl.written d)
  rw [h.same]
  exact ⟨hl.state, fun {d} hd => hheld d (h.held d (.inl hd)), fun d hd => hheld d (h.held d (.inr hd)),
    hl.receiving⟩

/-- The actions of a group whose voters never change. -/
def GroupAction.Static : GroupAction → Prop
  | .join _ _ _ | .addMember _ _ | .removeMember _ _ => False
  | .crashInside _ a => a.Static
  | _ => True

/-- One process changes, the others and the files they have published stay. -/
theorem GroupState.Regular.update (h : s.Regular g F) (hF : F.Grows id F')
    (hfiles : F'.Regular g) {p : ReplicaProcess}
    (hprocess : s'.process = Function.update s.process id p)
    (hrunning : ∀ {l}, p = .running l → l.Regular g F' id)
    (hdown : ∀ {disk}, p = .down disk → disk.Regular (F' id))
    (hpackets : ∀ q ∈ s'.packets, q ∈ s.packets ∨ q.Regular g F') (htransfers : s'.transfers ⊆ s.transfers) :
    s'.Regular g F' := by
  refine ⟨hfiles, fun {v l} hv => ?_, fun {v disk} hv => ?_, fun q hq => ?_,
    fun t ht => (h.transfers t (htransfers ht)).mono hF⟩
  · rcases process_of_update hprocess hv with ⟨rfl, hp⟩ | ⟨hid, hv⟩
    · exact hrunning hp
    · exact (h.running hv).mono hF hid
  · rcases process_of_update hprocess hv with ⟨rfl, hp⟩ | ⟨hid, hv⟩
    · exact hdown hp
    · rw [hF.others hid]
      exact h.down hv
  · rcases hpackets q hq with hold | hnew
    · exact (h.packets q hold).mono hF
    · exact hnew

/-- No process changes; what is new on the network is regular. -/
theorem GroupState.Regular.network (h : s.Regular g F) (hprocess : s'.process = s.process)
    (hpackets : ∀ q ∈ s'.packets, q ∈ s.packets ∨ q.Regular g F)
    (htransfers : ∀ t ∈ s'.transfers, t ∈ s.transfers ∨ t.Regular g F) : s'.Regular g F := by
  refine ⟨h.files, fun hv => h.running (hprocess ▸ hv), fun hv => h.down (hprocess ▸ hv), fun q hq => ?_,
    fun t ht => ?_⟩
  · exact (hpackets q hq).elim (h.packets q) fun hnew => hnew
  · exact (htransfers t ht).elim (h.transfers t) fun hnew => hnew

/-- One more packet. -/
theorem GroupState.Regular.post (h : s.Regular g F) {q : Packet} (hq : q.Regular g F) :
    (s.post q).Regular g F := by
  refine h.network rfl (fun q' hq' => ?_) fun t ht => .inl ht
  rcases List.mem_append.mp hq' with hold | hnew
  · exact .inl hold
  · rw [List.mem_singleton.mp hnew]
    exact .inr hq

/-- A process that goes on with another loop on the same replica. -/
theorem GroupState.Regular.replace (h : s.Regular g F) {l' : ReplicaLoop} (hl : l'.Regular g F id) :
    (s.setProcess id (.running l')).Regular g F :=
  h.update (.refl id F) h.files rfl (fun hp => ReplicaProcess.running.inj hp ▸ hl) (fun hp => by cases hp)
    (fun _ hq => .inl hq) (List.Subset.refl _)

/-- The events of a fixed group are regular. -/
theorem GroupState.Regular.event (h : s.Regular g F) {a : GroupAction} (hstatic : a.Static)
    (hcause : a.event s = some (id, ev)) : ev.Regular := by
  have hfed := GroupAction.event_feeds hcause
  have hsource := GroupAction.event_cause hcause
  cases ev with
  | addMember member =>
    rw [hsource] at hstatic
    exact hstatic
  | removeMember target =>
    rw [hsource] at hstatic
    exact hstatic
  | appendEntries param =>
    obtain ⟨-, target, hsent⟩ := hfed
    exact h.packets _ hsent
  | _ => trivial

/-- What a regular loop sends is plain. -/
theorem ReplicaLoop.Regular.messages (hl : l.Regular g F id) (hev : ev.Regular) {m : RaftMessage}
    (hm : m ∈ (l.iterate g.codec ev).messages) : m.Plain := by
  obtain ⟨e, hasks, hsent⟩ := ReplicaLoop.iterate_messages hm
  have he : e.Regular g := by
    cases hasks with
    | runs hruns => exact (hruns.regular hev).1
    | read => trivial
  exact (CoreEvent.step_regular he hl.state.core).2 m hsent

/-- The loop of a replica of the group, after an event of the group. -/
theorem GroupState.Regular.iterates (h : s.Regular g F) (hrunning : s.process id = .running l)
    (hserving : l.faulted = false) (hev : ev.Regular) (hfed : s.Feeds id ev) :
    ∃ F' : Published, F.Grows id F' ∧ F'.Regular g ∧ (l.iterate g.codec ev).loop.Regular g F' id ∧
      ∀ {v i d}, F' v i = some d → F v i = some d ∨
        (v = id ∧ (l.iterate g.codec ev).loop.state.persist.snapshot = some d) := by
  refine (h.running hrunning).iterate hserving h.files hev ?_
  rintro param rfl
  exact h.packets _ hfed.2

/-- One iteration at one replica, with the messages and the reply it sends. -/
theorem GroupState.Regular.dispatch (h : s.Regular g F) (hrunning : s.process id = .running l)
    (hserving : l.faulted = false) (hev : ev.Regular) (hfed : s.Feeds id ev) :
    ∃ F', (s.dispatch g id l ev).Regular g F' ∧
      F.Adds F' (s.dispatch g id l ev) := by
  have hl := h.running hrunning
  obtain ⟨F', hF, hfiles, hl', hadds⟩ := h.iterates hrunning hserving hev hfed
  have hself : (s.dispatch g id l ev).process id = .running (l.iterate g.codec ev).loop :=
    Function.update_self _ _ _
  refine ⟨F', ?_, fun {v i d} hd => (hadds hd).imp_right ?_⟩
  swap
  · rintro ⟨rfl, hsnapshot⟩
    rw [hself]
    exact hsnapshot
  refine h.update hF hfiles rfl (fun hp => ReplicaProcess.running.inj hp ▸ hl') (fun hp => by cases hp)
    (fun q hq => ?_) (List.Subset.refl _)
  rcases List.mem_append.mp hq with hq | hreply
  · rcases List.mem_append.mp hq with hold | hsent
    · exact .inl hold
    · obtain ⟨m, hm, rfl⟩ := List.mem_map.mp hsent
      exact .inr (hl.messages hev hm)
  · -- a reply carries no entries
    refine .inr ?_
    cases ev <;> simp only [LoopEvent.reply, Option.toList_none, Option.toList_some, List.not_mem_nil,
      List.mem_singleton] at hreply
    all_goals
      subst hreply
      trivial

/-- A process ends and leaves regular files. -/
theorem GroupState.Regular.crash (h : s.Regular g F) (hF : F.Grows id F')
    (hfiles : F'.Regular g)
    (hdisk : disk.Regular (F' id)) : (s.crash id disk).Regular g F' :=
  h.update hF hfiles rfl (fun hp => by cases hp) (fun hp => ReplicaProcess.down.inj hp ▸ hdisk)
    (fun _ hq => .inl hq) fun _ ht => List.mem_of_mem_filter ht

/-- The files of a dispatch that was cut short are those of before or those of after, but for the WAL. -/
theorem GroupState.Regular.crashInside (h : s.Regular g F) (hrunning : s.process id = .running l)
    (hserving : l.faulted = false) (hev : ev.Regular) (hfed : s.Feeds id ev) (point : CrashPoint)
    (hs' : s' = s.crash id (l.state.persist.cutShort (l.iterate g.codec ev).loop.state.persist point)) :
    ∃ F', s'.Regular g F' ∧ F.Adds F' s' := by
  have hold := PersistEngine.Regular.of_state (h.running hrunning).state
  obtain ⟨F', hF, hfiles, hl', hadds⟩ := h.iterates hrunning hserving hev hfed
  have hnew := PersistEngine.Regular.of_state hl'.state
  have hself : (s'.process id).files =
      l.state.persist.cutShort (l.iterate g.codec ev).loop.state.persist point := by
    have hprocess : s'.process id = .down
        (l.state.persist.cutShort (l.iterate g.codec ev).loop.state.persist point) := by
      rw [hs']
      exact Function.update_self _ _ _
    rw [hprocess]
    rfl
  have hpublished : (l.state.persist.cutShort (l.iterate g.codec ev).loop.state.persist point).snapshot =
      (l.iterate g.codec ev).loop.state.persist.snapshot →
      F.Adds F' s' := by
    intro hsame v i d hd
    refine (hadds hd).imp_right ?_
    rintro ⟨rfl, hsnapshot⟩
    rw [hself, hsame]
    exact hsnapshot
  rw [hs'] at hpublished ⊢
  cases point with
  -- nothing has been published yet
  | metaSaved =>
    exact ⟨F, h.crash (.refl id F) h.files ⟨hold.wal, hold.published, hold.unpublished⟩, .inl⟩
  | snapshotPublished =>
    exact ⟨F', h.crash hF hfiles ⟨hold.wal, hnew.published, hnew.unpublished⟩, hpublished rfl⟩
  | appended records torn =>
    refine ⟨F', h.crash hF hfiles ⟨fun {e} he => ?_, hnew.published, hnew.unpublished⟩, hpublished rfl⟩
    rcases List.mem_append.mp he with hkept | htail
    · exact hnew.wal (List.mem_of_mem_take hkept)
    · split at htail
      · cases List.mem_singleton.mp htail
      · cases htail

/-- The chunks of a transfer are parts of its file. -/
theorem Transfer.Regular.chunk {t : Transfer} (h : t.Regular g F) {number : Nat}
    (hinside : number * raftSnapshotChunkBytes ≤ t.file.length) :
    (Packet.chunk (t.chunk number)).Regular g F := by
  obtain ⟨d, hd, hterm, hfile⟩ := h
  refine ⟨d, hd, hterm, hfile ▸ hinside, ⟨raftSnapshotChunkBytes, by rw [← hfile]; rfl⟩, fun hdone => ?_⟩
  rw [← hfile]
  simpa [Transfer.chunk] using hdone

/-- **Moves.** -/
theorem GroupState.Regular.move {a : GroupAction} (h : s.Regular g F) (hstatic : a.Static)
    (hmove : GroupMove g s a s') :
    ∃ F', s'.Regular g F' ∧ F.Adds F' s' := by
  -- a call that waits for its answer carries no entries and no file
  have hidle : ∀ handlers, ({ s with handlers } : GroupState).Regular g F := fun _ =>
    h.network rfl (fun _ hq => .inl hq) fun _ ht => .inl ht
  cases hmove with
  | boots down voter booted =>
    exact ⟨F, h.replace (ReplicaLoop.Regular.boot h.files (h.down down) booted), .inl⟩
  | joins => cases hstatic
  | @crashes id l running =>
    exact ⟨F, h.crash (.refl id F) h.files (.of_state (h.running running).state), .inl⟩
  | @crashesInside point a id l ev running serving cause possible =>
    have hinner : a.Static := hstatic
    exact h.crashInside running serving (h.event hinner cause) (GroupAction.event_feeds cause) point rfl
  | stops running =>
    have hl := h.running running
    exact ⟨F, h.replace ⟨hl.state, hl.writing, hl.written, hl.receiving⟩, .inl⟩
  | timesOut running =>
    have hl := h.running running
    exact ⟨F, h.replace ⟨hl.state, hl.writing, hl.written, hl.receiving⟩, .inl⟩
  | workerPosts running => exact ⟨F, h.replace ((h.running running).worker (ReplicaLoop.workerPost_step _)), .inl⟩
  | workerClears running => exact ⟨F, h.replace ((h.running running).worker (ReplicaLoop.workerClear_step _)), .inl⟩
  | dispatches running serving cause =>
    exact h.dispatch running serving (h.event hstatic cause) (GroupAction.event_feeds cause)
  | @opens n target param l d sent running published index term =>
    refine ⟨F, h.network rfl (fun _ hq => .inl hq) fun t ht => ?_, .inl⟩
    rcases List.mem_append.mp ht with hold | hnew
    · exact .inl hold
    · rw [List.mem_singleton.mp hnew]
      have hd := (h.running running).state.published published
      exact .inr ⟨d, index ▸ hd, term, rfl⟩
  | sendsChunk underWay inside =>
    exact ⟨F, h.post ((h.transfers _ (List.mem_of_getElem? underWay)).chunk inside), .inl⟩
  | chunkIgnored => exact ⟨F, hidle _, .inl⟩
  | loadsTerm => exact ⟨F, hidle _, .inl⟩
  | fails => exact ⟨F, (hidle _).post trivial, .inl⟩
  | answers => exact ⟨F, (hidle _).post trivial, .inl⟩
  | voteRefused => exact ⟨F, h.post trivial, .inl⟩
  | preVoteRefused => exact ⟨F, h.post trivial, .inl⟩
  | appendRefused => exact ⟨F, h.post trivial, .inl⟩
  | chunkRefused => exact ⟨F, h.post trivial, .inl⟩

end

/-- Nothing has been started and nothing has been published. -/
theorem GroupState.Regular.initial (g : Group) : ({} : GroupState).Regular g fun _ _ => none := by
  refine ⟨(fun h => by cases h), (fun h => by cases h), fun {id disk} h => ?_, List.forall_mem_nil _,
    List.forall_mem_nil _⟩
  obtain rfl := ReplicaProcess.down.inj h
  exact ⟨(fun he => by cases he), (fun hd => by cases hd), fun hd => by cases hd⟩

end AdvisKV
