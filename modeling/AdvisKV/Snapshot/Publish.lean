import AdvisKV.Lib.Machine
import AdvisKV.Model.SnapshotWorker
import AdvisKV.Raft.CoreShape
import AdvisKV.Replica.LoopSteps

/-!
# AdvisKV — the published snapshot

The published snapshot file must be complete at every moment, because the WAL behind it is gone. It is,
as long as no done event is handled while the worker is in the middle of rewriting the candidate that
the event names. Nothing in the code rules that out: the worker queues its event before it clears its
busy flag, so the loop can start a second capture of the same index, on the same candidate file, before
it has handled the first event.

Main results:

* `DiskInv` — what the directory, the worker and the queued events keep between them.
* `published_always_complete` — under the condition, the published file is complete at every point of
  every run, its index never goes back, and the log is only truncated up to it.
* `second_capture_publishes_incomplete_file` — without the condition it is not.
-/

namespace AdvisKV

/-! ## The core -/

theorem CoreEvent.step_install_snapshotIndex (c : RaftCore) (header : SnapshotHeader) :
    (CoreEvent.step (.installSnapshot header) { core := c }).core.snapshotIndex = header.applyIndex := by
  simp [CoreEvent.step, CoreState.installSnapshot, RaftCore.snapshotIndex, RaftLog.installSnapshot]

/-- The condition of the model as the proofs use it. -/
theorem CoreEvent.keepsSnapshot_of_installs {ev : CoreEvent} (h : ev.installs = false) :
    ev.KeepsSnapshot := by
  rintro header rfl
  cases h

/-! ## Invariants of the directory -/

/-- What the directory, the worker and the queued done events keep. A candidate that a queued event
names is complete unless the worker is rewriting it, and the worker never has the published file open
with parts still missing. -/
structure DiskInv (d : SnapshotDisk) (worker : WorkerPhase) (done : List (Nat × Nat)) : Prop where
  published : ∀ f, d.published = some f → f < d.nextFile ∧ (d.files f).missing = 0
  candidate : ∀ k f, d.candidate k = some f → f < d.nextFile ∧ d.published ≠ some f
  injective : ∀ k k' f, d.candidate k = some f → d.candidate k' = some f → k = k'
  writing : ∀ f data, worker = .writing f data → f < d.nextFile ∧ (d.files f).data = data ∧
    (∀ k g, d.candidate k = some g → (g = f ↔ k = data.header.applyIndex)) ∧
    ((d.files f).missing ≠ 0 → d.published ≠ some f)
  done : ∀ k t, (k, t) ∈ done → ∀ f, d.candidate k = some f →
    (d.files f).data.header.applyIndex = k ∧
      ((d.files f).missing = 0 ∨ ∃ data, worker = .writing f data)

namespace DiskInv

variable {d : SnapshotDisk} {worker : WorkerPhase} {done : List (Nat × Nat)}

variable {f : Nat} {data : SnapshotData}

theorem currentIndex_eq (h : DiskInv d worker done) (hf : d.published = some f) :
    d.currentIndex = (d.files f).data.header.applyIndex := by
  simp [SnapshotDisk.currentIndex, hf, (h.published f hf).2]

/-- The worker moves between phases in which it has no file open. -/
theorem change_phase (h : DiskInv d worker done) (hold : ∀ f data, worker ≠ .writing f data)
    {worker' : WorkerPhase} (hnew : ∀ f data, worker' ≠ .writing f data) : DiskInv d worker' done where
  published := h.published
  candidate := h.candidate
  injective := h.injective
  writing f data hw := absurd hw (hnew f data)
  done k t hk f hf := by
    obtain ⟨hidx, hc | ⟨data, hw⟩⟩ := h.done k t hk f hf
    · exact ⟨hidx, Or.inl hc⟩
    · exact absurd hw (hold f data)

/-- The worker has opened `f`, which is not published, under the name of its capture and under no other. -/
theorem opened (h : DiskInv d (.starting data) done) {n : Nat} (hn : d.nextFile ≤ n) (hf : f < n)
    (hpub : d.published ≠ some f) (hown : ∀ k, d.candidate k = some f → k = data.header.applyIndex)
    (parts : Nat) {d' : SnapshotDisk} (hd : d' = { d with
      files := Function.update d.files f ⟨data, parts⟩
      nextFile := n
      candidate := Function.update d.candidate data.header.applyIndex (some f) }) :
    DiskInv d' (.writing f data) done ∧ d'.currentIndex = d.currentIndex := by
  subst hd
  have hcand : ∀ k g, Function.update d.candidate data.header.applyIndex (some f) k = some g →
      (k = data.header.applyIndex ∧ g = f) ∨ (k ≠ data.header.applyIndex ∧ g ≠ f ∧ d.candidate k = some g) := by
    intro k g hk
    by_cases hkey : k = data.header.applyIndex
    · subst hkey
      rw [Function.update_self] at hk
      exact Or.inl ⟨rfl, (Option.some.inj hk).symm⟩
    · rw [Function.update_of_ne hkey] at hk
      refine Or.inr ⟨hkey, ?_, hk⟩
      rintro rfl
      exact hkey (hown k hk)
  have hkept : ∀ g, d.published = some g → Function.update d.files f ⟨data, parts⟩ g = d.files g := by
    intro g hg
    refine Function.update_of_ne ?_ _ _
    rintro rfl
    exact hpub hg
  refine ⟨⟨fun g hg => ?_, fun k g hk => ?_, fun k k' g hk hk' => ?_, fun g data' hw => ?_,
    fun k t hk g hg => ?_⟩, ?_⟩
  · obtain ⟨hlt, hmiss⟩ := h.published g hg
    refine ⟨hlt.trans_le hn, ?_⟩
    dsimp only
    rwa [hkept g hg]
  · rcases hcand k g hk with ⟨-, rfl⟩ | ⟨-, -, hk⟩
    · exact ⟨hf, hpub⟩
    · exact ⟨(h.candidate k g hk).1.trans_le hn, (h.candidate k g hk).2⟩
  · rcases hcand k g hk with ⟨rfl, rfl⟩ | ⟨-, hne, hk⟩
    · rcases hcand k' _ hk' with ⟨rfl, -⟩ | ⟨-, hne, -⟩
      · rfl
      · exact absurd rfl hne
    · rcases hcand k' g hk' with ⟨-, rfl⟩ | ⟨-, -, hk'⟩
      · exact absurd rfl hne
      · exact h.injective k k' g hk hk'
  · cases hw
    refine ⟨hf, by simp, fun k g hk => ?_, fun _ => hpub⟩
    rcases hcand k g hk with ⟨rfl, rfl⟩ | ⟨hkey, hne, -⟩
    · exact iff_of_true rfl rfl
    · exact iff_of_false hne hkey
  · rcases hcand k g hg with ⟨rfl, rfl⟩ | ⟨-, hne, hg⟩
    · exact ⟨by simp, Or.inr ⟨data, rfl⟩⟩
    · -- with no file open before, every other candidate that a queued event names is complete
      obtain ⟨hidx, hc | ⟨_, hw⟩⟩ := h.done k t hk g hg
      · dsimp only
        rw [Function.update_of_ne hne]
        exact ⟨hidx, Or.inl hc⟩
      · cases hw
  · simp only [SnapshotDisk.currentIndex]
    split
    · rfl
    · next g hg => rw [hkept g hg]

/-- **Opening a candidate.** One that exists is truncated in place, else it is a new file. -/
theorem openCandidate (h : DiskInv d (.starting data) done) (parts : Nat) :
    DiskInv (d.openCandidate data parts).2 (.writing (d.openCandidate data parts).1 data) done ∧
      (d.openCandidate data parts).2.currentIndex = d.currentIndex := by
  unfold SnapshotDisk.openCandidate
  split
  · next f hf =>
    obtain ⟨hlt, hpub⟩ := h.candidate _ f hf
    refine h.opened le_rfl hlt hpub (fun k hk => h.injective k _ f hk hf) parts ?_
    rw [← hf, Function.update_eq_self]
  · exact h.opened (Nat.le_succ _) (Nat.lt_succ_self _)
      (fun hp => lt_irrefl _ (h.published _ hp).1)
      (fun k hk => absurd (h.candidate k _ hk).1 (lt_irrefl _)) parts rfl

/-- Writing a part keeps the invariant. -/
theorem writePart (h : DiskInv d (.writing f data) done) :
    DiskInv (d.writePart f) (.writing f data) done ∧
      (d.writePart f).currentIndex = d.currentIndex := by
  -- a part leaves the contents and completes nothing that was complete
  have hfile : ∀ g, ((d.writePart f).files g).data = (d.files g).data ∧
      ((d.files g).missing = 0 → ((d.writePart f).files g).missing = 0) ∧
      (((d.writePart f).files g).missing ≠ 0 → (d.files g).missing ≠ 0) := by
    intro g
    by_cases hg : g = f
    · subst hg
      simp only [SnapshotDisk.writePart, Function.update_self, true_and]
      omega
    · simp [SnapshotDisk.writePart, Function.update_of_ne hg]
  refine ⟨⟨fun g hg => ?_, h.candidate, h.injective, fun g data' hw => ?_, fun k t hk g hg => ?_⟩, ?_⟩
  · obtain ⟨hlt, hmiss⟩ := h.published g hg
    exact ⟨hlt, (hfile g).2.1 hmiss⟩
  · obtain ⟨hlt, hdata, hkey, hpub⟩ := h.writing g data' hw
    exact ⟨hlt, (hfile g).1.trans hdata, hkey, fun hm => hpub ((hfile g).2.2 hm)⟩
  · obtain ⟨hidx, hc⟩ := h.done k t hk g hg
    exact ⟨by rw [(hfile g).1]; exact hidx, hc.imp_left (hfile g).2.1⟩
  · cases hp : d.published with
    | none => simp [SnapshotDisk.currentIndex, SnapshotDisk.writePart, hp]
    | some g =>
      have hmiss := (h.published g hp).2
      rw [h.currentIndex_eq hp, SnapshotDisk.currentIndex,
        show (d.writePart f).published = some g from hp]
      simp only [(hfile g).2.1 hmiss, (hfile g).1, if_true]

/-- The worker reports a file it has completed. -/
theorem post (h : DiskInv d (.writing f data) done) (hm : (d.files f).missing = 0) (t : Nat) :
    DiskInv d .finishing (done ++ [(data.header.applyIndex, t)]) where
  published := h.published
  candidate := h.candidate
  injective := h.injective
  writing g data' hw := by cases hw
  done k t' hk g hg := by
    rcases List.mem_append.mp hk with hk | hk
    · -- an older event: if the worker had its candidate open, that file is complete now
      obtain ⟨hidx, hc | ⟨data', hw⟩⟩ := h.done k t' hk g hg
      · exact ⟨hidx, Or.inl hc⟩
      · cases hw
        exact ⟨hidx, Or.inl hm⟩
    · obtain ⟨rfl, -⟩ := Prod.mk.inj (List.mem_singleton.mp hk)
      -- the new event: its candidate, if it still has its name, is the file just written
      obtain ⟨-, hdata, hkey, -⟩ := h.writing f data rfl
      obtain rfl := (hkey _ g hg).mpr rfl
      exact ⟨by rw [hdata], Or.inl hm⟩

/-- Taking a name away keeps the rest. -/
theorem mem_of_removed {k k' : Nat} (hf : Function.update d.candidate k none k' = some f) :
    d.candidate k' = some f := by
  by_cases hk : k' = k
  · subst hk
    rw [Function.update_self] at hf
    cases hf
  · rwa [Function.update_of_ne hk] at hf

/-- **Handling a done event.** The index of the published snapshot goes up to the captured one, or stays
where it is when it was not smaller. -/
theorem publishLocal {k t : Nat} {rest : List (Nat × Nat)} (h : DiskInv d worker ((k, t) :: rest))
    (hsafe : ∀ f data, worker = .writing f data → (d.files f).missing ≠ 0 →
      data.header.applyIndex ≠ k)
    {d' : SnapshotDisk} (hd : d.publishLocal k = some d') :
    DiskInv d' worker rest ∧ d'.currentIndex = max d.currentIndex k := by
  simp only [SnapshotDisk.publishLocal] at hd
  split at hd
  · next hle =>
    cases hd
    refine ⟨⟨h.published, fun k' f hf => h.candidate k' f (mem_of_removed hf),
      fun k₁ k₂ f h₁ h₂ => h.injective k₁ k₂ f (mem_of_removed h₁) (mem_of_removed h₂),
      fun f data hw => ?_, fun k' t' hk f hf => ?_⟩, (max_eq_left hle).symm⟩
    · obtain ⟨hlt, hdata, hkey, hpub⟩ := h.writing f data hw
      exact ⟨hlt, hdata, fun k' g hg => hkey k' g (mem_of_removed hg), hpub⟩
    · exact h.done k' t' (List.mem_cons_of_mem _ hk) f (mem_of_removed hf)
  next hgt =>
  split at hd
  · cases hd
  next f hf =>
  cases hd
  obtain ⟨hidx, hcase⟩ := h.done k t List.mem_cons_self f hf
  -- the candidate is complete: otherwise the worker would be rewriting it right now
  have hmiss : (d.files f).missing = 0 := by
    by_contra hm
    obtain ⟨data, hw⟩ := hcase.resolve_left hm
    exact hsafe f data hw hm (((h.writing f data hw).2.2.1 k f hf).mp rfl).symm
  have hother : ∀ k' g, Function.update d.candidate k none k' = some g → g ≠ f := by
    rintro k' g hg rfl
    obtain rfl := h.injective k' k g (mem_of_removed hg) hf
    rw [Function.update_self] at hg
    cases hg
  refine ⟨⟨fun g hg => ?_, fun k' g hg => ?_,
    fun k₁ k₂ g h₁ h₂ => h.injective k₁ k₂ g (mem_of_removed h₁) (mem_of_removed h₂),
    fun g data hw => ?_, fun k' t' hk g hg => ?_⟩, ?_⟩
  · cases hg
    exact ⟨(h.candidate k f hf).1, hmiss⟩
  · exact ⟨(h.candidate k' g (mem_of_removed hg)).1, fun hp => hother k' g hg (Option.some.inj hp).symm⟩
  · obtain ⟨hlt, hdata, hkey, -⟩ := h.writing g data hw
    refine ⟨hlt, hdata, fun k' g' hg' => hkey k' g' (mem_of_removed hg'), fun hm hp => hm ?_⟩
    rw [← Option.some.inj hp]
    exact hmiss
  · exact h.done k' t' (List.mem_cons_of_mem _ hk) g (mem_of_removed hg)
  · simp only [SnapshotDisk.currentIndex, hmiss, if_true, hidx] at hgt ⊢
    omega

/-- **A received file** is a new one, so that no candidate and no open file is touched. -/
theorem publishReceived (h : DiskInv d worker done) (received : SnapshotData) :
    DiskInv (d.publishReceived received) worker done ∧
      (d.publishReceived received).currentIndex = received.header.applyIndex := by
  have hold : ∀ g, g < d.nextFile → (d.publishReceived received).files g = d.files g := fun g hg =>
    Function.update_of_ne (Nat.ne_of_lt hg) _ _
  refine ⟨⟨fun g hg => ?_, fun k g hg => ?_, h.injective, fun g data hw => ?_,
    fun k t hk g hg => ?_⟩, by simp [SnapshotDisk.currentIndex, SnapshotDisk.publishReceived]⟩
  · cases hg
    exact ⟨Nat.lt_succ_self _, by simp [SnapshotDisk.publishReceived]⟩
  · have hlt := (h.candidate k g hg).1
    exact ⟨Nat.lt_succ_of_lt hlt, fun hp => Nat.ne_of_gt hlt (Option.some.inj hp)⟩
  · obtain ⟨hlt, hdata, hkey, -⟩ := h.writing g data hw
    exact ⟨Nat.lt_succ_of_lt hlt, by rw [hold g hlt]; exact hdata, hkey,
      fun _ hp => Nat.ne_of_gt hlt (Option.some.inj hp)⟩
  · have hlt := (h.candidate k g hg).1
    rw [hold g hlt]
    exact h.done k t hk g hg

end DiskInv

/-! ## Invariants of the replica with its directory -/

namespace SnapshotSystem

/-- The directory is in order and the published snapshot covers everything the log has dropped, with
nothing to spare while the loop runs. -/
structure Inv (s : SnapshotSystem) : Prop where
  disk : DiskInv s.disk s.worker s.doneEvents
  shaped : s.replica.core.Shaped
  covered : s.replica.core.snapshotIndex ≤ s.disk.currentIndex
  exact : s.faulted = false → s.disk.currentIndex = s.replica.core.snapshotIndex

variable {s : SnapshotSystem}

/-- Applying entries moves neither the snapshot nor the commit index. -/
theorem finish_inv (hdisk : DiskInv s.disk s.worker s.doneEvents) (hshaped : s.replica.core.Shaped)
    (hexact : s.disk.currentIndex = s.replica.core.snapshotIndex) :
    s.finish.Inv ∧ s.finish.disk = s.disk := by
  unfold finish
  split
  · exact ⟨⟨hdisk, hshaped, hexact.ge, fun _ => hexact⟩, rfl⟩
  · next applied a happly =>
    have hframe := ApplyMove.frame_star (ApplyState.applyCommittedEntriesInline_moves happly)
    have hsnap : a.core.snapshotIndex = s.replica.core.snapshotIndex :=
      congrArg RaftLog.snapshotIndex hframe.raftLog
    refine ⟨⟨hdisk, ⟨?_, ?_⟩, ?_, fun _ => ?_⟩, rfl⟩
    · show a.core.raftLog.Consecutive
      rw [hframe.raftLog]
      exact hshaped.consecutive
    · show a.core.raftLog.snapshotIndex ≤ a.core.raftApply.commitIndex
      rw [hframe.raftLog, hframe.commit]
      exact hshaped.snapshot_le
    · exact hsnap.trans_le hexact.ge
    · exact hexact.trans hsnap.symm

theorem dispatches_iff :
    s.dispatches = true ↔ s.phase = .dispatch ∧ s.faulted = false := by
  simp [dispatches]

/-- The loop stops with its files in order. -/
theorem fault_inv (hdisk : DiskInv s.disk s.worker s.doneEvents) (hshaped : s.replica.core.Shaped)
    (hcovered : s.replica.core.snapshotIndex ≤ s.disk.currentIndex) : s.fault.Inv :=
  ⟨hdisk, hshaped, hcovered, fun h => by cases h⟩

/-! ## Each step -/

/-- The condition on a step: a received file carries the index it was announced with, which its sender
checks before sending, and a done event is not handled while the worker is between truncating and
completing the candidate of the same index. -/
def safe (s : SnapshotSystem) : SnapshotAction → Bool
  | .received param (.ok received) => received.header.applyIndex == param.snapshotIndex
  | .snapshotDone =>
    match s.doneEvents, s.worker with
    | (k, _) :: _, .writing f data =>
      (s.disk.files f).missing == 0 || data.header.applyIndex != k
    | _, _ => true
  | _ => true

end SnapshotSystem

/-- The loop takes a candidate as complete when it handles the done event. That is so in the directory unless
the worker is busy with a second capture of the index the event names. -/
def ReplicaLoop.settled (l : ReplicaLoop) : Bool :=
  match l.written, l.writing with
  | candidate :: _, some data => l.posted || data.header.applyIndex != candidate.header.applyIndex
  | _, _ => true

namespace SnapshotSystem

variable {s s' : SnapshotSystem}

/-- What the loop can tell of the two threads is enough for the condition on the files. -/
theorem safe_of_settled {l : ReplicaLoop} (hsettled : l.settled = true)
    (hdone : s.doneEvents = l.written.map fun d => (d.header.applyIndex, d.header.applyTerm))
    (hworker : ∀ f data, s.worker = .writing f data → l.writing = some data ∧ l.posted = false) :
    s.safe .snapshotDone = true := by
  simp only [safe, hdone]
  cases hqueue : l.written with
  | nil => rfl
  | cons candidate rest =>
    cases hw : s.worker with
    | writing f data =>
      obtain ⟨hwriting, hposted⟩ := hworker f data hw
      have hother : (data.header.applyIndex != candidate.header.applyIndex) = true := by
        simpa [ReplicaLoop.settled, hqueue, hwriting, hposted] using hsettled
      simp [hother]
    | _ => rfl

/-- A dispatched event that installs nothing keeps the directory and the snapshot. -/
theorem core_inv (h : s.Inv) (hf : s.faulted = false) {e : CoreEvent} (he : e.installs = false) :
    ({ s with replica := (s.replica.executeEvent e).2.1 } : SnapshotSystem).finish.Inv ∧
    ({ s with replica := (s.replica.executeEvent e).2.1 } : SnapshotSystem).finish.disk = s.disk := by
  refine finish_inv h.disk ?_ ?_
  · show (s.replica.executeEvent e).2.1.core.Shaped
    rw [ReplicaState.executeEvent_core]
    exact e.step_shaped h.shaped
  · show s.disk.currentIndex = (s.replica.executeEvent e).2.1.core.snapshotIndex
    rw [ReplicaState.executeEvent_core]
    have hkept := CoreEvent.step_snapshot (CoreEvent.keepsSnapshot_of_installs he) h.shaped.consecutive
    exact (h.exact hf).trans hkept.1.symm

/-- A received snapshot lies above the commit index, so above the published one. -/
theorem onReceived_inv (h : s.Inv) (hf : s.faulted = false) (param : InstallSnapshotParam)
    (file : Except Status SnapshotData) (hsafe : s.safe (.received param file) = true) :
    (s.onReceived param file).Inv ∧
      s.disk.currentIndex ≤ (s.onReceived param file).disk.currentIndex := by
  obtain ⟨hprep, hprepDisk⟩ := core_inv h hf (e := .prepareInstallSnapshot param) rfl
  have hshaped : (s.replica.prepareInstallSnapshot param).2.2.core.Shaped := by
    rw [ReplicaState.prepareInstallSnapshot_eq, ReplicaState.executeEvent_core]
    exact CoreEvent.step_shaped _ h.shaped
  have hsnap : (s.replica.prepareInstallSnapshot param).2.2.core.snapshotIndex =
      s.replica.core.snapshotIndex := by
    rw [ReplicaState.prepareInstallSnapshot_eq, ReplicaState.executeEvent_core]
    exact (CoreEvent.step_snapshot (by rintro header ⟨⟩) h.shaped.consecutive).1
  simp only [onReceived]
  split
  · exact ⟨hprep, (congrArg SnapshotDisk.currentIndex hprepDisk).ge⟩
  next hok =>
  split
  · exact ⟨hprep, (congrArg SnapshotDisk.currentIndex hprepDisk).ge⟩
  next hwanted =>
  have habove := ReplicaState.prepareInstallSnapshot_wanted (by simpa using hok) (by omega)
  split
  · -- the file does not verify, and the old one stays published
    refine ⟨fault_inv h.disk hshaped ?_, le_rfl⟩
    exact hsnap.trans_le h.covered
  next received =>
  have hindex : received.header.applyIndex = param.snapshotIndex := by simpa [safe] using hsafe
  obtain ⟨hdisk, hcurrent⟩ := h.disk.publishReceived received
  have hlater : s.disk.currentIndex ≤ received.header.applyIndex := by
    have := h.shaped.snapshot_le
    have := h.exact hf
    simp only [RaftCore.snapshotIndex] at this
    omega
  split
  · -- published but not restored: the loop stops with a snapshot ahead of its log
    refine ⟨fault_inv hdisk hshaped ?_, hlater.trans_eq hcurrent.symm⟩
    rw [hcurrent]
    exact hsnap.trans_le (h.covered.trans hlater)
  next sm hrestore =>
  obtain ⟨hinv, hd⟩ := finish_inv (s := { s with
    replica := ({ (s.replica.prepareInstallSnapshot param).2.2 with stateMachine := sm }.executeEvent
      (.installSnapshot received.header)).2.1
    disk := s.disk.publishReceived received }) hdisk
    (by rw [ReplicaState.executeEvent_core]; exact CoreEvent.step_shaped _ hshaped)
    (by rw [ReplicaState.executeEvent_core, CoreEvent.step_install_snapshotIndex]; exact hcurrent)
  refine ⟨hinv, ?_⟩
  rw [hd]
  exact hlater.trans_eq hcurrent.symm

/-- The loop renames the candidate, or drops it when the published snapshot is not older. -/
theorem onDone_inv {k t : Nat} {rest : List (Nat × Nat)} (h : s.Inv) (hf : s.faulted = false)
    (hdone : s.doneEvents = (k, t) :: rest) (hsafe : s.safe .snapshotDone = true) :
    (({ s with doneEvents := rest } : SnapshotSystem).onDone k t).Inv ∧
      s.disk.currentIndex ≤
        (({ s with doneEvents := rest } : SnapshotSystem).onDone k t).disk.currentIndex := by
  have hqueue : DiskInv s.disk s.worker ((k, t) :: rest) := hdone ▸ h.disk
  have hexact := h.exact hf
  have hcond : ∀ f data, s.worker = .writing f data → (s.disk.files f).missing ≠ 0 →
      data.header.applyIndex ≠ k := by
    intro f data hw hm
    simpa [safe, hdone, hw, hm] using hsafe
  simp only [onDone]
  split
  · -- no candidate to rename: the loop faults with the directory as it was
    refine ⟨fault_inv ⟨hqueue.published, hqueue.candidate, hqueue.injective, hqueue.writing,
      fun k' t' hk => hqueue.done k' t' (List.mem_cons_of_mem _ hk)⟩ h.shaped h.covered, le_rfl⟩
  next disk hpublish =>
  obtain ⟨hdisk, hcurrent⟩ := hqueue.publishLocal hcond hpublish
  split
  · -- an older capture: the log has been cut at least as far
    next hle =>
    have hsame : disk.currentIndex = s.replica.core.snapshotIndex := by omega
    obtain ⟨hinv, hd⟩ := finish_inv (s := { s with doneEvents := rest, disk }) hdisk h.shaped hsame
    refine ⟨hinv, ?_⟩
    rw [hd]
    exact (hexact.trans hsame.symm).le
  · -- the log is cut at the capture, which is now the published snapshot
    next hgt =>
    have hnew : disk.currentIndex = k := by omega
    obtain ⟨hinv, hd⟩ := finish_inv (s := { s with
      doneEvents := rest
      disk
      replica := (s.replica.executeEvent
        (.installSnapshot { applyIndex := k, applyTerm := t })).2.1 }) hdisk
      (by rw [ReplicaState.executeEvent_core]; exact CoreEvent.step_shaped _ h.shaped)
      (by rw [ReplicaState.executeEvent_core, CoreEvent.step_install_snapshotIndex]; exact hnew)
    refine ⟨hinv, ?_⟩
    rw [hd]
    show s.disk.currentIndex ≤ disk.currentIndex
    omega

/-- Taking a copy for the worker touches no file. -/
theorem advance_inv (h : s.Inv) : s.advance.Inv ∧ s.advance.disk = s.disk := by
  simp only [advance]
  split
  · exact ⟨⟨h.disk, h.shaped, h.covered, h.exact⟩, rfl⟩
  split
  · exact ⟨⟨h.disk, h.shaped, h.covered, h.exact⟩, rfl⟩
  · next hidle =>
    have hw : s.worker = .idle := not_not.mp hidle
    refine ⟨⟨h.disk.change_phase ?_ ?_, h.shaped, h.covered, h.exact⟩, rfl⟩
    · intro f data hwriting
      rw [hw] at hwriting
      cases hwriting
    · intro f data hwriting
      cases hwriting

/-- **One step.** It keeps the invariant and never lowers the index of the published snapshot. -/
theorem step_inv (h : s.Inv) {a : SnapshotAction} (hsafe : s.safe a = true)
    (hstep : step a s = some s') : s'.Inv ∧ s.disk.currentIndex ≤ s'.disk.currentIndex := by
  cases a with
  | core ev =>
    simp only [step] at hstep
    split at hstep
    · next hd =>
      simp only [Bool.and_eq_true, dispatches_iff, Bool.not_eq_true'] at hd
      cases hstep
      obtain ⟨hinv, hdisk⟩ := core_inv h hd.1.2 hd.2
      exact ⟨hinv, (congrArg SnapshotDisk.currentIndex hdisk).ge⟩
    · cases hstep
  | received param file =>
    simp only [step] at hstep
    split at hstep
    · next hd =>
      cases hstep
      exact onReceived_inv h (dispatches_iff.mp hd).2 param file hsafe
    · cases hstep
  | snapshotDone =>
    simp only [step] at hstep
    split at hstep
    · cases hstep
    · next k t rest hdone =>
      split at hstep
      · next hd =>
        cases hstep
        exact onDone_inv h (dispatches_iff.mp hd).2 hdone hsafe
      · cases hstep
  | advance =>
    simp only [step] at hstep
    split at hstep
    · cases hstep
      obtain ⟨hinv, hdisk⟩ := advance_inv h
      exact ⟨hinv, (congrArg SnapshotDisk.currentIndex hdisk).ge⟩
    · cases hstep
  -- the worker's steps touch no file that is published
  | workerOpen parts =>
    simp only [step] at hstep
    split at hstep
    · next data hw =>
      cases hstep
      obtain ⟨hdisk, hcurrent⟩ := (hw ▸ h.disk).openCandidate parts
      refine ⟨⟨hdisk, h.shaped, h.covered.trans_eq hcurrent.symm, fun hf => ?_⟩, hcurrent.ge⟩
      exact hcurrent.trans (h.exact hf)
    · cases hstep
  | workerWrite =>
    simp only [step] at hstep
    split at hstep
    · next f data hw =>
      cases hstep
      obtain ⟨hdisk, hcurrent⟩ := (hw ▸ h.disk).writePart
      refine ⟨⟨hw ▸ hdisk, h.shaped, h.covered.trans_eq hcurrent.symm, fun hf => ?_⟩, hcurrent.ge⟩
      exact hcurrent.trans (h.exact hf)
    · cases hstep
  | workerPost =>
    simp only [step] at hstep
    split at hstep
    · next f data hw =>
      split at hstep
      · next hm =>
        cases hstep
        exact ⟨⟨(hw ▸ h.disk).post hm _, h.shaped, h.covered, h.exact⟩, le_rfl⟩
      · cases hstep
    · cases hstep
  | workerClear =>
    simp only [step] at hstep
    split at hstep
    · next hw =>
      cases hstep
      refine ⟨⟨(hw ▸ h.disk).change_phase ?_ ?_, h.shaped, h.covered, h.exact⟩, le_rfl⟩
      · intro f data hwriting
        cases hwriting
      · intro f data hwriting
        cases hwriting
    · cases hstep

/-! ## Every run -/

/-- A process right after it has recovered: the worker is idle, nothing is queued, and the published
snapshot, if there is one, is complete and is the one the core was restored from. Candidate files of an
earlier process may still lie around. -/
structure Fresh (s : SnapshotSystem) : Prop where
  worker : s.worker = .idle
  doneEvents : s.doneEvents = []
  shaped : s.replica.core.Shaped
  published : (s.disk.published = none ∧ s.replica.core.snapshotIndex = 0) ∨
    ∃ f, s.disk.published = some f ∧ f < s.disk.nextFile ∧ (s.disk.files f).missing = 0 ∧
      (s.disk.files f).data.header.applyIndex = s.replica.core.snapshotIndex
  candidate : ∀ k f, s.disk.candidate k = some f → f < s.disk.nextFile ∧ s.disk.published ≠ some f
  injective : ∀ k k' f, s.disk.candidate k = some f → s.disk.candidate k' = some f → k = k'

/-- A process starts with its directory in order. -/
theorem Fresh.inv (h : s.Fresh) : s.Inv := by
  have hcurrent : s.disk.currentIndex = s.replica.core.snapshotIndex := by
    rcases h.published with ⟨hnone, hzero⟩ | ⟨f, hf, -, hm, hidx⟩
    · simp [SnapshotDisk.currentIndex, hnone, hzero]
    · simp [SnapshotDisk.currentIndex, hf, hm, hidx]
  refine ⟨⟨fun f hf => ?_, h.candidate, h.injective, ?_, ?_⟩, h.shaped, hcurrent.ge,
    fun _ => hcurrent⟩
  · rcases h.published with ⟨hnone, -⟩ | ⟨g, hg, hlt, hm, -⟩
    · rw [hnone] at hf
      cases hf
    · cases hg.symm.trans hf
      exact ⟨hlt, hm⟩
  · intro f data hw
    rw [h.worker] at hw
    cases hw
  · intro k t hk
    rw [h.doneEvents] at hk
    cases hk

/-- Runs whose steps all meet the condition. -/
abbrev SafeRun : SnapshotSystem → SnapshotSystem → Prop :=
  Machine.GuardedRun step fun s a => s.safe a = true

end SnapshotSystem

open SnapshotSystem in
/-- **The published snapshot is always complete.** In a run of the loop and its worker whose steps meet
the condition, at every point the published file, if there is one, is complete; its index is at least
that of every snapshot published before; and it covers everything the log and the WAL have dropped. -/
theorem published_always_complete {s₀ s s' : SnapshotSystem} (hstart : s₀.Fresh)
    (hrun : SafeRun s₀ s) (hlater : SafeRun s s') :
    (∀ f, s'.disk.published = some f → (s'.disk.files f).missing = 0) ∧
      s.disk.currentIndex ≤ s'.disk.currentIndex ∧
      s'.replica.core.snapshotIndex ≤ s'.disk.currentIndex := by
  have hkeep : ∀ s a s', s.Inv → s.safe a = true → step a s = some s' → s'.Inv :=
    fun s a s' h hsafe hstep => (step_inv h hsafe hstep).1
  have hinv : s.Inv := hrun.invariant hkeep hstart.inv
  have hinv' : s'.Inv := hlater.invariant hkeep hinv
  refine ⟨fun f hf => (hinv'.disk.published f hf).2, ?_, hinv'.covered⟩
  exact hlater.monotone (f := fun s => s.disk.currentIndex)
    (fun s a s' h hsafe hstep => step_inv h hsafe hstep) hinv

/-! ## A second capture on the same path -/

/-- A follower that has applied one entry and takes a snapshot after every entry. -/
def oneEntrySystem : SnapshotSystem :=
  { replica :=
      { core :=
          { selfId := ⟨1, 0, 1⟩
            election := { selfId := ⟨1, 0, 1⟩, currentTerm := 1 }
            raftLog := { logEntries := [{ term := 1, index := 1 }] }
            raftApply := { commitIndex := 1, lastApplied := 1 }
            electionTickTrigger := TickTrigger.fixed electionTimeoutMinTicks }
        stateMachine := { applyIndex := 1, applyTerm := 1 }
        persist :=
          { raftMeta := { currentTerm := 1 }, wal := WalStore.encode [{ term := 1, index := 1 }] } }
    snapshotLimit := 1 }

theorem oneEntrySystem_fresh : oneEntrySystem.Fresh where
  worker := rfl
  doneEvents := rfl
  shaped := ⟨RaftLog.ConsecutiveFrom.cons_iff.mpr ⟨rfl, .nil _⟩, Nat.zero_le _⟩
  published := Or.inl ⟨rfl, rfl⟩
  candidate k f h := by cases h
  injective k k' f h := by cases h

/-- A capture that is written, announced and published before the next one starts. -/
def oneCapture : List SnapshotAction :=
  [.core .tick, .advance, .workerOpen 1, .workerWrite, .workerPost, .workerClear, .snapshotDone]

/-- The state `oneCapture` ends in. -/
def afterOneCapture : SnapshotSystem :=
  (Machine.runGuarded SnapshotSystem.step SnapshotSystem.safe oneCapture oneEntrySystem).getD
    oneEntrySystem

theorem one_capture_published_complete :
    (∀ f, afterOneCapture.disk.published = some f → (afterOneCapture.disk.files f).missing = 0) ∧
      oneEntrySystem.disk.currentIndex ≤ afterOneCapture.disk.currentIndex ∧
      afterOneCapture.replica.core.snapshotIndex ≤ afterOneCapture.disk.currentIndex ∧
      afterOneCapture.disk.currentIndex = 1 := by
  have hexec : Machine.runGuarded SnapshotSystem.step SnapshotSystem.safe oneCapture oneEntrySystem =
      some afterOneCapture := rfl
  have hrun : SnapshotSystem.SafeRun oneEntrySystem afterOneCapture := .of_runGuarded hexec
  obtain ⟨hcomplete, hmono, hcovered⟩ :=
    published_always_complete oneEntrySystem_fresh (.refl _) hrun
  exact ⟨hcomplete, hmono, hcovered, by decide⟩

/-- The worker announces its candidate and goes idle; before the event is handled a tick starts a second
capture of the same index, which truncates the file; then the event is handled. -/
def twoCaptures : List SnapshotAction :=
  [.core .tick, .advance, .workerOpen 1, .workerWrite, .workerPost, .workerClear,
    .core .tick, .advance, .workerOpen 1, .snapshotDone]

/-- **An incomplete file is published**, and the log is truncated behind it. -/
theorem second_capture_publishes_incomplete_file :
    oneEntrySystem.Fresh ∧
    (Machine.run SnapshotSystem.step twoCaptures oneEntrySystem).map (fun s =>
      (s.disk.published.map fun f => (s.disk.files f).missing, s.replica.core.snapshotIndex,
        s.replica.persist.wal)) = some (some 1, 1, []) :=
  ⟨oneEntrySystem_fresh, by decide⟩

end AdvisKV
