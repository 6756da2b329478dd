import AdvisKV.Recovery.InstallCrash
import AdvisKV.Raft.CoreShape
import AdvisKV.Replica.LoopSteps

/-!
# AdvisKV — what a restarted replica holds

`Replica::init` builds a core from the creation parameters and `RecoverCall` fills it from the files. The
lemmas here describe the result for every content of the files, a damaged WAL included: the core is a
follower at the hard state on disk, its log is numbered from the snapshot on, and nothing above the
snapshot is committed or applied.

Main results:

* `WalStore.recover_consecutive` — what recovery keeps of any WAL continues the snapshot.
* `ReplicaLoop.boot_ok` — the replica a boot leaves behind.
-/

namespace AdvisKV

open RaftLog

/-! ## Reading any WAL -/

namespace WalStore

theorem readLoop_consecutive (p : Nat) (records : List WalRecord) :
    ConsecutiveFrom p (readLoop (some p) records).entries := by
  induction records generalizing p with
  | nil => exact .nil p
  | cons record records ih =>
    cases record with
    | torn => exact .nil p
    | damaged msg => exact .nil p
    | entry e =>
      simp only [readLoop]
      split
      · exact .nil p
      · next hidx =>
        have he : e.index = p + 1 := not_not.mp hidx
        exact ConsecutiveFrom.cons_iff.mpr ⟨he, he ▸ ih e.index⟩

/-- The first record may carry any index; the others follow it. -/
theorem readWalFromDisk_cases (records : List WalRecord) :
    (readWalFromDisk records).entries = [] ∨
      ∃ e es, (readWalFromDisk records).entries = e :: es ∧ ConsecutiveFrom e.index es := by
  rcases records with _ | ⟨record, records⟩
  · exact Or.inl rfl
  · cases record with
    | torn => exact Or.inl rfl
    | damaged msg => exact Or.inl rfl
    | entry e => exact Or.inr ⟨e, _, rfl, readLoop_consecutive e.index records⟩

/-- **Recovery of any WAL.** -/
theorem recover_consecutive (records : List WalRecord) (S : Nat) :
    ConsecutiveFrom S (recover records S).1.entries := by
  have hkept : ∀ first rest, (readWalFromDisk records).entries.filter
      (fun e => decide (S < e.index)) = first :: rest → first.index = S + 1 →
      ConsecutiveFrom S (first :: rest) := by
    intro first rest hfilter hfirst
    rcases readWalFromDisk_cases records with hnil | ⟨e, es, hread, hes⟩
    · rw [hnil] at hfilter
      cases hfilter
    rw [hread] at hfilter
    by_cases hlow : S < e.index
    · -- the WAL starts behind the snapshot, so everything read is kept
      rw [List.filter_cons_of_pos (by simpa using hlow)] at hfilter
      obtain ⟨rfl, hrest⟩ := List.cons.inj hfilter
      have hall : es.filter (fun e => decide (S < e.index)) = es := by
        rw [List.filter_eq_self]
        intro x hx
        obtain ⟨k, hk, rfl⟩ := List.getElem_of_mem hx
        have := hes k _ (List.getElem?_eq_getElem hk)
        simp only [decide_eq_true_eq]
        omega
      rw [hall] at hrest
      subst hrest
      exact ConsecutiveFrom.cons_iff.mpr ⟨hfirst, hfirst ▸ hes⟩
    · rw [List.filter_cons_of_neg (by simpa using hlow),
        filter_after_snapshot hes (Nat.le_of_not_lt hlow)] at hfilter
      have hlen : S - e.index ≤ es.length := by
        by_contra hcon
        rw [List.drop_of_length_le (by omega)] at hfilter
        cases hfilter
      have := hes.drop hlen
      rwa [hfilter, Nat.add_sub_cancel' (Nat.le_of_not_lt hlow)] at this
  simp only [recover]
  split
  · exact .nil S
  · next first rest hfilter =>
    split
    · exact .nil S
    · next hfirst =>
      show ConsecutiveFrom S (List.filter _ _)
      rw [hfilter]
      exact hkept first rest hfilter (not_not.mp hfirst)

end WalStore

/-! ## The recovered core -/

/-- The header recovery installs; without a snapshot everything starts at 0. -/
def PersistEngine.header (p : PersistEngine) : SnapshotHeader :=
  match p.snapshot with
  | some d => d.header
  | none => {}

/-- What recovery finds in the WAL. -/
def PersistEngine.walResult (p : PersistEngine) : WalStore.RecoverResult :=
  (WalStore.recover p.wal p.header.applyIndex).1

/-- A core built from the creation parameters and the files `disk`. -/
structure RaftCore.RecoveredFrom (c : RaftCore) (id : ReplicaID) (members : List PeerMember)
    (disk : PersistEngine) : Prop where
  selfId : c.selfId = id
  election : c.election =
    { selfId := id, currentTerm := disk.raftMeta.currentTerm, votedFor := disk.raftMeta.votedFor }
  raftLog : c.raftLog =
    { logEntries := disk.walResult.entries
      requestIndex := rebuildRequestIndex disk.walResult.entries
      snapshotIndex := disk.header.applyIndex
      snapshotTerm := disk.header.applyTerm }
  raftApply : c.raftApply = ⟨disk.header.applyIndex, disk.header.applyIndex⟩
  membership : c.membership =
    if disk.header.members = [] then RaftMembership.resetVoters members else ⟨disk.header.members⟩
  replication : c.replication = {}
  recovering : c.recovering = disk.walResult.needRecover

theorem RaftCore.adoptRecovered_recoveredFrom (selfId : ReplicaID) (members : List PeerMember)
    (limits : Nat → Nat) (disk : PersistEngine) :
    ((create selfId members limits).adoptRecovered disk.recover.1).RecoveredFrom selfId members
      disk := by
  have hrec : disk.recover.1 = ⟨disk.snapshot, disk.raftMeta, disk.walResult.entries,
      disk.walResult.needRecover⟩ := by
    obtain ⟨raftMeta, wal, snapshot⟩ := disk
    cases snapshot <;> rfl
  have happly : ∀ S, ({} : RaftApply).installSnapshot S = ⟨S, S⟩ := by
    intro S
    simp only [RaftApply.installSnapshot, RaftApply.mk.injEq]
    constructor <;> split <;> omega
  rw [hrec]
  -- recovery of the WAL stays a black box; only what is done with its result matters
  generalize hes : disk.walResult.entries = es
  generalize hneed : disk.walResult.needRecover = need
  rcases hsnap : disk.snapshot with _ | d
  · have hheader : disk.header = {} := by simp [PersistEngine.header, hsnap]
    cases need <;> constructor
    all_goals simp [adoptRecovered, hes, hneed, hheader, create, updateRaftMeta, updateLogEntries,
      enterRecovering, RaftElection.updateMeta, RaftElection.becomeFollower, RaftLog.updateEntries]
  · have hheader : disk.header = d.header := by simp [PersistEngine.header, hsnap]
    cases need <;> constructor
    all_goals simp [adoptRecovered, hes, hneed, hheader, create, updateRaftMeta, updateLogEntries,
      enterRecovering, RaftElection.updateMeta, RaftElection.becomeFollower, RaftLog.updateEntries,
      RaftLog.installSnapshot, happly]

variable {selfId : ReplicaID} {members : List PeerMember} {disk : PersistEngine}

theorem RaftCore.RecoveredFrom.shaped {c : RaftCore} (h : c.RecoveredFrom selfId members disk) :
    c.Shaped := by
  refine ⟨?_, ?_⟩
  · rw [h.raftLog]
    exact WalStore.recover_consecutive _ _
  · rw [h.raftLog, h.raftApply]

/-! ## Boot -/

/-- The creation parameters `Replica::init` is called with at every start. -/
structure ReplicaConfig where
  selfId : ReplicaID
  members : List PeerMember
  limits : Nat → Nat := fun _ => electionTimeoutMinTicks
  snapshotLimit : Nat := 1000

/-- Nothing outstanding: the apply loop reports OK and changes nothing. -/
theorem ApplyState.applyCommittedEntriesInline_idle {s : ApplyState}
    (h : s.core.raftApply.commitIndex ≤ s.core.raftApply.lastApplied) :
    s.applyCommittedEntriesInline = some (.OK, s) := by
  have hnone : s.core.raftApply.commitIndex - s.core.raftApply.lastApplied = 0 := by omega
  simp [applyCommittedEntriesInline, hnone, applyRounds, RaftApply.extractCommittedEntries,
    RaftApply.extractLoop]

/-- The state machine a restart begins with. -/
def PersistEngine.restored (p : PersistEngine) : Except Status KvStateMachine :=
  match p.snapshot with
  | some d => KvStateMachine.restore d
  | none => .ok {}

theorem PersistEngine.restored_applyIndex {p : PersistEngine} {sm : KvStateMachine}
    (h : p.restored = .ok sm) : sm.applyIndex = p.header.applyIndex := by
  obtain ⟨raftMeta, wal, snapshot⟩ := p
  rcases snapshot with _ | d
  · cases h
    rfl
  · simp only [restored, KvStateMachine.restore] at h
    split at h
    · cases h
    · cases h
      rfl

/-- What a restart leaves behind: the state, and a snapshot of it if it is already due. -/
structure ReplicaLoop.BootedFrom (l : ReplicaLoop) (selfId : ReplicaID) (members : List PeerMember)
    (snapshotLimit : Nat) (disk : PersistEngine) : Prop where
  core : l.state.core.RecoveredFrom selfId members disk
  stateMachine : disk.restored = .ok l.state.stateMachine
  persist : l.state.persist = { disk with wal := WalStore.encode disk.walResult.entries }
  rest : l = ({ state := l.state, snapshotLimit } : ReplicaLoop).advanceSnapshot

/-- **Boot.** -/
theorem ReplicaLoop.boot_ok {limits : Nat → Nat} {snapshotLimit : Nat} {l : ReplicaLoop}
    (h : boot selfId members limits snapshotLimit disk = .ok l) :
    l.BootedFrom selfId members snapshotLimit disk := by
  have hrecover : ∀ {state : ReplicaState},
      recoverCall (RaftCore.create selfId members limits) disk = .ok state →
      state.core = (RaftCore.create selfId members limits).adoptRecovered disk.recover.1 ∧
        disk.restored = .ok state.stateMachine ∧ state.persist = disk.recover.2 := by
    intro state hstate
    simp only [recoverCall] at hstate
    have hsnap : disk.recover.1.snapshot = disk.snapshot := rfl
    rw [hsnap] at hstate
    unfold PersistEngine.restored
    split at hstate
    · next hnone =>
      cases hstate
      rw [hnone]
      exact ⟨rfl, rfl, rfl⟩
    · next d hd =>
      rw [hd]
      split at hstate
      · cases hstate
      · next sm hsm =>
        cases hstate
        exact ⟨rfl, hsm, rfl⟩
  unfold boot at h
  split at h
  · cases h
  next state hstate =>
  obtain ⟨hcore, hsm, hpersist⟩ := hrecover hstate
  have hfrom : state.core.RecoveredFrom selfId members disk := by
    rw [hcore]
    exact RaftCore.adoptRecovered_recoveredFrom selfId members limits disk
  -- the commit index is that of the snapshot, so there is nothing to apply
  have hidle := ApplyState.applyCommittedEntriesInline_idle
    (s := { core := state.core, stateMachine := state.stateMachine }) (by rw [hfrom.raftApply])
  have hl : l = ({ state, snapshotLimit } : ReplicaLoop).advanceSnapshot := by
    rw [← Except.ok.inj h]
    simp only [finishDispatch, hidle, endIteration, advanceTrackers, ProposalTracker.advance,
      ReadTracker.advance, List.foldl_nil, ProposalTracker.failAll, ite_self, Status.fail_OK,
      Bool.false_eq_true, if_false]
  have hstate' : l.state = state := by rw [hl, advanceSnapshot_state]
  refine ⟨hstate' ▸ hfrom, hstate' ▸ hsm, ?_, ?_⟩
  · rw [hstate', hpersist]
    obtain ⟨raftMeta, wal, snapshot⟩ := disk
    cases snapshot <;> rfl
  · rw [hstate']
    exact hl

/-- A fresh process has received nothing; its worker may have been handed the state it starts with. -/
theorem ReplicaLoop.BootedFrom.worker {snapshotLimit : Nat} {l : ReplicaLoop}
    (h : l.BootedFrom selfId members snapshotLimit disk) :
    (∀ d ∈ l.writing, d = captured l.state) ∧ l.written = [] ∧ l.receiving = none := by
  rw [h.rest]
  unfold advanceSnapshot
  dsimp only
  split
  · exact ⟨fun _ hd => (by cases hd), rfl, rfl⟩
  split
  · exact ⟨fun _ hd => (by cases hd), rfl, rfl⟩
  · exact ⟨fun _ hd => (Option.some.inj hd).symm, rfl, rfl⟩

end AdvisKV
