import AdvisKV.Model.Persist
import AdvisKV.Raft.AppendEntries

/-!
# AdvisKV — a crash while a received snapshot is installed

A received snapshot is published first and the WAL is rewritten afterwards, so a crash in between leaves
the new snapshot next to the old WAL. The uninterrupted install drops the old suffix when the old log
disagrees with the snapshot at its last index; `WalStore::recover` compares indexes only and keeps it.

Main results:

* `recover_encode` — what recovery keeps of an intact WAL.
* `install_crash_recovers` — recovery rebuilds the log of the uninterrupted install exactly when the
  rewritten WAL was in place, or the old log ended at the snapshot, or it agreed with it there.
-/

namespace AdvisKV

open RaftLog

/-! ## Reading an intact WAL -/

variable {p S : Nat} {es : List LogEntry}

theorem readLoop_encode (h : ConsecutiveFrom p es) :
    WalStore.readLoop (some p) (WalStore.encode es) = { entries := es } := by
  induction es generalizing p with
  | nil => rfl
  | cons e es ih =>
    obtain ⟨he, hes⟩ := ConsecutiveFrom.cons_iff.mp h
    have hrec : WalStore.readLoop (some e.index) (WalStore.encode es) = { entries := es } := by
      rw [he]; exact ih hes
    simp only [WalStore.encode, List.map_cons, WalStore.readLoop]
    rw [if_neg (by omega)]
    simp only [WalStore.encode] at hrec
    rw [hrec]

/-- An intact WAL is read back entry by entry. -/
theorem readWalFromDisk_encode (h : ConsecutiveFrom p es) :
    WalStore.readWalFromDisk (WalStore.encode es) = { entries := es } := by
  rcases es with _ | ⟨e, es⟩
  · rfl
  · obtain ⟨he, hes⟩ := ConsecutiveFrom.cons_iff.mp h
    have hrec : WalStore.readLoop (some e.index) (WalStore.encode es) = { entries := es } := by
      rw [he]; exact readLoop_encode hes
    simp only [WalStore.encode] at hrec
    simp only [WalStore.readWalFromDisk, WalStore.encode, List.map_cons, WalStore.readLoop, hrec]

/-- Dropping what a snapshot covers is dropping a number of entries. -/
theorem filter_after_snapshot (h : ConsecutiveFrom p es) (hS : p ≤ S) :
    es.filter (fun e => decide (S < e.index)) = es.drop (S - p) := by
  induction es generalizing p with
  | nil => simp
  | cons e es ih =>
    obtain ⟨he, hes⟩ := ConsecutiveFrom.cons_iff.mp h
    rcases Nat.eq_or_lt_of_le hS with rfl | hlt
    · rw [Nat.sub_self, List.drop_zero, List.filter_eq_self]
      intro x hx
      obtain ⟨k, hk, rfl⟩ := List.getElem_of_mem hx
      have := h k _ (List.getElem?_eq_getElem hk)
      simp only [decide_eq_true_eq]
      omega
    · rw [List.filter_cons_of_neg (by simp; omega), ih hes (by omega),
        show S - p = (S - (p + 1)) + 1 by omega, List.drop_succ_cons]

/-- **Recovery of an intact WAL.** The entries behind the snapshot come back, no catch-up is asked for,
and the rewritten WAL holds exactly these entries. -/
theorem recover_encode (h : ConsecutiveFrom p es) (hS : p ≤ S) :
    WalStore.recover (WalStore.encode es) S =
      ({ entries := es.drop (S - p) }, WalStore.encode (es.drop (S - p))) := by
  unfold WalStore.recover
  simp only [readWalFromDisk_encode h, filter_after_snapshot h hS]
  rcases hd : es.drop (S - p) with _ | ⟨e, rest⟩
  · rfl
  · have hle : S - p ≤ es.length := by
      by_contra hcon
      rw [List.drop_of_length_le (by omega)] at hd
      cases hd
    have hidx : e.index = S + 1 := by
      have hcons := h.drop hle
      rw [hd, show p + (S - p) = S by omega] at hcons
      exact (ConsecutiveFrom.cons_iff.mp hcons).1
    simp [hidx]

/-! ## Rebuilding the core -/

/-- The log a fresh core holds after `RecoverCall`: the snapshot's position and the WAL's entries. -/
theorem adoptRecovered_raftLog (selfId : ReplicaID) (members : List PeerMember) (limits : Nat → Nat)
    {r : PersistEngine.RecoverResult} {d : SnapshotData} (hd : r.snapshot = some d) :
    ((RaftCore.create selfId members limits).adoptRecovered r).raftLog =
      { logEntries := r.walEntries
        requestIndex := rebuildRequestIndex r.walEntries
        snapshotIndex := d.header.applyIndex
        snapshotTerm := d.header.applyTerm } := by
  unfold RaftCore.adoptRecovered
  simp only [hd]
  split <;>
  · simp only [RaftCore.enterRecovering, RaftCore.updateLogEntries, RaftCore.updateRaftMeta,
      RaftCore.installSnapshotIntoLog, RaftCore.finishRecovering, RaftCore.create]
    rfl

/-- A restart over a published snapshot and an intact WAL. -/
theorem recoverCall_intact (selfId : ReplicaID) (members : List PeerMember) (limits : Nat → Nat)
    {p : PersistEngine} {d : SnapshotData} {sm : KvStateMachine} {start : Nat} (hd : p.snapshot = some d)
    (hsm : KvStateMachine.restore d = .ok sm) (hwal : p.wal = WalStore.encode es)
    (hes : ConsecutiveFrom start es) (hstart : start ≤ d.header.applyIndex) :
    ∃ r, recoverCall (RaftCore.create selfId members limits) p = .ok r ∧
      r.core.raftLog =
        { logEntries := es.drop (d.header.applyIndex - start)
          requestIndex := rebuildRequestIndex (es.drop (d.header.applyIndex - start))
          snapshotIndex := d.header.applyIndex
          snapshotTerm := d.header.applyTerm } := by
  have hrec : (p.recover).1 =
      { snapshot := some d, raftMeta := p.raftMeta,
        walEntries := es.drop (d.header.applyIndex - start) } := by
    simp only [PersistEngine.recover, hd, hwal, recover_encode hes hstart]
  refine ⟨⟨(RaftCore.create selfId members limits).adoptRecovered p.recover.1, sm, p.recover.2⟩,
    ?_, ?_⟩
  · simp only [recoverCall, hrec, hsm]
  · rw [adoptRecovered_raftLog selfId members limits (d := d) (by rw [hrec]), hrec]

/-! ## The install and the crash -/

/-- The terms of `es` never decrease, starting from `t`. -/
def TermsFrom (t : Nat) (es : List LogEntry) : Prop :=
  (t :: es.map LogEntry.term).Pairwise (· ≤ ·)

/-- Where the process dies between publishing the received snapshot and finishing the WAL rewrite: the
rename of the rewritten WAL has not happened, or it has. -/
inductive InstallCrashPoint where
  | beforeWalRename
  | afterWalRename
deriving DecidableEq

/-- The files a crash leaves behind. -/
def filesAtCrash (s : ReplicaState) (received : SnapshotData) : InstallCrashPoint → PersistEngine
  | .beforeWalRename => { s.persist with snapshot := some received }
  | .afterWalRename => (s.finishInstallSnapshot received).2.persist

/-- `prepare_install_snapshot` answered OK and did not find the snapshot already covered. -/
def LetsThrough (s : ReplicaState) (param : InstallSnapshotParam) : Prop :=
  (s.prepareInstallSnapshot param).1.fail = false ∧
    (s.prepareInstallSnapshot param).2.1 < param.snapshotIndex

/-- A follower with an intact WAL and a restorable snapshot of the announced index and term. -/
structure InstallSetting (s : ReplicaState) (param : InstallSnapshotParam) (received : SnapshotData) :
    Prop where
  consecutive : s.core.raftLog.Consecutive
  terms : TermsFrom s.core.raftLog.snapshotTerm s.core.raftLog.logEntries
  snapshot_le : s.core.raftLog.snapshotIndex ≤ s.core.raftApply.commitIndex
  wal_eq : s.persist.wal = WalStore.encode s.core.raftLog.logEntries
  index_eq : received.header.applyIndex = param.snapshotIndex
  term_eq : received.header.applyTerm = param.snapshotTerm
  restorable : ∃ sm, KvStateMachine.restore received = .ok sm

/-- Effects without WAL work touch only the hard state. -/
theorem persistEffects_of_no_wal {p : PersistEngine} {e : RaftEffects}
    (happ : e.entriesToAppend = []) (hrew : e.entriesToRewrite = none) :
    (p.persistEffects e).1 = .OK ∧ (p.persistEffects e).2.wal = p.wal := by
  simp only [PersistEngine.persistEffects, happ, hrew]
  rcases e.hardState with _ | m <;> simp [WalStore.encode]

/-- Preparing leaves the log and the WAL alone, and a snapshot that is let through lies above the commit
index. -/
theorem letsThrough_frame {s : ReplicaState} {param : InstallSnapshotParam}
    (h : LetsThrough s param) :
    (s.prepareInstallSnapshot param).2.2.core.raftLog = s.core.raftLog ∧
    (s.prepareInstallSnapshot param).2.2.persist.wal = s.persist.wal ∧
    s.core.raftApply.commitIndex < param.snapshotIndex := by
  obtain ⟨hok, hw⟩ := h
  set cs := CoreState.prepareInstallSnapshot { core := s.core } param with hcs
  have hcore : cs.1.fail = false := by
    by_contra hf
    simp only [ReplicaState.prepareInstallSnapshot, ReplicaState.execute, ← hcs] at hok
    split at hok
    · next hp => rw [hp] at hok; cases hok
    · rw [if_pos (by simpa using hf)] at hok
      exact hf hok
  obtain ⟨hstate, -, -, hcommit⟩ := CoreState.prepareInstallSnapshot_ok hcore
  rw [← hcs] at hstate hcommit
  obtain ⟨happ, hrew⟩ := CoreState.followLeader_effects { core := s.core } param.term
  obtain ⟨hp1, hp2⟩ := persistEffects_of_no_wal (p := s.persist) (e := cs.2.2.effects)
    (by rw [hstate, happ]) (by rw [hstate, hrew])
  have hexec : (s.prepareInstallSnapshot param).2.2 =
      { s with core := cs.2.2.core, persist := (s.persist.persistEffects cs.2.2.effects).2 } := by
    simp [ReplicaState.prepareInstallSnapshot, ReplicaState.execute, ← hcs, hp1, hcore]
  refine ⟨?_, ?_, (hcommit hw).1⟩
  · rw [hexec, hstate]
    exact CoreState.followLeader_raftLog _ _
  · rw [hexec, hp2]

/-- The log and the WAL of the uninterrupted install. -/
theorem finishInstallSnapshot_eq {s : ReplicaState} {received : SnapshotData}
    (h : ∃ sm, KvStateMachine.restore received = .ok sm) :
    (s.finishInstallSnapshot received).2.core.raftLog =
      s.core.raftLog.installSnapshot received.header.applyIndex received.header.applyTerm ∧
    (s.finishInstallSnapshot received).2.persist.wal = WalStore.encode
      (s.core.raftLog.retainedEntriesAfterSnapshot received.header.applyIndex
        received.header.applyTerm) ∧
    (s.finishInstallSnapshot received).2.persist.snapshot = some received := by
  obtain ⟨sm, hsm⟩ := h
  simp only [ReplicaState.finishInstallSnapshot, hsm, ReplicaState.execute,
    CoreState.installSnapshot, PersistEngine.persistEffects]
  refine ⟨by simp, ?_, by simp⟩
  simp [WalStore.encode, RaftLog.installSnapshot]

/-- The suffix behind an entry of term `t` has terms from `t` on. -/
theorem TermsFrom.drop {l : RaftLog} (hl : l.Consecutive) (h : TermsFrom l.snapshotTerm l.logEntries)
    {t : Nat} (hS : l.snapshotIndex < S) (hlast : S ≤ l.lastLogIndex) (ht : l.termAt S = t) :
    TermsFrom t (l.logEntries.drop (S - l.snapshotIndex)) := by
  have hlen := lastLogIndex_eq hl
  have hidx : S - l.snapshotIndex - 1 < l.logEntries.length := by omega
  have hentry : l.entryAt S = some l.logEntries[S - l.snapshotIndex - 1] := by
    rw [entryAt, if_neg (by omega)]
    exact List.getElem?_eq_getElem hidx
  have hsuffix : l.logEntries.drop (S - l.snapshotIndex - 1) =
      l.logEntries[S - l.snapshotIndex - 1] :: l.logEntries.drop (S - l.snapshotIndex) := by
    rw [List.drop_eq_getElem_cons hidx, show S - l.snapshotIndex - 1 + 1 = S - l.snapshotIndex by omega]
  have hsub : (t :: (l.logEntries.drop (S - l.snapshotIndex)).map LogEntry.term).Sublist
      (l.snapshotTerm :: l.logEntries.map LogEntry.term) := by
    rw [← ht, termAt_of_entryAt hentry, ← List.map_cons, ← hsuffix]
    exact List.Sublist.cons _ ((List.drop_sublist _ _).map _)
  exact List.Pairwise.sublist hsub h

/-- When the old suffix is what the uninterrupted install keeps. -/
theorem retained_eq_drop_iff {l : RaftLog} (hl : l.Consecutive) {t : Nat} (hS : l.snapshotIndex ≤ S) :
    l.logEntries.drop (S - l.snapshotIndex) = l.retainedEntriesAfterSnapshot S t ↔
      l.lastLogIndex ≤ S ∨ l.termAt S = t := by
  have hlen := lastLogIndex_eq hl
  unfold retainedEntriesAfterSnapshot
  by_cases hlast : l.lastLogIndex ≤ S
  · rw [if_pos hlast]
    exact iff_of_true (List.drop_of_length_le (by omega)) (Or.inl hlast)
  rw [if_neg hlast]
  by_cases hterm : l.termAt S = t
  · rw [if_neg (by simpa using hterm), if_neg (by omega)]
    exact iff_of_true rfl (Or.inr hterm)
  · rw [if_pos hterm]
    refine iff_of_false ?_ ?_
    · rw [List.drop_eq_nil_iff]; omega
    · rintro (h | h)
      · exact hlast h
      · exact hterm h

/-- **A crash during a snapshot install.** Whatever the crash point, the restart succeeds. The rebuilt
log, snapshot index and snapshot term are those of the uninterrupted install, with terms that never
decrease from the snapshot's on, if and only if the rewritten WAL was already in place, or the old log
did not reach past the snapshot, or its term there was the snapshot's. -/
theorem install_crash_recovers {s : ReplicaState} {param : InstallSnapshotParam}
    {received : SnapshotData} (hset : InstallSetting s param received) (hthrough : LetsThrough s param)
    (point : InstallCrashPoint) (selfId : ReplicaID) (members : List PeerMember)
    (limits : Nat → Nat) :
    let prepared := (s.prepareInstallSnapshot param).2.2
    ∃ r, recoverCall (RaftCore.create selfId members limits)
        (filesAtCrash prepared received point) = .ok r ∧
      ((r.core.raftLog = (prepared.finishInstallSnapshot received).2.core.raftLog ∧
          TermsFrom param.snapshotTerm r.core.raftLog.logEntries) ↔
        point = .afterWalRename ∨ s.core.raftLog.lastLogIndex ≤ param.snapshotIndex ∨
          s.core.raftLog.termAt param.snapshotIndex = param.snapshotTerm) := by
  intro prepared
  obtain ⟨hlog, hwal, hcommit⟩ := letsThrough_frame hthrough
  obtain ⟨hfin, hfinWal, hfinSnap⟩ := finishInstallSnapshot_eq (s := prepared) hset.restorable
  obtain ⟨sm, hsm⟩ := hset.restorable
  have hsnap := hset.snapshot_le
  have hlen := lastLogIndex_eq hset.consecutive
  rw [hlog, hset.index_eq, hset.term_eq] at hfin hfinWal
  set l := s.core.raftLog with hldef
  set S := param.snapshotIndex with hSdef
  set t := param.snapshotTerm with htdef
  have hcons : l.Consecutive := hset.consecutive
  have hterms : TermsFrom l.snapshotTerm l.logEntries := hset.terms
  -- the entries the uninterrupted install keeps are numbered and ordered from the snapshot on
  have hkept : ConsecutiveFrom S (l.retainedEntriesAfterSnapshot S t) ∧
      TermsFrom t (l.retainedEntriesAfterSnapshot S t) := by
    by_cases hc : l.lastLogIndex ≤ S
    · rw [retainedEntriesAfterSnapshot, if_pos hc]
      exact ⟨ConsecutiveFrom.nil _, by simp [TermsFrom]⟩
    by_cases ht : l.termAt S = t
    · rw [← (retained_eq_drop_iff hcons (by omega)).mpr (Or.inr ht)]
      refine ⟨?_, TermsFrom.drop hcons hterms (by omega) (by omega) ht⟩
      have := hcons.drop (n := S - l.snapshotIndex) (by omega)
      rwa [show l.snapshotIndex + (S - l.snapshotIndex) = S by omega] at this
    · rw [retainedEntriesAfterSnapshot, if_neg hc, if_pos ht]
      exact ⟨ConsecutiveFrom.nil _, by simp [TermsFrom]⟩
  have hinstalled : l.installSnapshot S t =
      { logEntries := l.retainedEntriesAfterSnapshot S t
        requestIndex := rebuildRequestIndex (l.retainedEntriesAfterSnapshot S t)
        snapshotIndex := S, snapshotTerm := t } := rfl
  cases point with
  | beforeWalRename =>
    -- the old WAL behind the new snapshot: everything after `S` comes back
    obtain ⟨r, hr, hrlog⟩ := recoverCall_intact selfId members limits
      (p := filesAtCrash prepared received .beforeWalRename) (d := received) rfl hsm
      (hwal.trans hset.wal_eq) hcons (by rw [hset.index_eq]; omega)
    refine ⟨r, hr, ?_⟩
    rw [hrlog, hfin, hinstalled, hset.index_eq, hset.term_eq, RaftLog.mk.injEq]
    rw [← retained_eq_drop_iff hcons (by omega)]
    constructor
    · rintro ⟨⟨heq, -⟩, -⟩
      exact Or.inr heq
    · rintro (h | heq)
      · cases h
      · rw [heq]
        exact ⟨⟨rfl, rfl, rfl, rfl⟩, hkept.2⟩
  | afterWalRename =>
    obtain ⟨r, hr, hrlog⟩ := recoverCall_intact selfId members limits
      (p := filesAtCrash prepared received .afterWalRename) (d := received) hfinSnap hsm
      hfinWal hkept.1 (by rw [hset.index_eq])
    refine ⟨r, hr, ?_⟩
    rw [hset.index_eq, hset.term_eq, Nat.sub_self, List.drop_zero] at hrlog
    rw [hrlog, hfin, hinstalled]
    exact iff_of_true ⟨rfl, hkept.2⟩ (Or.inl rfl)

/-! ## A stale suffix that comes back -/

/-- The founding members of a group of three. -/
def threeMembers : List PeerMember :=
  [{ replicaId := ⟨1, 0, 1⟩ }, { replicaId := ⟨1, 0, 2⟩ }, { replicaId := ⟨1, 0, 3⟩ }]

/-- A follower whose entries 1 to 3 were written by a deposed leader of term 1. -/
def staleFollower : ReplicaState :=
  let es : List LogEntry :=
    [{ term := 1, index := 1 }, { term := 1, index := 2 }, { term := 1, index := 3 }]
  { core :=
      { selfId := ⟨1, 0, 2⟩
        election := { selfId := ⟨1, 0, 2⟩, currentTerm := 2 }
        raftLog := { logEntries := es }
        membership := RaftMembership.resetVoters threeMembers }
    persist := { raftMeta := { currentTerm := 2 }, wal := WalStore.encode es } }

/-- The leader of term 2 announces its snapshot at index 2, whose last entry is of term 2. -/
def termTwoSnapshotParam : InstallSnapshotParam :=
  { fromReplicaId := ⟨1, 0, 1⟩, toReplicaId := ⟨1, 0, 2⟩, term := 2, snapshotIndex := 2,
    snapshotTerm := 2, done := true }

def termTwoSnapshot : SnapshotData := { header := { applyIndex := 2, applyTerm := 2 } }

theorem staleFollower_setting : InstallSetting staleFollower termTwoSnapshotParam termTwoSnapshot := by
  refine ⟨?_, ?_, by decide, rfl, rfl, rfl, ⟨_, rfl⟩⟩
  swap
  · simp [TermsFrom, staleFollower]
  exact ConsecutiveFrom.cons_iff.mpr ⟨rfl, ConsecutiveFrom.cons_iff.mpr ⟨rfl,
    ConsecutiveFrom.cons_iff.mpr ⟨rfl, ConsecutiveFrom.nil _⟩⟩⟩

theorem staleFollower_letsThrough : LetsThrough staleFollower termTwoSnapshotParam := by
  constructor <;> decide

/-- With the rewritten WAL in place the restart rebuilds the installed log. -/
theorem stale_follower_recovers_after_rename :
    ∃ r, recoverCall (RaftCore.create ⟨1, 0, 2⟩ threeMembers fun _ => 15)
        (filesAtCrash (staleFollower.prepareInstallSnapshot termTwoSnapshotParam).2.2 termTwoSnapshot
          .afterWalRename) = .ok r ∧
      ((r.core.raftLog = ((staleFollower.prepareInstallSnapshot
            termTwoSnapshotParam).2.2.finishInstallSnapshot termTwoSnapshot).2.core.raftLog ∧
          TermsFrom 2 r.core.raftLog.logEntries) ↔
        InstallCrashPoint.afterWalRename = .afterWalRename ∨
          staleFollower.core.raftLog.lastLogIndex ≤ 2 ∨
          staleFollower.core.raftLog.termAt 2 = 2) :=
  install_crash_recovers staleFollower_setting staleFollower_letsThrough .afterWalRename ⟨1, 0, 2⟩
    threeMembers fun _ => 15

/-- Before the rename it does not: the uninterrupted install drops entry 3 of term 1, the restart keeps
it behind a snapshot of term 2. -/
theorem stale_suffix_comes_back :
    InstallSetting staleFollower termTwoSnapshotParam termTwoSnapshot ∧
    LetsThrough staleFollower termTwoSnapshotParam ∧
    ((staleFollower.prepareInstallSnapshot termTwoSnapshotParam).2.2.finishInstallSnapshot
      termTwoSnapshot).2.core.raftLog.logEntries = [] ∧
    (recoverCall (RaftCore.create ⟨1, 0, 2⟩ threeMembers fun _ => 15)
      (filesAtCrash (staleFollower.prepareInstallSnapshot termTwoSnapshotParam).2.2 termTwoSnapshot
        .beforeWalRename)).toOption.map (fun r =>
          (r.core.raftLog.logEntries, r.core.raftLog.snapshotTerm, r.core.raftLog.lastLogTerm)) =
      some ([{ term := 1, index := 3 }], 2, 1) :=
  ⟨staleFollower_setting, staleFollower_letsThrough, by decide, by decide⟩

end AdvisKV
