import AdvisKV.Group.Replication
import AdvisKV.Snapshot.Publish

/-!
# AdvisKV — safety of a fixed group

What clients and operators of a group may rely on, over every orderly run: what is committed stays and is
the same everywhere, a leader has it, logs that share an entry share all before it, replicas that have
applied the same number of entries hold the same data, and a snapshot file is the data of its index,
whoever has written it.
-/

namespace AdvisKV

open Replicated (lastTerm)

namespace RaftLog.Represents

variable {l l' : RaftLog} {ℓ ℓ' : List LogEntry} {n i : ℕ} {e e' : LogEntry}

/-- A stored entry, in the whole log. -/
theorem getElem? (h : l.Represents ℓ) (he : l.entryAt i = some e) : l.snapshotIndex < i ∧ ℓ[i - 1]? = some e := by
  have hbehind : l.snapshotIndex < i := by
    by_contra hle
    rw [RaftLog.entryAt, if_pos (by omega)] at he
    cases he
  exact ⟨hbehind, (h.entryAt hbehind).symm.trans he⟩

/-- Entries stored at a position of a part that two logs share. -/
theorem entry_eq (h : l.Represents ℓ) (h' : l'.Represents ℓ') (hshare : ℓ.take n = ℓ'.take n) (hi : i ≤ n)
    (he : l.entryAt i = some e) (he' : l'.entryAt i = some e') : e = e' := by
  obtain ⟨hpos, hat⟩ := h.getElem? he
  obtain ⟨-, hat'⟩ := h'.getElem? he'
  rw [← List.getElem?_take_of_lt (show i - 1 < n by omega)] at hat hat'
  rw [hshare] at hat
  exact Option.some.inj (hat.symm.trans hat')

/-- A stored entry of a log that another log continues. -/
theorem entryAt_of_leads (h : l.Represents ℓ) (h' : l'.Represents ℓ') (hpre : ℓ.take n <+: ℓ')
    (he : l.entryAt i = some e) (hi : i ≤ n) :
    i ≤ l'.lastLogIndex ∧ (l'.snapshotIndex < i → l'.entryAt i = some e) := by
  obtain ⟨hpos, hat⟩ := h.getElem? he
  have hin : ℓ'[i - 1]? = some e := by
    refine hpre.getElem?_some ?_
    rwa [List.getElem?_take_of_lt (by omega)]
  obtain ⟨hlt, -⟩ := List.getElem?_eq_some_iff.mp hin
  refine ⟨?_, fun hbehind => (h'.entryAt hbehind).trans hin⟩
  rw [h'.lastLogIndex]
  omega

end RaftLog.Represents

/-! ## Complete files -/

/-- A done event waits until the worker is not rewriting the candidate the event names. -/
def GroupState.settled (s : GroupState) : GroupAction → Bool
  | .snapshotDone id => (s.process id).loop?.all ReplicaLoop.settled
  | _ => true

/-- The orderly runs in which every published file is complete. -/
abbrev Group.Settled (g : Group) : GroupState → GroupState → Prop :=
  Machine.GuardedRun (GroupState.step g) fun s a => (s.orderly a && s.settled a) = true

theorem Group.Settled.orderly {g : Group} {s s' : GroupState} (h : g.Settled s s') : g.Orderly s s' :=
  h.mono fun _ _ hguard => (Bool.and_eq_true _ _ ▸ hguard).1

/-! ## A run -/

/-- Three voters that take a snapshot after every other entry. -/
def swiftTrio : Group := { trio with snapshotLimit := 2 }

def firstPut : WriteProposal := { op := .put, key := [1], value := [2], requestId := [7] }

def secondPut : WriteProposal := { op := .put, key := [1], value := [3], requestId := [8] }

/-- Replica 1 is elected by replica 2, and they commit a no-op and a write. -/
def firstWrite : List GroupAction :=
  [.boot ⟨1, 0, 1⟩ fun _ => 1, .boot ⟨1, 0, 2⟩ fun _ => 1, .tick ⟨1, 0, 1⟩, .deliver 0, .deliver 2,
    .deliver 3, .deliver 5, .deliver 6, .deliver 8, .propose ⟨1, 0, 1⟩ [.write firstPut], .deliver 9,
    .deliver 11]

/-- Replica 1 takes a snapshot, and with a second write replica 2 learns what is committed. -/
def thenSnapshot : List GroupAction :=
  [.workerPost ⟨1, 0, 1⟩, .snapshotDone ⟨1, 0, 1⟩, .propose ⟨1, 0, 1⟩ [.write secondPut], .deliver 12]

/-- Replica 2 is elected by replica 3. -/
def thenElection : List GroupAction :=
  [.boot ⟨1, 0, 3⟩ fun _ => 1, .deliver 7, .tick ⟨1, 0, 3⟩, .tick ⟨1, 0, 2⟩, .deliver 19, .deliver 20,
    .deliver 22, .deliver 23]

def afterWrite : GroupState :=
  (Machine.runGuarded (GroupState.step swiftTrio) (fun s a => s.orderly a && s.settled a) firstWrite {}).getD {}

def afterSnapshot : GroupState :=
  (Machine.runGuarded (GroupState.step swiftTrio) (fun s a => s.orderly a && s.settled a) thenSnapshot
    afterWrite).getD {}

def afterElection : GroupState :=
  (Machine.runGuarded (GroupState.step swiftTrio) GroupState.orderly thenElection afterSnapshot).getD {}

theorem swiftTrio_distinct : swiftTrio.Distinct := by
  unfold Group.Distinct
  decide

theorem afterWrite_settled : swiftTrio.Settled {} afterWrite := by
  have hrun : Machine.runGuarded (GroupState.step swiftTrio) (fun s a => s.orderly a && s.settled a)
    firstWrite {} = some afterWrite := rfl
  exact .of_runGuarded hrun

theorem afterSnapshot_settled : swiftTrio.Settled afterWrite afterSnapshot := by
  have hrun : Machine.runGuarded (GroupState.step swiftTrio) (fun s a => s.orderly a && s.settled a)
    thenSnapshot afterWrite = some afterSnapshot := rfl
  exact .of_runGuarded hrun

theorem afterWrite_run : swiftTrio.Orderly {} afterWrite := afterWrite_settled.orderly

theorem afterSnapshot_run : swiftTrio.Orderly afterWrite afterSnapshot := afterSnapshot_settled.orderly

theorem afterElection_run : swiftTrio.Orderly afterSnapshot afterElection := by
  have hrun : Machine.runGuarded (GroupState.step swiftTrio) GroupState.orderly thenElection afterSnapshot =
    some afterElection := rfl
  exact .of_runGuarded hrun

section

variable (g : Group) {s s' : GroupState} {id id' : ReplicaID} {l l' : ReplicaLoop}

/-- Two replicas of a run, and the replicated logs they stand in. -/
theorem Group.Orderly.replicas {g : Group} (hdistinct : g.Distinct) (hrun : g.Orderly {} s)
    (hlater : g.Orderly s s') (hl : s.process id = .running l) (hl' : s'.process id' = .running l') :
    ∃ R R', l.state.Mirrors g R id ∧ l'.state.Mirrors g R' id' ∧ Replicated.Grows R R' := by
  obtain ⟨R, R', hmirrors, hmirrors', hgrows⟩ := hrun.charted hdistinct hlater
  exact ⟨R, R', (hmirrors.running hl).state, (hmirrors'.running hl').state, hgrows⟩

/-- **State machine safety.** -/
theorem committed_entries_agree (hdistinct : g.Distinct) (hrun : g.Orderly {} s) (hlater : g.Orderly s s')
    (hl : s.process id = .running l) (hl' : s'.process id' = .running l') {i : Nat} {e e' : LogEntry}
    (hcommitted : i ≤ l.state.core.raftApply.commitIndex)
    (hcommitted' : i ≤ l'.state.core.raftApply.commitIndex)
    (he : l.state.core.raftLog.entryAt i = some e) (he' : l'.state.core.raftLog.entryAt i = some e') :
    e = e' := by
  obtain ⟨R, R', ⟨hcore, -, -⟩, ⟨hcore', -, -⟩, hgrows⟩ := hrun.replicas hdistinct hlater hl hl'
  exact hcore.log.entry_eq hcore'.log (hcore.take_agree hcore'.toKeeps hgrows hcommitted hcommitted').symm
    le_rfl he he'

/-- The first write, at its leader and later at a follower. -/
theorem firstPut_agrees : ∃ l l' e e', afterWrite.process ⟨1, 0, 1⟩ = .running l ∧
    afterSnapshot.process ⟨1, 0, 2⟩ = .running l' ∧ l.state.core.raftLog.entryAt 2 = some e ∧
    l'.state.core.raftLog.entryAt 2 = some e' ∧ e = e' := by
  refine ⟨_, _, _, _, rfl, rfl, rfl, rfl, ?_⟩
  exact @committed_entries_agree swiftTrio _ _ ⟨1, 0, 1⟩ ⟨1, 0, 2⟩ _ _ swiftTrio_distinct afterWrite_run
    afterSnapshot_run rfl rfl 2 _ _ le_rfl le_rfl rfl rfl

/-- **Leader completeness.** -/
theorem leader_holds_committed (hdistinct : g.Distinct) (hrun : g.Orderly {} s) (hlater : g.Orderly s s')
    (hl : s.process id = .running l) (hl' : s'.process id' = .running l')
    (hrole : l'.state.core.election.role = .leader)
    (hterm : l.state.core.election.currentTerm ≤ l'.state.core.election.currentTerm) {i : Nat}
    {e : LogEntry} (hcommitted : i ≤ l.state.core.raftApply.commitIndex)
    (he : l.state.core.raftLog.entryAt i = some e) :
    i ≤ l'.state.core.raftLog.lastLogIndex ∧
      (l'.state.core.raftLog.snapshotIndex < i → l'.state.core.raftLog.entryAt i = some e) := by
  obtain ⟨R, R', ⟨hcore, -, -⟩, ⟨hcore', -, -⟩, hgrows⟩ := hrun.replicas hdistinct hlater hl hl'
  have hchosen := (hcore.chosen.mono hgrows hterm).prefix_leadLog hcore'.charts.sound
    (led_of_eq (hcore'.lead_eq hrole))
  rw [hcore'.leadLog_eq hrole] at hchosen
  exact hcore.log.entryAt_of_leads hcore'.log hchosen he hcommitted

/-- Replica 2, elected in term 2, holds the write that replica 1 has committed in term 1. -/
theorem firstPut_held : ∃ l l' e, afterWrite.process ⟨1, 0, 1⟩ = .running l ∧
    afterElection.process ⟨1, 0, 2⟩ = .running l' ∧ l.state.core.raftLog.entryAt 2 = some e ∧
    2 ≤ l'.state.core.raftLog.lastLogIndex ∧
      (l'.state.core.raftLog.snapshotIndex < 2 → l'.state.core.raftLog.entryAt 2 = some e) := by
  refine ⟨_, _, _, rfl, rfl, rfl, ?_⟩
  exact @leader_holds_committed swiftTrio _ _ ⟨1, 0, 1⟩ ⟨1, 0, 2⟩ _ _ swiftTrio_distinct afterWrite_run
    (afterSnapshot_run.trans afterElection_run) rfl rfl rfl (Nat.le_succ 1) 2 _ le_rfl rfl

/-- **Leaders only append.** Nobody else leads the term later on. -/
theorem leader_appends_only (hdistinct : g.Distinct) (hrun : g.Orderly {} s) (hlater : g.Orderly s s')
    (hl : s.process id = .running l) (hl' : s'.process id' = .running l')
    (hrole : l.state.core.election.role = .leader) (hrole' : l'.state.core.election.role = .leader)
    (hterm : l'.state.core.election.currentTerm = l.state.core.election.currentTerm) :
    id' = id ∧ ∀ {i e}, l.state.core.raftLog.entryAt i = some e →
      i ≤ l'.state.core.raftLog.lastLogIndex ∧
        (l'.state.core.raftLog.snapshotIndex < i → l'.state.core.raftLog.entryAt i = some e) := by
  obtain ⟨R, R', ⟨hcore, -, -⟩, ⟨hcore', -, -⟩, hgrows⟩ := hrun.replicas hdistinct hlater hl hl'
  have hlead := hcore.lead_eq hrole
  have hlead' := hcore'.lead_eq hrole'
  have hgrown := hgrows.leadLog (led_of_eq hlead)
  have hleadLog' := hcore'.leadLog_eq hrole'
  rw [hterm] at hlead' hleadLog'
  rw [hcore.leadLog_eq hrole, hleadLog'] at hgrown
  refine ⟨Option.some.inj (hlead'.symm.trans (hgrows.lead hlead)), fun {i e} he => ?_⟩
  exact hcore.log.entryAt_of_leads hcore'.log ((List.take_prefix i _).trans hgrown) he le_rfl

/-- Replica 1 before and after its snapshot. -/
theorem firstPut_kept : ∃ l l', afterWrite.process ⟨1, 0, 1⟩ = .running l ∧
    afterSnapshot.process ⟨1, 0, 1⟩ = .running l' ∧
    ∀ {i e}, l.state.core.raftLog.entryAt i = some e → i ≤ l'.state.core.raftLog.lastLogIndex ∧
      (l'.state.core.raftLog.snapshotIndex < i → l'.state.core.raftLog.entryAt i = some e) := by
  refine ⟨_, _, rfl, rfl, ?_⟩
  exact (@leader_appends_only swiftTrio _ _ ⟨1, 0, 1⟩ ⟨1, 0, 1⟩ _ _ swiftTrio_distinct afterWrite_run
    afterSnapshot_run rfl rfl rfl rfl rfl).2

/-- **Log matching.** -/
theorem logs_match (hdistinct : g.Distinct) (hrun : g.Orderly {} s) (hlater : g.Orderly s s')
    (hl : s.process id = .running l) (hl' : s'.process id' = .running l') {i : Nat} {e e' : LogEntry}
    (he : l.state.core.raftLog.entryAt i = some e) (he' : l'.state.core.raftLog.entryAt i = some e')
    (hterm : e.term = e'.term) :
    e = e' ∧
    (∀ {j x x'}, j ≤ i → l.state.core.raftLog.entryAt j = some x →
      l'.state.core.raftLog.entryAt j = some x' → x = x') ∧
    (l'.state.core.raftLog.snapshotIndex ≤ l.state.core.raftLog.snapshotIndex →
      l'.state.core.raftLog.termAt l.state.core.raftLog.snapshotIndex =
        l.state.core.raftLog.snapshotTerm) ∧
    (l.state.core.raftLog.snapshotIndex ≤ l'.state.core.raftLog.snapshotIndex →
      l.state.core.raftLog.termAt l'.state.core.raftLog.snapshotIndex =
        l'.state.core.raftLog.snapshotTerm) := by
  obtain ⟨R, R', ⟨hcore, -, -⟩, ⟨hcore', -, -⟩, hgrows⟩ := hrun.replicas hdistinct hlater hl hl'
  have hlog := hcore.log
  have hlog' := hcore'.log
  obtain ⟨hlow, hat⟩ := hlog.getElem? he
  obtain ⟨hlow', hat'⟩ := hlog'.getElem? he'
  obtain ⟨hin, -⟩ := List.getElem?_eq_some_iff.mp hat
  obtain ⟨hin', -⟩ := List.getElem?_eq_some_iff.mp hat'
  -- the two logs share everything up to the entry
  have hshare : (R.log id).take i = (R'.log id').take i := by
    have htake := ((hcore.charts.sound.traced id).mono hgrows).take_eq
      (hcore'.charts.sound.traced id') hat hat' hterm
    rwa [Nat.sub_add_cancel (by omega)] at htake
  have hcut : ∀ {n}, n ≤ i → (R.log id).take n = (R'.log id').take n := by
    intro n hn
    have hboth := congrArg (List.take n) hshare
    rwa [List.take_take, List.take_take, Nat.min_eq_left hn] at hboth
  refine ⟨hlog.entry_eq hlog' hshare le_rfl he he', fun hj => hlog.entry_eq hlog' hshare hj, fun hle => ?_,
    fun hle => ?_⟩
  · rw [hlog'.termAt hle (by omega), ← hcut (by omega), hlog.term]
  · rw [hlog.termAt hle (by omega), hcut (by omega), hlog'.term]

/-- The logs of replicas 1 and 2 up to the first write. -/
theorem firstPut_matches : ∃ l l' x x', afterWrite.process ⟨1, 0, 1⟩ = .running l ∧
    afterElection.process ⟨1, 0, 2⟩ = .running l' ∧ l.state.core.raftLog.entryAt 1 = some x ∧
    l'.state.core.raftLog.entryAt 1 = some x' ∧ x = x' := by
  refine ⟨_, _, _, _, rfl, rfl, rfl, rfl, ?_⟩
  exact (@logs_match swiftTrio _ _ ⟨1, 0, 1⟩ ⟨1, 0, 2⟩ _ _ swiftTrio_distinct afterWrite_run
    (afterSnapshot_run.trans afterElection_run) rfl rfl 2 _ _ rfl rfl rfl).2.1 (Nat.le_succ 1) rfl rfl

/-- **Replicas converge.** Replicas that have applied the same number of entries hold the same data. -/
theorem replicas_converge (hdistinct : g.Distinct) (hrun : g.Orderly {} s) (hlater : g.Orderly s s')
    (hl : s.process id = .running l) (hl' : s'.process id' = .running l')
    (happlied : l.state.core.raftApply.lastApplied = l'.state.core.raftApply.lastApplied) :
    l.state.stateMachine.Same l'.state.stateMachine := by
  obtain ⟨R, R', hstate, hstate', hgrows⟩ := hrun.replicas hdistinct hlater hl hl'
  have htake := hstate.core.take_agree hstate'.core.toKeeps hgrows hstate.core.applied
    (happlied ▸ hstate'.core.applied)
  have hsame := hstate.machine.same
  have hsame' := hstate'.machine.same
  rw [← htake, happlied] at hsame
  exact hsame.trans hsame'.symm

/-- Replica 1 and, later, replica 2 have applied the first write. -/
theorem firstPut_converges : ∃ l l', afterWrite.process ⟨1, 0, 1⟩ = .running l ∧
    afterSnapshot.process ⟨1, 0, 2⟩ = .running l' ∧ l.state.stateMachine.Same l'.state.stateMachine := by
  refine ⟨_, _, rfl, rfl, ?_⟩
  exact @replicas_converge swiftTrio _ _ ⟨1, 0, 1⟩ ⟨1, 0, 2⟩ _ _ swiftTrio_distinct afterWrite_run
    afterSnapshot_run rfl rfl rfl

/-- The published snapshot of a replica, running or down, is a state of the log that has been chosen. -/
theorem GroupState.Mirrors.snapshot_of {g : Group} {R : GroupLog} (h : s.Mirrors g R) {d : SnapshotData}
    (hd : (s.process id).files.snapshot = some d) :
    ∃ T ℓ, d.Of ℓ ∧ R.Chosen g.voterIds T ℓ := by
  rcases hp : s.process id with l | disk
  · rw [hp] at hd
    have hstate := (h.running hp).state
    exact ⟨_, _, hstate.published hd,
      hstate.core.chosen.take (List.take_prefix_take_left hstate.core.snapshot_le)⟩
  · rw [hp] at hd
    exact ⟨_, _, (h.down hp).published hd, (h.down hp).chosen⟩

/-- Two states of one run, in whatever order: the later replicated log has all of both. -/
theorem Group.Orderly.joined {g : Group} (hdistinct : g.Distinct) (hrun : g.Orderly {} s)
    (hrun' : g.Orderly {} s') (hone : g.Orderly s s' ∨ g.Orderly s' s) :
    ∃ R R' J : GroupLog, s.Mirrors g R ∧ s'.Mirrors g R' ∧ Replicated.Grows R J ∧
      Replicated.Grows R' J ∧ J.Sound g.voterIds := by
  rcases hone with hlater | hlater
  · obtain ⟨R, R', hmirrors, hmirrors', hgrows⟩ := hrun.charted hdistinct hlater
    exact ⟨R, R', R', hmirrors, hmirrors', hgrows, .refl R', hmirrors'.charts.sound⟩
  · obtain ⟨R', R, hmirrors', hmirrors, hgrows⟩ := hrun'.charted hdistinct hlater
    exact ⟨R, R', R, hmirrors, hmirrors', .refl R, hgrows, hmirrors.charts.sound⟩

/-- **Snapshots.** A snapshot file, of whatever replica and time, can be restored, to what any replica holds
whenever it has applied as many entries as the file covers. -/
theorem snapshot_is_state (hdistinct : g.Distinct) (hrun : g.Settled {} s) {d : SnapshotData}
    (hd : (s.process id).files.snapshot = some d) :
    ∃ sm, KvStateMachine.restore d = .ok sm ∧
      ∀ {s' id' l'}, g.Settled {} s' → (g.Settled s s' ∨ g.Settled s' s) →
        s'.process id' = .running l' → l'.state.core.raftApply.lastApplied = d.header.applyIndex →
        sm.Same l'.state.stateMachine := by
  obtain ⟨R₀, -, hmirrors₀, -, -⟩ := hrun.orderly.charted hdistinct (.refl s)
  obtain ⟨-, ℓ₀, hof₀, -⟩ := hmirrors₀.snapshot_of hd
  obtain ⟨sm, hrestore, hafter₀⟩ := hof₀.restore
  refine ⟨sm, hrestore, fun {s' id' l'} hrun' hone hl' happlied => ?_⟩
  obtain ⟨R, R', J, hmirrors, hmirrors', hgrows, hgrows', hsound⟩ :=
    hrun.orderly.joined hdistinct hrun'.orderly (hone.imp Group.Settled.orderly Group.Settled.orderly)
  obtain ⟨T, ℓ, hof, hchosen⟩ := hmirrors.snapshot_of hd
  have hstate' := (hmirrors'.running hl').state
  have hchosen' := hstate'.core.chosen.take (List.take_prefix_take_left hstate'.core.applied)
  -- the file and the replica stand for logs of one length that have both been chosen
  have hlen : ℓ.length = ((R'.log id').take l'.state.core.raftApply.lastApplied).length := by
    rw [← hof.index, ← happlied, List.length_take_of_le (hstate'.core.applied.trans hstate'.core.held)]
  have hlog := (hchosen.mono hgrows le_rfl).take_eq (hchosen'.mono hgrows' le_rfl) hsound le_rfl hlen.le
  rw [List.take_length, List.take_of_length_le hlen.ge] at hlog
  obtain ⟨sm', hrestore', hafter⟩ := hof.restore
  obtain rfl : sm = sm' := Except.ok.inj (hrestore.symm.trans hrestore')
  rw [hlog] at hafter
  exact hafter.same.trans hstate'.machine.same.symm

/-- The file of replica 1 and the data of replica 2. -/
theorem firstPut_in_snapshot : ∃ d l', (afterSnapshot.process ⟨1, 0, 1⟩).files.snapshot = some d ∧
    afterSnapshot.process ⟨1, 0, 2⟩ = .running l' ∧
    ∃ sm, KvStateMachine.restore d = .ok sm ∧ sm.Same l'.state.stateMachine := by
  have hrun := afterWrite_settled.trans afterSnapshot_settled
  obtain ⟨d, hd, hindex⟩ : ∃ d, (afterSnapshot.process ⟨1, 0, 1⟩).files.snapshot = some d ∧
    d.header.applyIndex = 2 := ⟨_, rfl, rfl⟩
  obtain ⟨l', hl', happlied⟩ : ∃ l', afterSnapshot.process ⟨1, 0, 2⟩ = .running l' ∧
    l'.state.core.raftApply.lastApplied = 2 := ⟨_, rfl, rfl⟩
  obtain ⟨sm, hrestore, hsame⟩ := snapshot_is_state swiftTrio swiftTrio_distinct hrun hd
  exact ⟨d, l', hd, hl', sm, hrestore, hsame hrun (.inl (.refl _)) hl' (happlied.trans hindex.symm)⟩

/-- Whether the process of `id` goes on. -/
def GroupAction.spares (id : ReplicaID) : GroupAction → Bool
  | .crash v => v != id
  | _ => true

/-- **Indexes.** They are in order, and a replica that is not restarted never falls back. -/
theorem indexes_ordered_and_advance (hdistinct : g.Distinct) (hrun : g.Orderly {} s)
    (hlater : Machine.GuardedRun (GroupState.step g)
      (fun s a => (s.orderly a && a.spares id) = true) s s')
    (hl : s.process id = .running l) :
    ∃ l', s'.process id = .running l' ∧
      l.state.core.raftLog.snapshotIndex ≤ l'.state.core.raftLog.snapshotIndex ∧
      l.state.core.raftApply.lastApplied ≤ l'.state.core.raftApply.lastApplied ∧
      l.state.core.raftApply.commitIndex ≤ l'.state.core.raftApply.commitIndex ∧
      l'.state.core.raftLog.snapshotIndex ≤ l'.state.core.raftApply.lastApplied ∧
      l'.state.core.raftApply.lastApplied ≤ l'.state.core.raftApply.commitIndex ∧
      l'.state.core.raftApply.commitIndex ≤ l'.state.core.raftLog.lastLogIndex := by
  have hstart : s.Charted g {} := (GroupState.Charted.initial hdistinct).run hrun
  have hstep : ∀ (s : GroupState) (a : GroupAction) (s' : GroupState), s.Charted g {} →
      (s.orderly a && a.spares id) = true → GroupState.step g a s = some s' →
      s'.Charted g {} ∧ s.Advances id s' := by
    intro s a s' hinv hguard hstep
    rw [Bool.and_eq_true] at hguard
    obtain ⟨hcharted, hadvances⟩ := hinv.step hguard.1 hstep
    refine ⟨hcharted, hadvances id ?_⟩
    rintro rfl
    exact absurd hguard.2 (by simp [GroupAction.spares])
  obtain ⟨hend, hadvances⟩ := hlater.relates (R := GroupState.Advances id) (GroupState.Advances.refl id)
    (fun _ _ _ h h' => h.trans h') hstep hstart
  obtain ⟨l', hl', hindexes⟩ := hadvances l hl
  obtain ⟨-, R, -, -, hmirrors, -⟩ := hend.since
  have hcore := (hmirrors.running hl').state.core
  refine ⟨l', hl', hindexes.snapshot, hindexes.applied, hindexes.commit, hcore.compacted, hcore.applied, ?_⟩
  rw [hcore.log.lastLogIndex]
  exact hcore.held

/-- Replica 1 from its first write to its snapshot. -/
theorem firstPut_indexes : ∃ l', afterSnapshot.process ⟨1, 0, 1⟩ = .running l' ∧
    2 ≤ l'.state.core.raftApply.lastApplied ∧
    l'.state.core.raftApply.commitIndex ≤ l'.state.core.raftLog.lastLogIndex := by
  have hrun : Machine.runGuarded (GroupState.step swiftTrio)
    (fun s a => s.orderly a && a.spares ⟨1, 0, 1⟩) thenSnapshot afterWrite = some afterSnapshot := rfl
  obtain ⟨l', hl', -, happlied, -, -, -, hlast⟩ := @indexes_ordered_and_advance swiftTrio _ _ ⟨1, 0, 1⟩ _
    swiftTrio_distinct afterWrite_run (.of_runGuarded hrun) rfl
  exact ⟨l', hl', happlied, hlast⟩

end

end AdvisKV
