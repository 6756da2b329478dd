import AdvisKV.Lib.Machine
import AdvisKV.Lib.Rounds
import AdvisKV.Raft.CommitRule
import AdvisKV.Recovery.Boot

/-!
# AdvisKV — who can time out

A replica that hears nothing from a leader has to start an election by itself, so the election timer of a
voter must run. The core stops it when it becomes leader, when it starts recovering and when it applies a
config entry that leaves it outside the group; it is reset when the core steps down, when recovery ends
and when the core stands for election. `clear`, the call of every message from a leader, does nothing to
a stopped timer.

Main results:

* `CoreEvent.step_keepsTime` — a handler leaves the timer stopped only at a leader, or where it was.
* `fires_after_ticks` — a running timer fires after finitely many ticks.
* `voter_times_out` — in every run in which no replica that was shut out is taken in again.
-/

namespace AdvisKV

/-! ## The trigger -/

/-- A tick of a running timer either fires or only counts. -/
theorem TickTrigger.tick_of_running (t : TickTrigger) (h : t.stopFlag = false) :
    t.tick.1 = true ∨ t.tick = (false, { t with curCnt := t.curCnt + 1 }) ∧ t.curCnt + 1 < t.limitCnt := by
  simp only [tick, h, isCatchUpLimit, Bool.false_eq_true, if_false]
  split
  · next hlt => exact Or.inr ⟨rfl, hlt⟩
  · exact Or.inl rfl

/-! ## What a handler does to the timer -/

namespace RaftCore

/-- The group is the same, and a timer that is stopped afterwards belongs to a leader or was stopped
before, for a reason that still stands. -/
structure KeepsTime (c c' : RaftCore) : Prop where
  selfId : c'.selfId = c.selfId
  membership : c'.membership = c.membership
  stopped : c'.electionTickTrigger.stopFlag = true → c'.election.role = .leader ∨
    c.electionTickTrigger.stopFlag = true ∧ (c.election.role = .leader → c'.election.role = .leader) ∧
      (c.recovering = true → c'.recovering = true)

variable {c c' c'' : RaftCore}

/-- Neither the timer nor the reasons for which it may stand still have changed. -/
theorem KeepsTime.of_frame (hself : c'.selfId = c.selfId) (hmembers : c'.membership = c.membership)
    (hrole : c'.election.role = c.election.role) (hrecovering : c'.recovering = c.recovering)
    (hstop : c'.electionTickTrigger.stopFlag = c.electionTickTrigger.stopFlag) : KeepsTime c c' :=
  ⟨hself, hmembers, fun h => Or.inr ⟨hstop ▸ h, fun hl => hrole.trans hl, fun hr => hrecovering.trans hr⟩⟩

theorem KeepsTime.of_running (hself : c'.selfId = c.selfId) (hmembers : c'.membership = c.membership)
    (hrun : c'.electionTickTrigger.stopFlag = false) : KeepsTime c c' :=
  ⟨hself, hmembers, fun h => absurd h (by simp [hrun])⟩

theorem KeepsTime.refl (c : RaftCore) : KeepsTime c c := .of_frame rfl rfl rfl rfl rfl

theorem KeepsTime.trans (h : KeepsTime c c') (h' : KeepsTime c' c'') : KeepsTime c c'' where
  selfId := h'.selfId.trans h.selfId
  membership := h'.membership.trans h.membership
  stopped hstop := by
    rcases h'.stopped hstop with hlead | ⟨hstop', hlead', hrecovering'⟩
    · exact Or.inl hlead
    rcases h.stopped hstop' with hlead | ⟨hstop'', hlead, hrecovering⟩
    · exact Or.inl (hlead' hlead)
    · exact Or.inr ⟨hstop'', fun hl => hlead' (hlead hl), fun hr => hrecovering' (hrecovering hr)⟩

end RaftCore

/-- **Moves.** Every one but the installation of a snapshot, which may replace the group. -/
theorem Micro.keepsTime {e : CoreEvent} {s s' : CoreState} (h : Micro e s s') (he : e.KeepsSnapshot) :
    s.core.KeepsTime s'.core := by
  cases h with
  | timers election heartbeat active running =>
    exact ⟨rfl, rfl, fun hstop => (running hstop).imp id fun hold => ⟨hold, id, id⟩⟩
  | follow term =>
    rw [CoreState.becomeFollower_core]
    exact .of_running rfl rfl (TickTrigger.reset_stopFlag _)
  | preCandidate ready voter role =>
    exact ⟨rfl, rfl, fun hstop => Or.inr ⟨hstop, fun hlead => absurd hlead role, id⟩⟩
  | candidate ready voter role =>
    exact ⟨rfl, rfl, fun hstop => Or.inr ⟨hstop, fun hlead => absurd (role.symm.trans hlead) (by decide), id⟩⟩
  | lead => exact ⟨rfl, rfl, fun _ => Or.inl rfl⟩
  | accept param log r =>
    -- a replica that is recovering starts its timer with the message that ends the recovery
    simp only [CoreState.acceptAppend, RaftCore.finishRecovering]
    split
    · exact .of_frame rfl rfl rfl rfl rfl
    · exact .of_running rfl rfl (TickTrigger.reset_stopFlag _)
  | install header event => exact absurd event (he header)
  | _ => exact .of_frame rfl rfl rfl rfl rfl

/-- **Handlers.** -/
theorem CoreEvent.step_keepsTime {e : CoreEvent} (he : e.KeepsSnapshot) (c : RaftCore) :
    c.KeepsTime (e.step { core := c }).core :=
  CoreEvent.step_induction (P := fun s => c.KeepsTime s.core)
    (fun _ _ hmove hs => hs.trans (hmove.keepsTime he)) (.refl c)

/-! ## Runs of a replica's core -/

/-- What the replica loop does with its core. -/
inductive CoreAction where
  | boot (members : List PeerMember) (limits : Nat → Nat) (disk : PersistEngine)
  | event (e : CoreEvent)
  | applyConfig (entry : LogEntry)
  | advanceApplied (index : Nat)
  | truncate (index : Nat)
  | enterRecovering
  | finishRecovering

def CoreAction.step : CoreAction → RaftCore → Option RaftCore
  | .boot members limits disk, c =>
    some ((RaftCore.create c.selfId members limits).adoptRecovered disk.recover.1)
  | .event e, c => some (e.step { core := c }).core
  | .applyConfig entry, c => some (c.applyConfigEntry entry).2
  | .advanceApplied index, c => some (c.advanceLastApplied index)
  | .truncate index, c => some (c.truncateLog index).2
  | .enterRecovering, c => some c.enterRecovering
  | .finishRecovering, c => some c.finishRecovering

/-- A replica outside its group whose timer was stopped: neither leader nor recovering. -/
def RaftCore.ShutOut (c : RaftCore) : Prop :=
  c.electionTickTrigger.stopFlag = true ∧ c.election.role ≠ .leader ∧ c.recovering = false ∧
    c.membership.memberType c.selfId = .nonMember

/-- The action gives the replica a place in the group: by a config entry, or by the members of a
snapshot. -/
def CoreAction.TakesIn (c : RaftCore) : CoreAction → Prop
  | .applyConfig entry =>
    (RaftCore.applyMembershipChange c.membership entry).2.memberType c.selfId ≠ .nonMember
  | .event (.installSnapshot header) =>
    header.members ≠ [] ∧ (RaftMembership.mk header.members).memberType c.selfId ≠ .nonMember
  | _ => False

/-- The timer of a replica is stopped for one of three reasons. -/
def RaftCore.TimerSound (c : RaftCore) : Prop :=
  c.electionTickTrigger.stopFlag = true → c.election.role = .leader ∨ c.recovering = true ∨
    c.membership.memberType c.selfId = .nonMember

namespace RaftCore

variable {c c' : RaftCore}

theorem TimerSound.of_running (h : c.electionTickTrigger.stopFlag = false) : c.TimerSound :=
  fun hstop => absurd hstop (by simp [h])

/-- A handler that keeps time keeps the timer sound. -/
theorem TimerSound.keeps (h : c.TimerSound) (hk : c.KeepsTime c') : c'.TimerSound := by
  intro hstop
  rcases hk.stopped hstop with hlead | ⟨hstop', hlead, hrecovering⟩
  · exact Or.inl hlead
  · rcases h hstop' with hl | hr | hout
    · exact Or.inl (hlead hl)
    · exact Or.inr (Or.inl (hrecovering hr))
    · exact Or.inr (Or.inr (by rw [hk.membership, hk.selfId]; exact hout))

/-- A core that has just been recovered waits for an election, or recovers. -/
theorem timerSound_boot (selfId : ReplicaID) (members : List PeerMember) (limits : Nat → Nat)
    (r : PersistEngine.RecoverResult) :
    ((create selfId members limits).adoptRecovered r).TimerSound := by
  have hcreate : (create selfId members limits).electionTickTrigger.stopFlag = false := by
    simp [create, TickTrigger.generated]
  have hinstall : ∀ header : SnapshotHeader,
      ((create selfId members limits).installSnapshotIntoLog header).electionTickTrigger.stopFlag =
        false := by
    intro header
    rw [installSnapshotIntoLog, finishRecovering_eq]
    exact hcreate
  simp only [adoptRecovered]
  split
  · exact fun _ => Or.inr (Or.inl rfl)
  · refine .of_running ?_
    split
    · next d _ => exact hinstall d.header
    · exact hcreate

/-- Applying a config entry keeps it, unless the entry takes in a replica that was shut out. -/
theorem timerSound_applyConfig {entry : LogEntry} (h : c.TimerSound)
    (hguard : c.ShutOut → ¬ (CoreAction.applyConfig entry).TakesIn c) :
    (c.applyConfigEntry entry).2.TimerSound := by
  simp only [applyConfigEntry]
  split
  · exact h
  simp only [stepDownIfBecomeNonMember]
  split
  · next hmember =>
    -- the replica is a member now, so it was not shut out before
    intro hstop
    rcases h hstop with hlead | hrecovering | hout
    · exact Or.inl hlead
    · exact Or.inr (Or.inl hrecovering)
    · by_cases hlead : c.election.role = .leader
      · exact Or.inl hlead
      by_cases hrecovering : c.recovering = true
      · exact Or.inr (Or.inl hrecovering)
      · exact absurd hmember
          (hguard ⟨hstop, hlead, Bool.eq_false_of_not_eq_true hrecovering, hout⟩)
  · next hout => exact fun _ => Or.inr (Or.inr (not_not.mp hout))

/-- An install keeps it, unless it takes in a replica that was shut out. -/
theorem timerSound_installSnapshot {header : SnapshotHeader} (h : c.TimerSound)
    (hguard : c.ShutOut → ¬ (CoreAction.event (.installSnapshot header)).TakesIn c) :
    (c.installSnapshotIntoLog header).TimerSound := by
  intro hstop
  rw [installSnapshotIntoLog, finishRecovering_eq] at hstop
  simp only at hstop
  split at hstop
  · simp at hstop
  next hready =>
  have hready : c.recovering = false := Bool.eq_false_of_not_eq_true hready
  rw [installSnapshotIntoLog_election, installSnapshotIntoLog_recovering,
    installSnapshotIntoLog_membership, installSnapshotIntoLog_selfId]
  rcases h hstop with hlead | hrecovering | hout
  · exact Or.inl hlead
  · exact absurd hrecovering (by simp [hready])
  · by_cases hlead : c.election.role = .leader
    · exact Or.inl hlead
    refine Or.inr (Or.inr ?_)
    split
    · exact hout
    · next hmembers =>
      by_contra hin
      exact hguard ⟨hstop, hlead, hready, hout⟩ ⟨hmembers, hin⟩

end RaftCore

variable {c : RaftCore}

/-- **Steps.** -/
theorem CoreAction.step_timerSound {a : CoreAction} {c' : RaftCore} (h : c.TimerSound)
    (hguard : c.ShutOut → ¬ a.TakesIn c) (hstep : a.step c = some c') : c'.TimerSound := by
  cases a with
  | boot members limits disk =>
    cases hstep
    exact RaftCore.timerSound_boot _ _ _ _
  | event e =>
    cases hstep
    -- of the handlers only the install can change the members
    by_cases he : e.KeepsSnapshot
    · exact h.keeps (CoreEvent.step_keepsTime he c)
    · obtain ⟨header, he⟩ := not_forall.mp he
      rw [not_not] at he
      subst he
      exact RaftCore.timerSound_installSnapshot h hguard
  | applyConfig entry =>
    cases hstep
    exact RaftCore.timerSound_applyConfig h hguard
  | advanceApplied index =>
    cases hstep
    exact h
  | truncate index =>
    cases hstep
    unfold RaftCore.truncateLog
    split <;> exact h
  | enterRecovering =>
    cases hstep
    exact fun _ => Or.inr (Or.inl rfl)
  | finishRecovering =>
    cases hstep
    unfold RaftCore.finishRecovering
    split
    · exact h
    · exact .of_running (TickTrigger.reset_stopFlag _)

/-! ## Timing out -/

/-- One tick of the core. -/
def RaftCore.ticked (c : RaftCore) : RaftCore := (CoreEvent.tick.step { core := c }).core

/-- The next tick starts a pre-election: the timer fires, and none of the tests of
`become_pre_candidate` stands in the way. -/
structure RaftCore.PreElects (c : RaftCore) : Prop where
  fires : c.electionTickTrigger.tick.1 = true
  ready : c.recovering = false
  voter : c.membership.isVoter c.selfId = true
  role : c.election.role ≠ .leader
  ticked : c.ticked = (CoreState.becomePreCandidate { core := { c with
    electionTickTrigger := c.electionTickTrigger.tick.2 } }).core

/-- What a voter needs to count down. -/
structure RaftCore.Waiting (c : RaftCore) : Prop where
  ready : c.recovering = false
  voter : c.membership.isVoter c.selfId = true
  role : c.election.role ≠ .leader
  running : c.electionTickTrigger.stopFlag = false

/-- A tick of a core that waits counts, and starts a pre-vote when the count is full. -/
theorem RaftCore.Waiting.ticked_eq (h : c.Waiting) :
    c.ticked = if c.electionTickTrigger.tick.1 then (CoreState.becomePreCandidate { core := { c with
        electionTickTrigger := c.electionTickTrigger.tick.2 } }).core
      else { c with electionTickTrigger := c.electionTickTrigger.tick.2 } := by
  have hready : c.ensureReady.fail = false := RaftCore.ensureReady_fail_eq_false.mpr h.ready
  have hrole : c.election.isLeader = false := by simp [RaftElection.isLeader, h.role]
  simp only [ticked, CoreEvent.step, CoreState.tick, hready, hrole, Bool.false_eq_true, if_false]
  split <;> rfl

/-- **Counting down.** A running timer fires after finitely many ticks. -/
theorem RaftCore.Waiting.fires_after_ticks (h : c.Waiting) :
    ∃ n, (ticked^[n] c).PreElects := by
  have hround : ∀ c : RaftCore, c.Waiting → c.PreElects ∨ c.ticked.Waiting ∧
      c.ticked.electionTickTrigger.limitCnt - c.ticked.electionTickTrigger.curCnt <
        c.electionTickTrigger.limitCnt - c.electionTickTrigger.curCnt := by
    intro c h
    rcases TickTrigger.tick_of_running _ h.running with hfires | ⟨hcount, hless⟩
    · exact Or.inl ⟨hfires, h.ready, h.voter, h.role, by rw [h.ticked_eq, if_pos hfires]⟩
    · right
      rw [h.ticked_eq, hcount]
      refine ⟨⟨h.ready, h.voter, h.role, h.running⟩, ?_⟩
      show c.electionTickTrigger.limitCnt - (c.electionTickTrigger.curCnt + 1) < _
      omega
  exact Rounds.reaches (μ := fun c => c.electionTickTrigger.limitCnt - c.electionTickTrigger.curCnt)
    hround h

/-- **A voter times out.** From a booted core, in every run in which no action takes in a replica that
was shut out: a voter that is neither recovering nor leader has a running timer, and ticks alone bring it
to a pre-election. -/
theorem voter_times_out {selfId : ReplicaID} {members : List PeerMember} {limits : Nat → Nat}
    {disk : PersistEngine} {c : RaftCore}
    (hrun : Machine.GuardedRun CoreAction.step (fun c a => c.ShutOut → ¬ a.TakesIn c)
      ((RaftCore.create selfId members limits).adoptRecovered disk.recover.1) c)
    (hready : c.recovering = false) (hrole : c.election.role ≠ .leader)
    (hvoter : c.membership.isVoter c.selfId = true) :
    c.electionTickTrigger.stopFlag = false ∧ ∃ n, (RaftCore.ticked^[n] c).PreElects := by
  have hsound : c.TimerSound := hrun.invariant
    (fun _ _ _ hs hguard hstep => CoreAction.step_timerSound hs hguard hstep)
    (RaftCore.timerSound_boot selfId members limits _)
  have hrunning : c.electionTickTrigger.stopFlag = false := by
    by_contra hstop
    rcases hsound (Bool.eq_true_of_not_eq_false hstop) with hlead | hrecovering | hout
    · exact hrole hlead
    · exact absurd hrecovering (by simp [hready])
    · simp [RaftMembership.isVoter, hout] at hvoter
  exact ⟨hrunning, RaftCore.Waiting.fires_after_ticks ⟨hready, hvoter, hrole, hrunning⟩⟩

/-- A replica of group `{1, 2, 3}` after its first boot. -/
def freshReplica (n : Int) : RaftCore :=
  (RaftCore.create (replica n) (groupMembers 3) (fun _ => electionTimeoutMinTicks)).adoptRecovered
    (PersistEngine.recover {}).1

/-- The entry that takes in replica `n`. -/
def addLearnerEntry (index : Nat) (n : Int) : LogEntry :=
  { term := 1, index, opType := .addLearner, configMember := { replicaId := replica n } }

/-- Replica 1 counts down while the group takes in replica 4. -/
theorem voter_times_out_after_add :
    ∃ c, Machine.GuardedRun CoreAction.step (fun c a => c.ShutOut → ¬ a.TakesIn c) (freshReplica 1) c ∧
      c.electionTickTrigger.stopFlag = false ∧ ∃ n, (RaftCore.ticked^[n] c).PreElects := by
  obtain ⟨c, hc⟩ : ∃ c, Machine.runGuarded CoreAction.step (fun c _ => !c.electionTickTrigger.stopFlag)
      [.event .tick, .applyConfig (addLearnerEntry 1 4), .event .tick] (freshReplica 1) = some c :=
    ⟨_, rfl⟩
  have hrun : Machine.GuardedRun CoreAction.step (fun c a => c.ShutOut → ¬ a.TakesIn c)
      (freshReplica 1) c :=
    (Machine.GuardedRun.of_runGuarded hc).mono
      fun _ _ hrunning hout => absurd hout.1 (by simpa using hrunning)
  cases hc
  exact ⟨_, hrun, voter_times_out hrun rfl (by decide) (by decide)⟩

/-- What leader 1 of term 1 sends to replica 4, which it takes in after replica 5. -/
def joiningEntries : List LogEntry :=
  [addLearnerEntry 1 5, addLearnerEntry 2 4,
    { term := 1, index := 3, opType := .promoteVoter, configReplicaId := replica 4 }]

def joiningAppend : AppendEntriesParam :=
  { fromReplicaId := replica 1, toReplicaId := replica 4, term := 1, entries := joiningEntries,
    leaderCommit := 3 }

/-- Replica 4 applies the three committed entries in order. The first one stops its timer, as it is not a
member yet; it ends as a voter that follows leader 1, and no number of ticks makes it time out. -/
theorem joined_voter_never_times_out :
    ∃ c, Machine.run CoreAction.step
        (.event (.appendEntries joiningAppend) :: joiningEntries.map .applyConfig)
        (freshReplica 4) = some c ∧
      c.commitIndex = 3 ∧ c.lastApplied = 3 ∧ c.recovering = false ∧ c.election.role = .follower ∧
      c.membership.isVoter c.selfId = true ∧ c.electionTickTrigger.stopFlag = true ∧
      ∀ n, ¬ (RaftCore.ticked^[n] c).PreElects := by
  refine ⟨_, rfl, rfl, rfl, rfl, rfl, by decide, rfl, fun n h => ?_⟩
  rw [Function.iterate_fixed rfl] at h
  exact absurd h.fires (by decide)

end AdvisKV
