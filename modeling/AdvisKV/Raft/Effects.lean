import AdvisKV.Recovery.Boot

/-!
# AdvisKV — the effects of a step are its durable change

A handler changes the core in memory and notes what has to reach the disk: the hard state, entries to append,
or a whole log to rewrite. The executor writes down exactly that. Nothing else keeps the files and the core
together, so every change of the term, the vote or the entries must be noted, in every nested call.

A core appends under the position its last index stands for, which is the end of the list only because its
entries are numbered consecutively. That holds of every core that the class can build.

Main results:

* `RaftCore.Reachable.consecutive` — the entries of every reachable core are numbered consecutively.
* `Micro.noted` — a move that takes over nothing from outside notes what it changes.
* `effects_match_core` — for every reachable core and every operation the loop runs through the executor.
-/

namespace AdvisKV

/-! ## Reachable cores -/

/-- The cores that the class can build: new or recovered from any files, and then changed by its handlers, by
applying entries and by cutting the log. -/
inductive RaftCore.Reachable : RaftCore → Prop
  | created (selfId : ReplicaID) (members : List PeerMember) (limits : Nat → Nat) :
    Reachable (RaftCore.create selfId members limits)
  | recovered (selfId : ReplicaID) (members : List PeerMember) (limits : Nat → Nat)
    (disk : PersistEngine) :
    Reachable ((RaftCore.create selfId members limits).adoptRecovered disk.recover.1)
  | event {c : RaftCore} (e : CoreEvent) (h : Reachable c) : Reachable (e.step { core := c }).core
  | configEntry {c : RaftCore} (entry : LogEntry) (h : Reachable c) :
    Reachable (c.applyConfigEntry entry).2
  | applied {c : RaftCore} (index : Nat) (h : Reachable c) : Reachable (c.advanceLastApplied index)
  | truncated {c : RaftCore} (index : Nat) (h : Reachable c) : Reachable (c.truncateLog index).2

/-- A cut at an index inside the log drops the entries up to it. -/
theorem RaftLog.truncate_consecutive {l : RaftLog} (hl : l.Consecutive) (index : Nat) :
    (l.truncate index).2.Consecutive := by
  unfold truncate
  split
  · exact hl
  split
  · exact hl
  · next hlow hhigh =>
    rw [lastLogIndex_eq hl] at hhigh
    have hlen : index - l.snapshotIndex ≤ l.logEntries.length := by omega
    have hdrop := ConsecutiveFrom.drop hl hlen
    have hstart : l.snapshotIndex + (index - l.snapshotIndex) = index := by omega
    rw [hstart] at hdrop
    exact hdrop

/-- Applying a config entry may end a leadership but never touches the log. -/
theorem RaftCore.applyConfigEntry_raftLog (c : RaftCore) (entry : LogEntry) :
    (c.applyConfigEntry entry).2.raftLog = c.raftLog := by
  unfold applyConfigEntry
  dsimp only
  split
  · rfl
  · unfold stepDownIfBecomeNonMember
    split
    · rfl
    · rfl

theorem RaftCore.Reachable.consecutive {c : RaftCore} (h : c.Reachable) : c.raftLog.Consecutive := by
  induction h with
  | created selfId members limits => exact RaftLog.ConsecutiveFrom.nil 0
  -- the reader of the files has checked the numbers
  | recovered selfId members limits disk =>
    exact (RaftCore.adoptRecovered_recoveredFrom selfId members limits disk).shaped.consecutive
  | event e _ ih =>
    exact CoreEvent.step_induction (P := fun s => s.core.raftLog.Consecutive)
      (fun _ _ hmove hs => hmove.consecutive hs) ih
  | configEntry entry _ ih =>
    rw [RaftCore.applyConfigEntry_raftLog]
    exact ih
  | applied index _ ih => exact ih
  -- a cut that is refused leaves the core as it is
  | @truncated c index _ ih =>
    unfold RaftCore.truncateLog
    split
    · exact ih
    · exact RaftLog.truncate_consecutive ih index

/-! ## What has been noted -/

/-- Files that held `hard` and `entries` before the step hold the core's own hard state and entries once the
effects noted so far are written. -/
structure CoreState.Noted (hard : RaftMeta) (entries : List LogEntry) (s : CoreState) : Prop where
  hardState : s.effects.hardState.getD hard = s.core.election.hardState
  log : s.effects.entriesToRewrite.getD entries ++ s.effects.entriesToAppend = s.core.raftLog.logEntries
  oneKind : s.effects.entriesToRewrite = none ∨ s.effects.entriesToAppend = []

/-- The same, with nothing to rewrite yet, on a consecutive log. -/
structure CoreState.Appending (hard : RaftMeta) (entries : List LogEntry) (s : CoreState) : Prop where
  hardState : s.effects.hardState.getD hard = s.core.election.hardState
  noRewrite : s.effects.entriesToRewrite = none
  log : entries ++ s.effects.entriesToAppend = s.core.raftLog.logEntries
  consecutive : s.core.raftLog.Consecutive

section

variable {hard : RaftMeta} {entries : List LogEntry} {s s' : CoreState} {e : CoreEvent}

theorem CoreState.Appending.noted (h : s.Appending hard entries) : s.Noted hard entries where
  hardState := h.hardState
  log := by
    rw [h.noRewrite]
    exact h.log
  oneKind := Or.inl h.noRewrite

/-- A state with the same log and nothing new noted, whose hard state is noted or unchanged. -/
theorem CoreState.Appending.congr (h : s.Appending hard entries)
    (hlog : s'.core.raftLog = s.core.raftLog)
    (hrewrite : s'.effects.entriesToRewrite = s.effects.entriesToRewrite)
    (happend : s'.effects.entriesToAppend = s.effects.entriesToAppend)
    (hhard : s'.effects.hardState = some s'.core.election.hardState ∨
      (s'.effects.hardState = s.effects.hardState ∧
        s'.core.election.hardState = s.core.election.hardState)) :
    s'.Appending hard entries where
  hardState := by
    rcases hhard with hnoted | ⟨hsame, hcore⟩
    · rw [hnoted]
      rfl
    · rw [hsame, hcore]
      exact h.hardState
  noRewrite := hrewrite.trans h.noRewrite
  log := by
    rw [happend, hlog]
    exact h.log
  consecutive := by
    rw [hlog]
    exact h.consecutive

/-- Stepping down notes the hard state exactly when it changes. -/
theorem CoreState.becomeFollower_noted (s : CoreState) (term : Nat) :
    (s.becomeFollower term).effects.entriesToRewrite = s.effects.entriesToRewrite ∧
      (s.becomeFollower term).effects.entriesToAppend = s.effects.entriesToAppend ∧
      ((s.becomeFollower term).effects.hardState =
          some (s.becomeFollower term).core.election.hardState ∨
        ((s.becomeFollower term).effects.hardState = s.effects.hardState ∧
          (s.becomeFollower term).core.election.hardState = s.core.election.hardState)) := by
  unfold becomeFollower
  dsimp only
  by_cases hterm : term = s.core.election.currentTerm
  · rw [if_pos hterm]
    refine ⟨rfl, rfl, Or.inr ⟨rfl, ?_⟩⟩
    show (s.core.election.becomeFollower term).hardState = s.core.election.hardState
    unfold RaftElection.becomeFollower
    rw [if_pos hterm]
    rfl
  · rw [if_neg hterm]
    exact ⟨rfl, rfl, Or.inl rfl⟩

/-- Appending notes the very entry that is appended. -/
theorem CoreState.Appending.appendNewEntry (h : s.Appending hard entries) (param : ProposeParam) :
    (s.appendNewEntry param).Appending hard entries where
  hardState := h.hardState
  noRewrite := h.noRewrite
  log := by
    set entry := RaftLog.newEntry s.core.election.currentTerm (s.core.raftLog.lastLogIndex + 1) param
      with hentry
    -- the new entry sits at the position its index stands for
    have hlast := RaftLog.lastLogIndex_eq h.consecutive
    have hat : (s.core.raftLog.appendNewEntry s.core.election.currentTerm param).entryAt
        (s.core.raftLog.lastLogIndex + 1) = some entry := by
      unfold RaftLog.entryAt
      have hsnapshot : (s.core.raftLog.appendNewEntry s.core.election.currentTerm param).snapshotIndex =
          s.core.raftLog.snapshotIndex := rfl
      have hentries : (s.core.raftLog.appendNewEntry s.core.election.currentTerm param).logEntries =
          s.core.raftLog.logEntries ++ [entry] := rfl
      have hoffset : s.core.raftLog.lastLogIndex + 1 - s.core.raftLog.snapshotIndex - 1 =
          s.core.raftLog.logEntries.length := by
        omega
      rw [hsnapshot, if_neg (by omega), hentries, hoffset, List.getElem?_concat_length]
    show entries ++ (s.effects.entriesToAppend ++ _) = s.core.raftLog.logEntries ++ [entry]
    rw [hat, ← List.append_assoc, h.log]
    rfl
  consecutive := RaftLog.appendNewEntry_consecutive h.consecutive _ _

/-- **Moves note what they change**, as long as nothing is taken over from outside. -/
theorem Micro.noted (h : Micro e s s') (hs : s.Appending hard entries)
    (happend : ∀ param, e ≠ .appendEntries param) (hinstall : ∀ header, e ≠ .installSnapshot header) :
    s'.Appending hard entries := by
  cases h with
  | follow term hle =>
    obtain ⟨hrewrite, hentries, hhard⟩ := s.becomeFollower_noted term
    exact hs.congr (s.becomeFollower_raftLog term) hrewrite hentries hhard
  | candidate ready voter role => exact hs.congr rfl rfl rfl (Or.inl rfl)
  | grantVote param event ready voter candidate term log free =>
    exact hs.congr rfl rfl rfl (Or.inl rfl)
  | lead =>
    have hleads : CoreState.Appending hard entries { s with core := { s.core with
        election := s.core.election.becomeLeader
        replication := RaftReplication.resetForLeader s.core.selfId s.core.membership
          s.core.raftLog } } :=
      hs.congr rfl rfl rfl (Or.inr ⟨rfl, rfl⟩)
    exact hleads.appendNewEntry .noop
  | append param => exact hs.appendNewEntry param
  | accept param log r event => exact absurd event (happend param)
  | install header event => exact absurd event (hinstall header)
  | _ => exact hs.congr rfl rfl rfl (Or.inr ⟨rfl, rfl⟩)

/-! ## Merging a leader's entries -/

variable {es : List LogEntry} {r : LogAppendResult}

/-- **A merge** hands out what the WAL needs: the whole new log, or what was added to the old one. -/
theorem appendEntriesFromLeader_hands {l l' : RaftLog} (hl : l.Consecutive)
    (h : l.appendEntriesFromLeader es = .ok (l', r)) :
    (r.entriesToRewrite = some l'.logEntries ∧ r.entriesToAppend = []) ∨
      (r.entriesToRewrite = none ∧ l.logEntries ++ r.entriesToAppend = l'.logEntries) := by
  obtain ⟨st, hmerge, hentries, ⟨rfl, rfl⟩ | ⟨rfl, rfl⟩⟩ := RaftLog.appendEntriesFromLeader_merges hl h
  · exact Or.inr ⟨rfl, List.append_nil _⟩
  by_cases hflag : st.needRewriteWal = true
  · rw [if_pos hflag]
    exact Or.inl ⟨rfl, rfl⟩
  rw [if_neg hflag]
  -- until the merge has cut something, the entries built are the old ones and the new ones behind them
  have happended : st.needRewriteWal = false → st.updatedEntries = l.logEntries ++ st.newEntries := by
    refine RaftLog.mergeEntries_induction
      (P := fun st => st.needRewriteWal = false → st.updatedEntries = l.logEntries ++ st.newEntries)
      hmerge hl (fun _ => (List.append_nil _).symm) fun _ hP hone hkept => ?_
    cases hone with
    | skip => exact hP hkept
    | cut => cases hkept
    | push => rw [hP hkept, List.append_assoc]
  exact Or.inr ⟨rfl, (happended (by simpa using hflag)).symm⟩

/-- The hard state of a state that follows a leader is noted. -/
theorem CoreState.Appending.followLeader (h : s.Appending hard entries) (term : Nat) :
    (s.followLeader term).Appending hard entries := by
  unfold CoreState.followLeader
  dsimp only
  split
  · obtain ⟨hrewrite, hentries, hhard⟩ := s.becomeFollower_noted term
    exact (h.congr (s.becomeFollower_raftLog term) hrewrite hentries hhard).congr rfl rfl rfl
      (Or.inr ⟨rfl, rfl⟩)
  · exact h.congr rfl rfl rfl (Or.inr ⟨rfl, rfl⟩)

/-- Accepting moves the commit index and the role, which are not written anywhere. -/
theorem CoreState.acceptAppend_noted (h : s.Noted hard entries) (leaderCommit : Nat) :
    (s.acceptAppend leaderCommit).Noted hard entries := by
  have helection : (s.acceptAppend leaderCommit).core.election = s.core.election := by
    unfold CoreState.acceptAppend
    rw [RaftCore.finishRecovering_eq]
  refine ⟨?_, ?_, h.oneKind⟩
  · rw [helection]
    exact h.hardState
  · rw [(CoreState.acceptAppend_core s leaderCommit).1]
    exact h.log

/-- **A merge is noted** as the whole log if it cut something, else as the entries it added. -/
theorem CoreState.storeMerge_noted (h : s.Appending hard entries) (hnone : s.effects.entriesToAppend = [])
    {log : RaftLog} (hmerge : s.core.raftLog.appendEntriesFromLeader es = .ok (log, r)) :
    (s.storeMerge log r).Noted hard entries := by
  have hentries : entries = s.core.raftLog.logEntries := by
    rw [← h.log, hnone, List.append_nil]
  unfold CoreState.storeMerge
  rcases appendEntriesFromLeader_hands h.consecutive hmerge with ⟨hrewrite, -⟩ | ⟨hrewrite, happend⟩
  · -- the log is written anew, and nothing may be appended behind it
    rw [hrewrite]
    refine ⟨h.hardState, ?_, Or.inr hnone⟩
    show log.logEntries ++ s.effects.entriesToAppend = log.logEntries
    rw [hnone, List.append_nil]
  · rw [hrewrite]
    refine ⟨h.hardState, ?_, Or.inl h.noRewrite⟩
    show s.effects.entriesToRewrite.getD entries ++ r.entriesToAppend = log.logEntries
    rw [h.noRewrite, hentries]
    exact happend

/-- So is the handler that merges, whichever check it stops at. -/
theorem CoreState.handleAppendEntries_noted (h : s.Appending hard entries)
    (hnone : s.effects.entriesToAppend = []) (param : AppendEntriesParam) :
    (s.handleAppendEntries param).2.Noted hard entries := by
  unfold CoreState.handleAppendEntries
  dsimp only
  split
  · exact h.noted
  split
  · exact h.noted
  -- past the checks the state follows the leader, which notes its term
  have hfollow := h.followLeader param.term
  have hnone' : (s.followLeader param.term).effects.entriesToAppend = [] := by
    rw [(CoreState.followLeader_effects s param.term).1]
    exact hnone
  split
  · exact hfollow.noted
  split
  · exact CoreState.acceptAppend_noted hfollow.noted _
  split
  · exact hfollow.noted
  · next log r hmerge =>
    exact CoreState.acceptAppend_noted (CoreState.storeMerge_noted hfollow hnone' hmerge) _

/-- An install rewrites the log with what stays behind the snapshot. -/
theorem CoreState.installSnapshot_noted (h : s.Appending hard entries)
    (hnone : s.effects.entriesToAppend = []) (header : SnapshotHeader) :
    (s.installSnapshot header).Noted hard entries := by
  refine ⟨?_, ?_, Or.inr hnone⟩
  · show s.effects.hardState.getD hard = (s.core.installSnapshotIntoLog header).election.hardState
    rw [RaftCore.installSnapshotIntoLog_election]
    exact h.hardState
  · show (s.core.installSnapshotIntoLog header).raftLog.logEntries ++ s.effects.entriesToAppend = _
    rw [hnone, List.append_nil]
    rfl

/-- **Every event** notes what it changes. -/
theorem CoreEvent.step_noted (e : CoreEvent) {c : RaftCore} (hc : c.raftLog.Consecutive) :
    (e.step { core := c }).Noted c.election.hardState c.raftLog.logEntries := by
  have hstart : CoreState.Appending c.election.hardState c.raftLog.logEntries { core := c } :=
    ⟨rfl, rfl, List.append_nil _, hc⟩
  -- the two handlers that take over entries are followed by hand, the others move by move
  by_cases happend : ∃ param, e = .appendEntries param
  · obtain ⟨param, rfl⟩ := happend
    exact CoreState.handleAppendEntries_noted hstart rfl param
  by_cases hinstall : ∃ header, e = .installSnapshot header
  · obtain ⟨header, rfl⟩ := hinstall
    exact CoreState.installSnapshot_noted hstart rfl header
  have hsteps := CoreEvent.step_induction (e := e) (c := c)
    (P := fun s => s.Appending c.election.hardState c.raftLog.logEntries)
    (fun _ _ hmove hs => hmove.noted hs (fun param h => happend ⟨param, h⟩)
      fun header h => hinstall ⟨header, h⟩) hstart
  exact hsteps.noted

end

/-! ## The executor -/

/-- What the loop runs through the executor: the events of the core, a pre-vote request, which is answered
without touching the core, and a failed send of entries, which is only logged. -/
inductive Operation where
  | event (e : CoreEvent)
  | preVote (param : PreVoteParam)
  | appendSendFailed (sender : ReplicaID) (sent : AppendEntriesParam) (status : Status)

def Operation.step : Operation → CoreState → CoreState
  | .event e, s => e.step s
  | .preVote _, s => s
  | .appendSendFailed _ _ _, s => s

/-- The files hold the term, the vote and the entries of the core. -/
def PersistEngine.Matches (p : PersistEngine) (c : RaftCore) : Prop :=
  p.raftMeta = c.election.hardState ∧ p.wal = WalStore.encode c.raftLog.logEntries

theorem PersistEngine.persistEffects_matches {p : PersistEngine} {c : RaftCore} {s : CoreState}
    (hp : p.Matches c) (hs : s.Noted c.election.hardState c.raftLog.logEntries) :
    (p.persistEffects s.effects).1 = .OK ∧ (p.persistEffects s.effects).2.Matches s.core := by
  obtain ⟨hmeta, hwal⟩ := hp
  have hboth : (s.effects.entriesToRewrite.isSome && decide (s.effects.entriesToAppend ≠ [])) = false := by
    rcases hs.oneKind with hnone | hempty
    · simp [hnone]
    · simp [hempty]
  have hhard := hs.hardState
  have hlog := hs.log
  rw [← hmeta] at hhard
  unfold persistEffects
  rw [if_neg (by rw [hboth]; exact Bool.false_ne_true)]
  refine ⟨rfl, ?_, ?_⟩
  · rcases hstate : s.effects.hardState with _ | m
    · rw [hstate] at hhard
      rcases hrewrite : s.effects.entriesToRewrite with _ | es
      · exact hhard
      · exact hhard
    · rw [hstate] at hhard
      rcases hrewrite : s.effects.entriesToRewrite with _ | es
      · exact hhard
      · exact hhard
  · rw [← hlog]
    unfold WalStore.encode at hwal ⊢
    rw [List.map_append]
    rcases hrewrite : s.effects.entriesToRewrite with _ | es
    · rcases hstate : s.effects.hardState with _ | m
      · show p.wal ++ _ = _
        rw [hwal]
        rfl
      · show p.wal ++ _ = _
        rw [hwal]
        rfl
    · rcases hstate : s.effects.hardState with _ | m
      · rfl
      · rfl

/-- **Effects are the durable change.** For every core the class can build and every operation the loop runs through
the executor: when the files hold the core's term, vote and entries, the operation never asks for a rewrite and an
append at once, and writing its effects succeeds and leaves the files with the new core's term, vote and entries. -/
theorem effects_match_core {c : RaftCore} (hc : c.Reachable) (op : Operation) {p : PersistEngine}
    (hp : p.Matches c) :
    ¬((op.step { core := c }).effects.entriesToRewrite.isSome ∧
        (op.step { core := c }).effects.entriesToAppend ≠ []) ∧
      (p.persistEffects (op.step { core := c }).effects).1 = .OK ∧
      (p.persistEffects (op.step { core := c }).effects).2.Matches (op.step { core := c }).core := by
  have hnoted : (op.step { core := c }).Noted c.election.hardState c.raftLog.logEntries := by
    cases op with
    | event e => exact e.step_noted hc.consecutive
    | preVote param => exact ⟨rfl, List.append_nil _, Or.inl rfl⟩
    | appendSendFailed sender sent status => exact ⟨rfl, List.append_nil _, Or.inl rfl⟩
  refine ⟨?_, PersistEngine.persistEffects_matches hp hnoted⟩
  rintro ⟨hrewrite, happend⟩
  rcases hnoted.oneKind with hnone | hempty
  · rw [hnone] at hrewrite
    cases hrewrite
  · exact happend hempty

/-- A new core of a group of two, and the request of the other voter for its vote in term 1. -/
def twoVoterCore : RaftCore :=
  RaftCore.create ⟨0, 0, 0⟩ [{ replicaId := ⟨0, 0, 0⟩ }, { replicaId := ⟨0, 0, 1⟩ }]
    fun _ => electionTimeoutMinTicks

def askForVote : Operation :=
  .event (.requestVote { fromReplicaId := ⟨0, 0, 1⟩, toReplicaId := ⟨0, 0, 0⟩, term := 1 })

/-- The vote is granted, and the files name it. -/
theorem granted_vote_reaches_files :
    (askForVote.step { core := twoVoterCore }).core.election.hardState = ⟨1, some ⟨0, 0, 1⟩⟩ ∧
      (({} : PersistEngine).persistEffects (askForVote.step { core := twoVoterCore }).effects).2.Matches
        (askForVote.step { core := twoVoterCore }).core :=
  ⟨by decide +kernel, (effects_match_core (.created _ _ _) askForVote ⟨rfl, rfl⟩).2.2⟩

end AdvisKV
