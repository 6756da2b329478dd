import AdvisKV.Raft.AppendEntries
import Mathlib.Data.List.TakeWhile

/-!
# AdvisKV — the follower commit rule

A leader's log `L` sends the slice after `prev_log_index` with its commit index; the follower merges the
slice and sets its commit index to the smaller of the leader's and its own last index. Nothing bounds
that by the last index the message has verified, so a suffix the slice does not reach can be counted as
committed.

Main results:

* `handleAppendEntries_commit_rule` — everything the follower counts as committed is the leader's
  exactly when the slice changed the log, or did not leave an unverified suffix under the new commit
  index, or that suffix happens to agree with `L`.
-/

namespace AdvisKV

open RaftLog

/-- A leader's whole log, as a log without a snapshot. -/
def fullLog (L : List LogEntry) : RaftLog := { logEntries := L }

variable {L : List LogEntry} {i : Nat}

theorem fullLog_entryAt (hi : 0 < i) :
    (fullLog L).entryAt i = L[i - 1]? := by
  simp [fullLog, entryAt, show i ≠ 0 by omega]

/-- A leader's log: numbered from 1, with the positive terms a leader stamps on its entries. -/
structure LeaderLog (L : List LogEntry) : Prop where
  consecutive : (fullLog L).Consecutive
  term_pos : ∀ e ∈ L, 0 < e.term

/-- The message carries the `k` entries of `L` after `prev_log_index`. -/
structure CarriesSlice (L : List LogEntry) (param : AppendEntriesParam) (k : Nat) : Prop where
  prev_add_le : param.prevLogIndex + k ≤ L.length
  entries_eq : param.entries = (L.drop param.prevLogIndex).take k
  prev_term : param.prevLogTerm = (fullLog L).termAt param.prevLogIndex
  commit_le : param.leaderCommit ≤ L.length

/-- A follower whose log matches `L`: equal terms at an index mean equal entries up to it, and what it
has committed is a prefix of `L`. -/
structure MatchesLeader (c : RaftCore) (L : List LogEntry) : Prop where
  consecutive : c.raftLog.Consecutive
  snapshot_le : c.raftLog.snapshotIndex ≤ c.raftApply.commitIndex
  matching : ∀ i e, c.raftLog.entryAt i = some e → i ≤ L.length →
    (fullLog L).termAt i = e.term → ∀ j e', j ≤ i → c.raftLog.entryAt j = some e' →
      (fullLog L).entryAt j = some e'
  committed : ∀ i e, c.raftLog.entryAt i = some e → i ≤ c.raftApply.commitIndex →
    (fullLog L).entryAt i = some e

/-- Every entry of a leader has a term, so a term 0 means that there is none. -/
theorem LeaderLog.termAt_pos (hL : LeaderLog L) (hi : 0 < i) (hle : i ≤ L.length) :
    0 < (fullLog L).termAt i := by
  have hsome : (fullLog L).entryAt i = some L[i - 1] := by
    rw [fullLog_entryAt hi]
    exact List.getElem?_eq_getElem (by omega)
  rw [termAt_of_entryAt hsome]
  exact hL.term_pos _ (List.getElem_mem _)

/-- A positive term above the snapshot belongs to an entry of the log. -/
theorem entryAt_of_termAt_pos {l : RaftLog} (hi : l.snapshotIndex < i) (ht : 0 < l.termAt i) :
    ∃ e, l.entryAt i = some e ∧ e.term = l.termAt i := by
  rcases he : l.entryAt i with _ | e
  · simp [termAt, he, show i ≠ 0 by omega, show i ≠ l.snapshotIndex by omega,
      show ¬ i < l.snapshotIndex by omega] at ht
  · exact ⟨e, rfl, (termAt_of_entryAt he).symm⟩

/-- **The verified prefix.** When the prev-log test passed and the log holds the first `k` entries
after it, everything the log keeps up to `prev + k` is the leader's. -/
theorem verified_prefix {c : RaftCore} {param : AppendEntriesParam} {k : Nat} (hL : LeaderLog L)
    (hf : MatchesLeader c L) (hterm : param.prevLogTerm = (fullLog L).termAt param.prevLogIndex)
    (hk : param.prevLogIndex + k ≤ L.length) (hprev : CoreState.prevLogMatches c.raftLog param = true)
    (hholds : ∀ e ∈ (L.drop param.prevLogIndex).take k, c.raftLog.holds e = true) {j : Nat} {e' : LogEntry}
    (hj : j ≤ param.prevLogIndex + k) (he' : c.raftLog.entryAt j = some e') :
    (fullLog L).entryAt j = some e' := by
  have hjs : c.raftLog.snapshotIndex < j := by
    have := (entryAt_isSome_iff hf.consecutive (i := j)).mp (by simp [he'])
    exact this.1
  -- some index at or above `j` carries the leader's term
  suffices h : ∃ i, j ≤ i ∧ i ≤ L.length ∧ c.raftLog.termAt i = (fullLog L).termAt i by
    obtain ⟨i, hji, hiL, hti⟩ := h
    have hpos := hL.termAt_pos (show 0 < i by omega) hiL
    obtain ⟨e, he, het⟩ := entryAt_of_termAt_pos (l := c.raftLog) (i := i) (by omega) (by omega)
    exact hf.matching i e he hiL (by omega) j e' hji he'
  rcases Nat.eq_zero_or_pos k with hk0 | hkpos
  · -- an empty slice: the prev-log test itself compares the terms
    refine ⟨param.prevLogIndex, by omega, by omega, ?_⟩
    unfold CoreState.prevLogMatches at hprev
    rw [if_pos (by omega), if_neg (by omega)] at hprev
    rw [← hterm]
    simpa using hprev
  · -- the last entry of the slice is held, and it lies above the snapshot
    have hidx : param.prevLogIndex + k - 1 < L.length := by omega
    set e := L[param.prevLogIndex + k - 1] with hedef
    have hat : (fullLog L).entryAt (param.prevLogIndex + k) = some e := by
      rw [fullLog_entryAt (by omega)]
      exact List.getElem?_eq_getElem hidx
    have hmem : e ∈ (L.drop param.prevLogIndex).take k := by
      refine List.mem_of_getElem? (i := k - 1) ?_
      rw [List.getElem?_take_of_lt (by omega), List.getElem?_drop,
        show param.prevLogIndex + (k - 1) = param.prevLogIndex + k - 1 by omega]
      exact List.getElem?_eq_getElem hidx
    have hindex : e.index = param.prevLogIndex + k := entryAt_index hL.consecutive hat
    have hh := hholds e hmem
    simp only [holds, Bool.or_eq_true, Bool.and_eq_true, decide_eq_true_eq, hindex] at hh
    refine ⟨param.prevLogIndex + k, hj, hk, ?_⟩
    rcases hh with hs | ⟨_, ht⟩
    · omega
    · rw [ht, termAt_of_entryAt hat]

section CommitRule

variable {s : CoreState} {L : List LogEntry} {param : AppendEntriesParam} {k : Nat}

/-- A slice of a numbered log is numbered. -/
theorem CarriesSlice.consecutive (hL : LeaderLog L) (hp : CarriesSlice L param k) :
    ConsecutiveFrom param.prevLogIndex param.entries := by
  rw [hp.entries_eq]
  have hle : param.prevLogIndex ≤ (fullLog L).logEntries.length := by
    have := hp.prev_add_le
    simp only [fullLog]; omega
  have := (hL.consecutive.drop hle).take k
  simpa [fullLog] using this

theorem CarriesSlice.getElem? (hp : CarriesSlice L param k) {n : Nat} (hn : n < k) :
    param.entries[n]? = L[param.prevLogIndex + n]? := by
  rw [hp.entries_eq, List.getElem?_take_of_lt hn, List.getElem?_drop]

theorem CarriesSlice.length_eq (hp : CarriesSlice L param k) : param.entries.length = k := by
  have := hp.prev_add_le
  rw [hp.entries_eq]
  simp
  omega

/-- A passed prev-log test points into the follower's log. -/
theorem prevLogIndex_le (hL : LeaderLog L) (hf : MatchesLeader s.core L)
    (hp : CarriesSlice L param k)
    (hprev : CoreState.prevLogMatches s.core.raftLog param = true) :
    param.prevLogIndex ≤ s.core.raftLog.lastLogIndex := by
  have hlen := lastLogIndex_eq hf.consecutive
  rcases Nat.eq_zero_or_pos param.prevLogIndex with h0 | hpos
  · omega
  unfold CoreState.prevLogMatches at hprev
  rw [if_pos hpos] at hprev
  split at hprev
  · cases hprev
  · have hterm : s.core.raftLog.termAt param.prevLogIndex = param.prevLogTerm := by simpa using hprev
    have := hL.termAt_pos hpos (by have := hp.prev_add_le; omega)
    by_contra hcon
    obtain ⟨e, he, -⟩ := entryAt_of_termAt_pos (l := s.core.raftLog) (i := param.prevLogIndex)
      (by omega) (by rw [hterm, hp.prev_term]; exact this)
    have := (entryAt_isSome_iff hf.consecutive (i := param.prevLogIndex)).mp (by simp [he])
    omega

/-- A merge that changes the log leaves nothing in it but the leader's entries. -/
theorem merge_changed (hL : LeaderLog L) (hf : MatchesLeader s.core L) (hp : CarriesSlice L param k)
    {s' : CoreState} (ha : CoreState.Accepted s param s')
    (hmiss : s.core.raftLog.missing param.entries ≠ []) {i : Nat} {x : LogEntry}
    (hx : s'.core.raftLog.entryAt i = some x) : (fullLog L).entryAt i = some x := by
  obtain ⟨r, hmerge⟩ := ha.merged
  have hes := hp.consecutive hL
  have hlast := prevLogIndex_le hL hf hp ha.prev
  obtain ⟨e, rest, hm⟩ := List.exists_cons_of_ne_nil hmiss
  obtain ⟨held, hsplit, hheld, hidx, hsnap, -, -⟩ := missing_cons hf.consecutive hes hlast hm
  have hlen : held.length < k := by
    rw [← hp.length_eq, hsplit]; simp
  rw [appendEntriesFromLeader_entryAt hf.consecutive hes hlast hmerge hm] at hx
  split at hx
  · -- below the first missing entry everything is verified
    have htake : held = (L.drop param.prevLogIndex).take held.length := by
      calc held = param.entries.take held.length := by rw [hsplit]; simp
        _ = (L.drop param.prevLogIndex).take held.length := by
          rw [hp.entries_eq, List.take_take, min_eq_left (by omega)]
    have hle := hp.prev_add_le
    refine verified_prefix hL hf hp.prev_term (k := held.length) (by omega) ha.prev ?_
      (by omega) hx
    rw [← htake]
    exact hheld
  · -- from there on the log is the slice
    next hi =>
      have hik : i - param.prevLogIndex - 1 < k := by
        rw [← hp.length_eq]
        exact (List.getElem?_eq_some_iff.mp hx).1
      rw [hp.getElem? hik] at hx
      rw [fullLog_entryAt (by omega), ← hx]
      congr 1
      omega

/-- The condition on the message and the follower: some sent entry is new to the log, or the adopted
commit index stays within what the message verified or what was committed before, or the log agrees
with `L` at that index. -/
def CommitBoundVerified (c : RaftCore) (L : List LogEntry) (param : AppendEntriesParam) : Prop :=
  (∃ e ∈ param.entries, c.raftLog.holds e = false) ∨
  min param.leaderCommit c.raftLog.lastLogIndex ≤
    max (param.prevLogIndex + param.entries.length) c.raftApply.commitIndex ∨
  c.raftLog.termAt (min param.leaderCommit c.raftLog.lastLogIndex) =
    (fullLog L).termAt (min param.leaderCommit c.raftLog.lastLogIndex)

theorem missing_ne_nil_iff {l : RaftLog} {es : List LogEntry} :
    l.missing es ≠ [] ↔ ∃ e ∈ es, l.holds e = false := by
  simp [missing, List.dropWhile_eq_nil_iff]

/-- When the log holds the whole slice, accepting the message only moves the commit index. -/
theorem accepted_unchanged (hL : LeaderLog L) (hf : MatchesLeader s.core L)
    (hp : CarriesSlice L param k) {s' : CoreState} (ha : CoreState.Accepted s param s')
    (hmiss : s.core.raftLog.missing param.entries = []) :
    s'.core.raftLog = s.core.raftLog := by
  obtain ⟨r, hmerge⟩ := ha.merged
  rw [appendEntriesFromLeader_eq hf.consecutive (hp.consecutive hL)
    (prevLogIndex_le hL hf hp ha.prev), hmiss] at hmerge
  exact (Prod.mk.inj (Except.ok.inj hmerge)).1.symm

/-- **The follower commit rule, exactly.** After an accepted AppendEntries every entry at an index up to
the new commit index is the leader's if and only if the adopted commit index was verified. -/
theorem handleAppendEntries_commit_rule (hL : LeaderLog L) (hp : CarriesSlice L param k)
    (hf : MatchesLeader s.core L) (hok : (s.handleAppendEntries param).1.success = true) :
    (∀ i e, (s.handleAppendEntries param).2.core.raftLog.entryAt i = some e →
      i ≤ (s.handleAppendEntries param).2.core.raftApply.commitIndex →
        (fullLog L).entryAt i = some e) ↔ CommitBoundVerified s.core L param := by
  have ha := CoreState.handleAppendEntries_success hok
  generalize (s.handleAppendEntries param).2 = s' at ha ⊢
  by_cases hmiss : s.core.raftLog.missing param.entries = []
  swap
  · -- the merge changed the log: all of it is the leader's
    exact ⟨fun _ => Or.inl (missing_ne_nil_iff.mp hmiss),
      fun _ i e he _ => merge_changed hL hf hp ha hmiss he⟩
  have hheld : ∀ e ∈ param.entries, s.core.raftLog.holds e = true := by
    simpa [missing, List.dropWhile_eq_nil_iff] using hmiss
  have hlog := accepted_unchanged hL hf hp ha hmiss
  have happly := ha.apply_eq
  rw [hlog] at happly ⊢
  rw [happly, RaftApply.advanceCommitIndexFromLeader]
  set m := min param.leaderCommit s.core.raftLog.lastLogIndex with hm
  constructor
  · intro h
    by_cases hle : m ≤ max (param.prevLogIndex + param.entries.length) s.core.raftApply.commitIndex
    · exact Or.inr (Or.inl hle)
    · -- the adopted index is new and unverified: the property speaks about its entry
      have hsnap := hf.snapshot_le
      obtain ⟨e, he⟩ := Option.isSome_iff_exists.mp
        ((entryAt_isSome_iff hf.consecutive (i := m)).mpr ⟨by omega, by omega⟩)
      rw [if_pos (by omega)] at h
      refine Or.inr (Or.inr ?_)
      rw [termAt_of_entryAt he, termAt_of_entryAt (h m e he le_rfl)]
  · intro hcond i e he hi
    have hverified : i ≤ param.prevLogIndex + param.entries.length →
        (fullLog L).entryAt i = some e := fun hle =>
      verified_prefix hL hf hp.prev_term hp.prev_add_le ha.prev (by rwa [← hp.entries_eq])
        (by rwa [← hp.length_eq]) he
    by_cases hc : i ≤ s.core.raftApply.commitIndex
    · exact hf.committed i e he hc
    rw [apply_ite RaftApply.commitIndex] at hi
    split at hi
    swap
    · exact absurd hi hc
    have him : i ≤ m := hi
    rcases hcond with ⟨x, hx, hxf⟩ | hle | hterm
    · exact absurd (hheld x hx) (by simp [hxf])
    · exact hverified (by omega)
    · -- the log agrees with `L` at the adopted index, so it agrees below it
      rw [← hm] at hterm
      have hmpos : 0 < (fullLog L).termAt m :=
        hL.termAt_pos (by omega) (by have := hp.commit_le; omega)
      obtain ⟨x, hx, hxt⟩ := entryAt_of_termAt_pos (l := s.core.raftLog) (i := m)
        (by have := hf.snapshot_le; omega) (by omega)
      exact hf.matching m x hx (by have := hp.commit_le; omega) (by omega) i e him he

end CommitRule

/-! ## A stale suffix under the commit index -/

/-- Replica `1:0:n` of a group. -/
def replica (n : Int) : ReplicaID := ⟨1, 0, n⟩

/-- The members of a group of `n` replicas, numbered from 1. -/
def groupMembers (n : Nat) : List PeerMember :=
  (List.range n).map fun i => { nodeId := [UInt8.ofNat (i + 1)], replicaId := replica (i + 1) }

/-- A follower of replica 1 in term 3 whose entry 2 was written by a leader of term 2. -/
def divergedFollower : CoreState :=
  { core :=
      { selfId := replica 2
        election := { selfId := replica 2, currentTerm := 3 }
        raftLog := { logEntries := [{ term := 1, index := 1 }, { term := 2, index := 2 }] }
        raftApply := { commitIndex := 1, lastApplied := 1 }
        membership := RaftMembership.resetVoters (groupMembers 3) } }

/-- The log of replica 1, leader of term 3: its entry 2 is another one. -/
def termThreeLog : List LogEntry := [{ term := 1, index := 1 }, { term := 3, index := 2 }]

/-- A heartbeat at `prev_log_index = 1` that announces commit index 2. -/
def heartbeatAtOne : AppendEntriesParam :=
  { fromReplicaId := replica 1, toReplicaId := replica 2, term := 3, prevLogIndex := 1,
    prevLogTerm := 1, leaderCommit := 2 }

theorem termThreeLog_leaderLog : LeaderLog termThreeLog := by
  constructor
  · intro k e hk
    rcases k with _ | _ | k
    · simp [fullLog, termThreeLog] at hk; subst hk; rfl
    · simp [fullLog, termThreeLog] at hk; subst hk; rfl
    · simp [fullLog, termThreeLog] at hk
  · intro e he
    simp only [termThreeLog, List.mem_cons, List.not_mem_nil, or_false] at he
    rcases he with rfl | rfl <;> decide

theorem divergedFollower_entryAt {e : LogEntry} (h : divergedFollower.core.raftLog.entryAt i = some e) :
    i = 1 ∧ e = { term := 1, index := 1 } ∨ i = 2 ∧ e = { term := 2, index := 2 } := by
  rcases i with _ | _ | _ | i
  · cases h
  · exact Or.inl ⟨rfl, (Option.some.inj h).symm⟩
  · exact Or.inr ⟨rfl, (Option.some.inj h).symm⟩
  · cases h

theorem divergedFollower_matchesLeader : MatchesLeader divergedFollower.core termThreeLog := by
  refine ⟨?_, by decide, ?_, ?_⟩
  · intro k e hk
    have := divergedFollower_entryAt (i := k + 1) hk
    rcases this with ⟨hk1, rfl⟩ | ⟨hk2, rfl⟩
    · simp only [divergedFollower]; omega
    · simp only [divergedFollower]; omega
  · intro i e he _ hterm j e' hj he'
    rcases divergedFollower_entryAt he with ⟨rfl, rfl⟩ | ⟨rfl, rfl⟩
    · rcases divergedFollower_entryAt he' with ⟨rfl, rfl⟩ | ⟨rfl, rfl⟩
      · rfl
      · omega
    · exact absurd hterm (by decide)
  · intro i e he hi
    rcases divergedFollower_entryAt he with ⟨rfl, rfl⟩ | ⟨rfl, rfl⟩
    · rfl
    · exact absurd hi (by decide)

/-- The same leader sending its entry 2 along: the stale suffix is replaced before the commit index
moves, and the rule applies. -/
theorem commit_rule_replaces_suffix :
    CarriesSlice termThreeLog { heartbeatAtOne with entries := [{ term := 3, index := 2 }] } 1 ∧
    (divergedFollower.handleAppendEntries { heartbeatAtOne with
      entries := [{ term := 3, index := 2 }] }).1.success = true ∧
    ∀ i e, (divergedFollower.handleAppendEntries { heartbeatAtOne with
        entries := [{ term := 3, index := 2 }] }).2.core.raftLog.entryAt i = some e →
      i ≤ (divergedFollower.handleAppendEntries { heartbeatAtOne with
        entries := [{ term := 3, index := 2 }] }).2.core.raftApply.commitIndex →
      (fullLog termThreeLog).entryAt i = some e := by
  have hslice : CarriesSlice termThreeLog
      { heartbeatAtOne with entries := [{ term := 3, index := 2 }] } 1 :=
    ⟨by decide, by decide, by decide, by decide⟩
  have hok : (divergedFollower.handleAppendEntries { heartbeatAtOne with
      entries := [{ term := 3, index := 2 }] }).1.success = true := by decide
  refine ⟨hslice, hok, ?_⟩
  exact (handleAppendEntries_commit_rule termThreeLog_leaderLog hslice
    divergedFollower_matchesLeader hok).mpr (Or.inl ⟨{ term := 3, index := 2 }, by decide, by decide⟩)

/-- The heartbeat is accepted and makes the follower count its own entry of term 2 as committed,
although the leader's entry at that index is of term 3. -/
theorem heartbeat_commits_stale_suffix :
    LeaderLog termThreeLog ∧ CarriesSlice termThreeLog heartbeatAtOne 0 ∧
    MatchesLeader divergedFollower.core termThreeLog ∧
    (divergedFollower.handleAppendEntries heartbeatAtOne).1.success = true ∧
    2 ≤ (divergedFollower.handleAppendEntries heartbeatAtOne).2.core.raftApply.commitIndex ∧
    (divergedFollower.handleAppendEntries heartbeatAtOne).2.core.raftLog.entryAt 2 =
      some { term := 2, index := 2 } ∧
    (fullLog termThreeLog).entryAt 2 = some { term := 3, index := 2 } :=
  ⟨termThreeLog_leaderLog, ⟨by decide, by decide, by decide, by decide⟩,
    divergedFollower_matchesLeader, by decide, by decide, by decide, by decide⟩

end AdvisKV
