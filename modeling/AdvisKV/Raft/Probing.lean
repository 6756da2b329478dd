import AdvisKV.Lib.Rounds
import AdvisKV.Raft.Broadcast
import AdvisKV.Raft.CommitRule
import AdvisKV.Raft.CoreShape
import Mathlib.Data.List.TakeWhile

/-!
# AdvisKV — probing a follower

A leader looks for the point where a follower's log meets its own: it sends an AppendEntries, lowers its
next index when the follower refuses, and sends the log from there on once the follower accepts. This
module repeats the round of `build_append_entries_message`, `handle_append_entries` and
`handle_append_response` for one leader and one follower.

A follower refuses every `prev` entry below its own snapshot, and a leader never goes back behind an
index it knows to match. A leader whose next index lies below the follower's snapshot can therefore only
hope to go back to its own snapshot or to the very first entry.

Main results:

* `Aligned.search` — a round of the search settles the matter, finds the point or lowers the next index.
* `Streaming.reaches` — from the point where the logs meet the whole log gets across.
* `probing_settles_iff` — probing comes to an end exactly when the pair is not stuck.
-/

namespace AdvisKV

/-! ## Slices of a log -/

namespace RaftLog

variable {l l' : RaftLog} {i n : Nat} {es : List LogEntry}

/-- The slice a leader sends from an index its log still holds. -/
theorem entriesFrom_eq (hl : l.Consecutive) (hs : l.snapshotIndex < i) (hn : 0 < n) :
    l.entriesFrom i n = (l.logEntries.drop (i - l.snapshotIndex - 1)).take n := by
  unfold entriesFrom
  split
  · next hnone =>
    have hlen := lastLogIndex_eq hl
    have hpast : l.lastLogIndex < i := hnone.resolve_right (by omega)
    rw [List.drop_of_length_le (by omega), List.take_nil]
  · rw [if_neg (by omega)]

/-- A slice is as long as the message limit and the rest of the log allow. -/
theorem entriesFrom_length (hl : l.Consecutive) (hs : l.snapshotIndex < i) (hn : 0 < n) :
    (l.entriesFrom i n).length = min n (l.lastLogIndex + 1 - i) := by
  rw [entriesFrom_eq hl hs hn, List.length_take, List.length_drop, lastLogIndex_eq hl]
  omega

/-- The slice follows the entry in front of it without a gap. -/
theorem entriesFrom_consecutive (hl : l.Consecutive) (hs : l.snapshotIndex < i)
    (hlast : i ≤ l.lastLogIndex + 1) (hn : 0 < n) :
    ConsecutiveFrom (i - 1) (l.entriesFrom i n) := by
  have hlen := lastLogIndex_eq hl
  rw [entriesFrom_eq hl hs hn]
  have hdrop := ConsecutiveFrom.drop hl (n := i - l.snapshotIndex - 1) (by omega)
  rw [show l.snapshotIndex + (i - l.snapshotIndex - 1) = i - 1 by omega] at hdrop
  exact hdrop.take n

/-- The entries of a slice carry the terms of the log it was cut from. -/
theorem entriesFrom_term (hl : l.Consecutive) {k : Nat} {e : LogEntry} (hs : l.snapshotIndex < i) (hn : 0 < n)
    (hk : (l.entriesFrom i n)[k]? = some e) :
    l.termAt (i + k) = e.term := by
  rw [entriesFrom_eq hl hs hn, List.getElem?_take] at hk
  split at hk
  · refine termAt_of_entryAt ?_
    rw [entryAt, if_neg (by omega), ← hk, List.getElem?_drop]
    congr 1
    omega
  · cases hk

/-- A slice that begins behind the end of the log is a gap. -/
theorem le_lastLogIndex_of_merged (hl : l.Consecutive) {p : Nat} (hes : ConsecutiveFrom p es) (hne : es ≠ [])
    {out : RaftLog × LogAppendResult} (h : l.appendEntriesFromLeader es = .ok out) : p ≤ l.lastLogIndex := by
  by_contra hgap
  have hlen := lastLogIndex_eq hl
  rw [appendEntriesFromLeader, if_neg hne] at h
  obtain ⟨e, rest, rfl⟩ := List.exists_cons_of_ne_nil hne
  obtain ⟨he, -⟩ := ConsecutiveFrom.cons_iff.mp hes
  simp only [mergeEntries, mergeEntry_self] at h
  rw [if_neg (by omega), if_neg (by omega), if_neg (by omega)] at h
  cases h

/-- **After a merge** the log holds every entry of the slice above its snapshot. -/
theorem merged_termAt (hl : l.Consecutive) {p k : Nat} {e : LogEntry} {r : LogAppendResult}
    (hes : ConsecutiveFrom p es) (hp : p ≤ l.lastLogIndex) (h : l.appendEntriesFromLeader es = .ok (l', r))
    (hk : es[k]? = some e) (hs : l.snapshotIndex < p + k + 1) :
    l'.termAt (p + k + 1) = e.term ∧ p + k + 1 ≤ l'.lastLogIndex := by
  have hindex : e.index = p + k + 1 := hes k e hk
  obtain ⟨hsnap, -, hl'⟩ := appendEntriesFromLeader_consecutive hl hes hp h
  -- either the log held the whole slice, or the merge starts at the first entry it lacked
  rcases hm : l.missing es with _ | ⟨first, rest⟩
  · -- the log held the whole slice already
    rw [appendEntriesFromLeader_eq hl hes hp, hm] at h
    obtain ⟨rfl, -⟩ := Prod.mk.inj (Except.ok.inj h)
    have hheld : l.holds e = true := by
      have hall : es.dropWhile l.holds = [] := hm
      rw [List.dropWhile_eq_nil_iff] at hall
      exact hall e (List.mem_of_getElem? hk)
    simp only [holds, Bool.or_eq_true, Bool.and_eq_true, decide_eq_true_eq, hindex] at hheld
    rcases hheld with hbelow | ⟨hle, hterm⟩
    · omega
    · exact ⟨hterm, hle⟩
  · have hentry := appendEntriesFromLeader_entryAt hl hes hp h hm (p + k + 1)
    obtain ⟨held, hsplit, hheld, hidx, -, -, -⟩ := missing_cons hl hes hp hm
    by_cases hlt : p + k + 1 < first.index
    · -- the entry stands in front of the first missing one
      rw [if_pos hlt] at hentry
      have hmem : e ∈ held := by
        rw [hsplit, List.getElem?_append_left (by omega)] at hk
        exact List.mem_of_getElem? hk
      have hholds := hheld e hmem
      simp only [holds, Bool.or_eq_true, Bool.and_eq_true, decide_eq_true_eq, hindex] at hholds
      rcases hholds with hbelow | ⟨hle, hterm⟩
      · omega
      · obtain ⟨x, hx⟩ := Option.isSome_iff_exists.mp ((entryAt_isSome_iff hl).mpr ⟨hs, hle⟩)
        rw [hx] at hentry
        refine ⟨?_, ((entryAt_isSome_iff hl').mp (by rw [hentry]; rfl)).2⟩
        rw [termAt_of_entryAt hentry, ← termAt_of_entryAt hx, hterm]
    · rw [if_neg hlt, show p + k + 1 - p - 1 = k by omega, hk] at hentry
      exact ⟨termAt_of_entryAt hentry, ((entryAt_isSome_iff hl').mp (by rw [hentry]; rfl)).2⟩

/-- A log that may have grown by one entry of its own keeps all it had. -/
theorem Grown.spec (h : l.Grown l') (hl : l.Consecutive) :
    l'.Consecutive ∧ l'.snapshotIndex = l.snapshotIndex ∧ l.lastLogIndex ≤ l'.lastLogIndex ∧
      l'.lastLogIndex ≤ l.lastLogIndex + 1 ∧ ∀ i ≤ l.lastLogIndex, l'.termAt i = l.termAt i := by
  rcases h with rfl | ⟨term, param, rfl⟩
  · exact ⟨hl, rfl, le_rfl, by omega, fun _ _ => rfl⟩
  · have hlast := lastLogIndex_appendNewEntry hl term param
    exact ⟨appendNewEntry_consecutive hl term param, rfl, by omega, by omega, fun i hi =>
      termAt_appendNewEntry hl term param hi⟩

theorem termAt_snapshotIndex (hindex : l'.snapshotIndex = l.snapshotIndex)
    (hterm : l'.snapshotTerm = l.snapshotTerm) :
    l'.termAt l.snapshotIndex = l.termAt l.snapshotIndex := by
  simp [termAt, hindex, hterm]

end RaftLog

/-! ## The two handlers -/

namespace CoreState

variable {param : AppendEntriesParam}

/-- The answer to a message of the current leader names its term and the last index before the merge. -/
theorem handleAppendEntries_frame {s : CoreState}
    (hmember : s.core.membership.contains param.fromReplicaId = true)
    (hterm : s.core.election.currentTerm ≤ param.term) :
    let r := s.handleAppendEntries param
    r.1.term = param.term ∧ r.1.lastLogIndex = s.core.lastLogIndex ∧
      r.2.core.membership = s.core.membership ∧ r.2.core.currentTerm = param.term := by
  have haccept : ∀ (s : CoreState) (lc : Nat),
      (s.acceptAppend lc).core.membership = s.core.membership := by
    intro s lc
    simp only [acceptAppend, RaftCore.finishRecovering_eq]
  obtain ⟨hfollow, -⟩ := followLeader_election hterm
  have hmem := followLeader_membership s param.term
  simp only [handleAppendEntries]
  rw [if_neg (by simpa using hmember), if_neg (Nat.not_lt.mpr hterm)]
  split
  · exact ⟨hfollow, rfl, hmem, hfollow⟩
  split
  · refine ⟨hfollow, rfl, (haccept _ _).trans hmem, ?_⟩
    rw [RaftCore.currentTerm, (acceptAppend_core _ _).2.2.1]
    exact hfollow
  split
  · exact ⟨hfollow, rfl, hmem, hfollow⟩
  · refine ⟨hfollow, rfl, (haccept _ _).trans hmem, ?_⟩
    rw [RaftCore.currentTerm, (acceptAppend_core _ _).2.2.1]
    exact hfollow

/-- A slice that starts where the two logs meet is accepted. -/
theorem handleAppendEntries_accepts {s : CoreState}
    (hmember : s.core.membership.contains param.fromReplicaId = true)
    (hterm : s.core.election.currentTerm ≤ param.term) (hlog : s.core.raftLog.Consecutive)
    (hslice : RaftLog.ConsecutiveFrom param.prevLogIndex param.entries)
    (hprev : prevLogMatches s.core.raftLog param = true)
    (hle : param.prevLogIndex ≤ s.core.raftLog.lastLogIndex) :
    (s.handleAppendEntries param).1.success = true := by
  simp only [handleAppendEntries]
  rw [if_neg (by simpa using hmember), if_neg (Nat.not_lt.mpr hterm), if_neg (by simpa using hprev)]
  split
  · rfl
  · rw [followLeader_raftLog, RaftLog.appendEntriesFromLeader_eq hlog hslice hle]
    rcases s.core.raftLog.missing param.entries with _ | ⟨e, rest⟩ <;> rfl

section Response

variable {c : RaftCore} {id : ReplicaID} {sent : AppendEntriesParam} {result : AppendEntriesResult}

/-- An answer of the leader's own term to its last probe is handled. -/
theorem handleAppendResponse_fresh (hlead : c.Leads) (hsent : sent.term = c.currentTerm)
    (hresult : result.term = c.currentTerm)
    (hfresh : sent.prevLogIndex + 1 = c.replication.nextIndex id) :
    (handleAppendResponse { core := c } id sent result).2.core =
      if result.success then
        CoreState.core (CoreState.tryUpdateCommitIndex { core := { c with
          replication := c.replication.handlePeerAppendOk id sent.prevLogIndex
            sent.entries.length } }).maybePromoteReadyLearner
      else { c with replication :=
        c.replication.handlePeerAppendFailed id result.lastLogIndex c.lastLogIndex } := by
  have hready : c.ensureReady.fail = false := RaftCore.ensureReady_fail_eq_false.mpr hlead.ready
  have hleader : c.election.isLeader = true := by simp [RaftElection.isLeader, hlead.role]
  have hstale : c.replication.isStaleAppendResponse id sent = false := by
    simp [RaftReplication.isStaleAppendResponse, hfresh]
  unfold RaftCore.currentTerm at hsent hresult
  simp only [handleAppendResponse, hready, hsent, hresult, hleader, hstale, lt_irrefl, ne_eq,
    not_true_eq_false, Bool.not_true, Bool.false_eq_true, if_false]
  split <;> rfl

/-- An acceptance touches only the progress of the sender, besides a promotion the leader may propose. -/
theorem handleAppendResponse_accepted (hlead : c.Leads) (hsent : sent.term = c.currentTerm)
    (hresult : result.term = c.currentTerm)
    (hfresh : sent.prevLogIndex + 1 = c.replication.nextIndex id) (hyes : result.success = true) :
    let c' := (handleAppendResponse { core := c } id sent result).2.core
    RaftCore.Attends { c with
      replication := c.replication.handlePeerAppendOk id sent.prevLogIndex sent.entries.length } c' ∧
      c.raftLog.Grown c'.raftLog := by
  rw [handleAppendResponse_fresh hlead hsent hresult hfresh, if_pos hyes]
  obtain ⟨htried, hlog⟩ := tryUpdateCommitIndex_attends { core := { c with
    replication := c.replication.handlePeerAppendOk id sent.prevLogIndex sent.entries.length } }
  obtain ⟨hpromoted, hgrown⟩ := maybePromoteReadyLearner_attends
    (CoreState.tryUpdateCommitIndex { core := { c with
      replication := c.replication.handlePeerAppendOk id sent.prevLogIndex sent.entries.length } })
  rw [hlog] at hgrown
  exact ⟨htried.trans hpromoted, hgrown⟩

end Response

end CoreState

/-! ## One round -/

/-- A leader and one of its followers between two rounds. -/
structure ProbePair where
  leader : RaftCore
  follower : RaftCore

namespace ProbePair

/-- What `build_append_entries_message` makes of the leader's progress for `target`. -/
def built (target : PeerMember) (p : ProbePair) : RaftReplication × Option RaftMessage :=
  p.leader.replication.buildAppendEntriesMessage p.leader.selfId p.leader.raftLog p.leader.raftApply
    target (p.leader.replication.nextIndex target.replicaId) p.leader.election.currentTerm

/-- The follower's `handle_append_entries`. -/
def answer (p : ProbePair) (param : AppendEntriesParam) : AppendEntriesResult × CoreState :=
  CoreState.handleAppendEntries { core := p.follower } param

/-- One message, its answer, and what the leader makes of the answer. -/
def round (target : PeerMember) (p : ProbePair) : ProbePair :=
  let leader := { p.leader with replication := (p.built target).1 }
  match (p.built target).2 with
  | some (.appendEntries _ param) =>
    { leader := (CoreState.handleAppendResponse { core := leader } target.replicaId param
        (p.answer param).1).2.core
      follower := (p.answer param).2.core }
  | _ => { p with leader }

/-- The leader sends its snapshot, or has sent it and waits for the transfer. -/
def SendsSnapshot (target : PeerMember) (p : ProbePair) : Prop :=
  (∃ param, (p.built target).2 = some (.installSnapshot target param)) ∨
    (0 < p.leader.replication.inflightSnapshotIndex target.replicaId ∧ (p.built target).2 = none)

/-- The follower accepts, and the answer brings the match index to the leader's last index. -/
def CatchesUp (target : PeerMember) (p : ProbePair) : Prop :=
  ∃ param, (p.built target).2 = some (.appendEntries target param) ∧ (p.answer param).1.success = true ∧
    (p.round target).leader.replication.matchIndex target.replicaId = p.leader.lastLogIndex

/-- The pairs the leader may find itself in. The follower knows the leader and is not ahead of its term;
what the follower has committed, its snapshot included, agrees with the leader's log; the progress lies
inside the leader's log and what counts as matched does match. -/
structure Consistent (target : PeerMember) (p : ProbePair) : Prop where
  leads : p.leader.Leads
  term_le : p.follower.currentTerm ≤ p.leader.currentTerm
  member : p.follower.membership.contains p.leader.selfId = true
  leaderLog : p.leader.raftLog.Consecutive
  followerLog : p.follower.raftLog.Consecutive
  snapshot_le : p.follower.snapshotIndex ≤ p.follower.commitIndex
  commit_le : p.follower.commitIndex ≤ p.follower.lastLogIndex
  commit_le_leader : p.follower.commitIndex ≤ p.leader.lastLogIndex
  committed : ∀ i ≤ p.follower.commitIndex, p.leader.snapshotIndex ≤ i → p.follower.snapshotIndex ≤ i →
    p.leader.raftLog.termAt i = p.follower.raftLog.termAt i
  match_lt : p.leader.replication.matchIndex target.replicaId <
    p.leader.replication.nextIndex target.replicaId
  next_le : p.leader.replication.nextIndex target.replicaId ≤ p.leader.lastLogIndex + 1
  match_le : p.leader.replication.matchIndex target.replicaId ≤ p.follower.lastLogIndex
  matching : ∀ i ≤ p.leader.replication.matchIndex target.replicaId, p.leader.snapshotIndex ≤ i →
    p.follower.snapshotIndex ≤ i → p.leader.raftLog.termAt i = p.follower.raftLog.termAt i

/-- The part of consistency that every round keeps. -/
structure Aligned (target : PeerMember) (p : ProbePair) : Prop where
  leads : p.leader.Leads
  term_le : p.follower.currentTerm ≤ p.leader.currentTerm
  member : p.follower.membership.contains p.leader.selfId = true
  leaderLog : p.leader.raftLog.Consecutive
  followerLog : p.follower.raftLog.Consecutive
  snapshot_le : p.follower.snapshotIndex ≤ p.leader.lastLogIndex
  snapshot_eq : p.leader.snapshotIndex ≤ p.follower.snapshotIndex →
    p.leader.raftLog.termAt p.follower.snapshotIndex = p.follower.raftLog.termAt p.follower.snapshotIndex
  match_lt : p.leader.replication.matchIndex target.replicaId <
    p.leader.replication.nextIndex target.replicaId
  next_le : p.leader.replication.nextIndex target.replicaId ≤ p.leader.lastLogIndex + 1
  match_le : p.leader.replication.matchIndex target.replicaId ≤ p.follower.lastLogIndex
  match_eq : p.leader.snapshotIndex ≤ p.leader.replication.matchIndex target.replicaId →
    p.follower.snapshotIndex ≤ p.leader.replication.matchIndex target.replicaId →
    p.leader.raftLog.termAt (p.leader.replication.matchIndex target.replicaId) =
      p.follower.raftLog.termAt (p.leader.replication.matchIndex target.replicaId)

variable {target : PeerMember} {p : ProbePair}

/-- A consistent pair is aligned. -/
theorem Consistent.aligned (h : p.Consistent target) : p.Aligned target where
  leads := h.leads
  term_le := h.term_le
  member := h.member
  leaderLog := h.leaderLog
  followerLog := h.followerLog
  snapshot_le := h.snapshot_le.trans h.commit_le_leader
  snapshot_eq hle := h.committed _ h.snapshot_le hle le_rfl
  match_lt := h.match_lt
  next_le := h.next_le
  match_le := h.match_le
  match_eq hl hf := h.matching _ le_rfl hl hf

/-- The message is an AppendEntries as long as the leader's snapshot has not swallowed its `prev` entry. -/
theorem built_append (h : p.leader.snapshotIndex <
    p.leader.replication.nextIndex target.replicaId) :
    p.built target = (p.leader.replication, some (.appendEntries target
      (p.leader.appendParam target (p.leader.replication.nextIndex target.replicaId)))) := by
  have hprev : ¬ p.leader.replication.nextIndex target.replicaId - 1 < p.leader.raftLog.snapshotIndex := by
    unfold RaftCore.snapshotIndex at h
    omega
  simp only [built, RaftReplication.buildAppendEntriesMessage, if_neg hprev]
  rfl

/-- The snapshot is sent exactly when the next index has fallen to it. -/
theorem sendsSnapshot_iff (hpos : 0 < p.leader.replication.nextIndex target.replicaId) :
    p.SendsSnapshot target ↔
      p.leader.replication.nextIndex target.replicaId ≤ p.leader.snapshotIndex := by
  constructor
  · intro h
    by_contra hlt
    rw [SendsSnapshot, built_append (Nat.lt_of_not_le hlt)] at h
    rcases h with ⟨_, h⟩ | ⟨-, h⟩ <;> cases h
  · intro h
    have hprev : p.leader.replication.nextIndex target.replicaId - 1 <
        p.leader.raftLog.snapshotIndex := by
      unfold RaftCore.snapshotIndex at h
      omega
    simp only [SendsSnapshot, built, RaftReplication.buildAppendEntriesMessage, if_pos hprev,
      RaftReplication.markSnapshotInflight]
    by_cases hfl : 0 < p.leader.replication.inflightSnapshotIndex target.replicaId
    · simp [hfl]
    · simp [hfl]

/-! ## A refused and an accepted round -/

/-- The AppendEntries of this round. -/
def param (target : PeerMember) (p : ProbePair) : AppendEntriesParam :=
  p.leader.appendParam target (p.leader.replication.nextIndex target.replicaId)

theorem round_append (h : p.leader.snapshotIndex < p.leader.replication.nextIndex target.replicaId) :
    p.round target =
      { leader := (CoreState.handleAppendResponse { core := p.leader } target.replicaId (p.param target)
          (p.answer (p.param target)).1).2.core
        follower := (p.answer (p.param target)).2.core } := by
  simp only [round, built_append h]
  rfl

/-- The next index after a refusal. -/
def lowered (next matched followerLast leaderLast : Nat) : Nat :=
  max (if next ≤ min followerLast leaderLast + 1 ∧ 1 < next then next - 1
    else min followerLast leaderLast + 1) (matched + 1)

namespace Aligned

variable (h : p.Aligned target)

include h

theorem fresh : (p.param target).prevLogIndex + 1 = p.leader.replication.nextIndex target.replicaId := by
  have hlt := h.match_lt
  show p.leader.replication.nextIndex target.replicaId - 1 + 1 = _
  omega

theorem answer_frame :
    (p.answer (p.param target)).1.term = p.leader.currentTerm ∧
      (p.answer (p.param target)).1.lastLogIndex = p.follower.lastLogIndex ∧
      (p.answer (p.param target)).2.core.membership = p.follower.membership ∧
      (p.answer (p.param target)).2.core.currentTerm = p.leader.currentTerm :=
  CoreState.handleAppendEntries_frame (s := { core := p.follower }) h.member h.term_le

variable (hs : p.leader.snapshotIndex < p.leader.replication.nextIndex target.replicaId)

include hs

/-- The slice of this round continues the leader's log behind its `prev` entry. -/
theorem slice :
    RaftLog.ConsecutiveFrom (p.param target).prevLogIndex (p.param target).entries ∧
      (p.param target).entries.length = min maxAppendEntriesPerMessage
        (p.leader.lastLogIndex - (p.param target).prevLogIndex) := by
  have hfresh := h.fresh
  refine ⟨RaftLog.entriesFrom_consecutive h.leaderLog hs h.next_le (by decide), ?_⟩
  rw [show (p.param target).entries = p.leader.raftLog.entriesFrom
    (p.leader.replication.nextIndex target.replicaId) maxAppendEntriesPerMessage from rfl,
    RaftLog.entriesFrom_length h.leaderLog hs (by decide), RaftCore.lastLogIndex]
  omega

/-- The slice has entries while there is something left to send. -/
theorem entries_ne_nil (hmore : (p.param target).prevLogIndex < p.leader.lastLogIndex) :
    (p.param target).entries ≠ [] := by
  have hmax : 0 < maxAppendEntriesPerMessage := by decide
  rw [← List.length_pos_iff, (h.slice hs).2]
  omega

section Refused

variable (hno : (p.answer (p.param target)).1.success = false)

include hno

/-- A refusal lowers the next index, but not to or below the match index. -/
theorem refused :
    (p.round target).leader = { p.leader with
        replication := p.leader.replication.handlePeerAppendFailed target.replicaId
          p.follower.lastLogIndex p.leader.lastLogIndex } ∧
      (p.round target).follower.raftLog = p.follower.raftLog ∧
      (p.round target).follower.membership = p.follower.membership ∧
      (p.round target).follower.currentTerm = p.leader.currentTerm := by
  obtain ⟨hterm, hlast, hmember, hcur⟩ := h.answer_frame
  rw [round_append hs]
  refine ⟨?_, ?_, hmember, hcur⟩
  · rw [CoreState.handleAppendResponse_fresh h.leads rfl hterm h.fresh, if_neg (by simp [hno]), hlast]
  · rcases CoreState.handleAppendEntries_failure hno with hsame | ⟨-, hfollow⟩
    · exact congrArg (fun s : CoreState => s.core.raftLog) hsame
    · exact (congrArg (fun s : CoreState => s.core.raftLog) hfollow).trans
        (CoreState.followLeader_raftLog _ _)

/-- A refusal moves neither snapshot. -/
theorem refused_snapshots :
    (p.round target).leader.snapshotIndex = p.leader.snapshotIndex ∧
      (p.round target).follower.snapshotIndex = p.follower.snapshotIndex := by
  obtain ⟨hleader, hlog, -, -⟩ := h.refused hs hno
  refine ⟨by rw [hleader]; rfl, ?_⟩
  rw [RaftCore.snapshotIndex, hlog]
  rfl

/-- What a refusal does to the progress of the follower. -/
theorem refused_progress :
    (p.round target).leader.replication.matchIndex target.replicaId =
        p.leader.replication.matchIndex target.replicaId ∧
      (p.round target).leader.replication.nextIndex target.replicaId =
        lowered (p.leader.replication.nextIndex target.replicaId)
          (p.leader.replication.matchIndex target.replicaId) p.follower.lastLogIndex
          p.leader.lastLogIndex := by
  rw [(h.refused hs hno).1]
  simp [RaftReplication.handlePeerAppendFailed, RaftReplication.updateNextIndex, lowered]

/-- A refused round keeps the pair aligned. -/
theorem of_refused : (p.round target).Aligned target := by
  obtain ⟨hleader, hlog, hmember, hterm⟩ := h.refused hs hno
  obtain ⟨hmatch, hnext⟩ := h.refused_progress hs hno
  have hlower := h.match_lt
  have hupper := h.next_le
  -- nothing but the next index of the target and the follower's election state has moved
  have hL : (p.round target).leader.raftLog = p.leader.raftLog := by rw [hleader]
  have hbounds : p.leader.replication.matchIndex target.replicaId <
        (p.round target).leader.replication.nextIndex target.replicaId ∧
      (p.round target).leader.replication.nextIndex target.replicaId ≤ p.leader.lastLogIndex + 1 := by
    rw [hnext, lowered]
    split <;> omega
  refine ⟨⟨?_, ?_⟩, ?_, ?_, ?_, ?_, ?_, ?_, ?_, ?_, ?_, ?_⟩
  · rw [hleader]
    exact h.leads.ready
  · rw [hleader]
    exact h.leads.role
  · rw [hterm, hleader]
    exact le_rfl
  · rw [hmember, hleader]
    exact h.member
  · rw [hL]
    exact h.leaderLog
  · rw [hlog]
    exact h.followerLog
  · simp only [RaftCore.snapshotIndex, RaftCore.lastLogIndex, hL, hlog]
    exact h.snapshot_le
  · simp only [RaftCore.snapshotIndex, hL, hlog]
    exact h.snapshot_eq
  · rw [hmatch]
    exact hbounds.1
  · simp only [RaftCore.lastLogIndex, hL]
    exact hbounds.2
  · simp only [RaftCore.lastLogIndex, hmatch, hlog]
    exact h.match_le
  · simp only [RaftCore.snapshotIndex, hmatch, hL, hlog]
    exact h.match_eq

end Refused

section Accepted

variable (hyes : (p.answer (p.param target)).1.success = true)

include hyes

/-- An acceptance moves the progress behind the slice; the leader's log may have grown meanwhile. -/
theorem accepted :
    (p.round target).leader.Leads ∧ (p.round target).leader.selfId = p.leader.selfId ∧
      (p.round target).leader.currentTerm = p.leader.currentTerm ∧
      p.leader.raftLog.Grown (p.round target).leader.raftLog ∧
      (p.round target).leader.replication.matchIndex target.replicaId =
        (p.param target).prevLogIndex + (p.param target).entries.length ∧
      (p.round target).leader.replication.nextIndex target.replicaId =
        (p.param target).prevLogIndex + (p.param target).entries.length + 1 := by
  obtain ⟨hterm, -, -, -⟩ := h.answer_frame
  have hfresh := h.fresh
  have hlt := h.match_lt
  obtain ⟨hattends, hgrown⟩ := CoreState.handleAppendResponse_accepted h.leads rfl hterm hfresh hyes
  -- the match index never moves back, and it lies below the slice
  have hok : (p.leader.replication.handlePeerAppendOk target.replicaId (p.param target).prevLogIndex
        (p.param target).entries.length).matchIndex target.replicaId =
        (p.param target).prevLogIndex + (p.param target).entries.length ∧
      (p.leader.replication.handlePeerAppendOk target.replicaId (p.param target).prevLogIndex
        (p.param target).entries.length).nextIndex target.replicaId =
        (p.param target).prevLogIndex + (p.param target).entries.length + 1 := by
    simp only [RaftReplication.handlePeerAppendOk]
    split
    · simp [RaftReplication.updateMatchIndex, RaftReplication.updateNextIndex]
    · simp only [RaftReplication.updateNextIndex, Function.update_self]
      omega
  rw [round_append hs]
  refine ⟨⟨hattends.recovering.trans h.leads.ready, ?_⟩, hattends.selfId, ?_, hgrown, ?_, ?_⟩
  · rw [hattends.election]
    exact h.leads.role
  · rw [RaftCore.currentTerm, hattends.election]
    rfl
  · rw [hattends.matchIndex]
    exact hok.1
  · rw [hattends.nextIndex _ (by rw [hok.2]; omega)]
    exact hok.2

/-- An accepted slice with entries, seen from the follower: it held the `prev` entry, and afterwards it
holds the end of the slice. -/
theorem accepted_follower (hne : (p.param target).entries ≠ []) :
    let last := (p.param target).prevLogIndex + (p.param target).entries.length
    let log := (p.round target).follower.raftLog
    log.Consecutive ∧ log.snapshotIndex = p.follower.raftLog.snapshotIndex ∧
      log.snapshotTerm = p.follower.raftLog.snapshotTerm ∧ last ≤ log.lastLogIndex ∧
      (p.follower.raftLog.snapshotIndex ≤ last → log.termAt last = p.leader.raftLog.termAt last) := by
  intro last log
  obtain ⟨hslice, -⟩ := h.slice hs
  obtain ⟨r, hmerge⟩ := (CoreState.handleAppendEntries_success hyes).merged
  have hlog : log = (p.answer (p.param target)).2.core.raftLog := by
    show (p.round target).follower.raftLog = _
    rw [round_append hs]
  rw [show (CoreState.handleAppendEntries { core := p.follower } (p.param target)).2.core.raftLog = log
    from hlog.symm] at hmerge
  -- a slice with entries that is accepted does not start behind a gap
  have hprev := RaftLog.le_lastLogIndex_of_merged h.followerLog hslice hne hmerge
  obtain ⟨hsnap, hsterm, hcons⟩ := RaftLog.appendEntriesFromLeader_consecutive h.followerLog hslice hprev
    hmerge
  have hpos : 0 < (p.param target).entries.length := List.length_pos_iff.mpr hne
  obtain ⟨e, he⟩ : ∃ e, (p.param target).entries[(p.param target).entries.length - 1]? = some e :=
    ⟨_, List.getElem?_eq_getElem (by omega)⟩
  have hend : (p.param target).prevLogIndex + ((p.param target).entries.length - 1) + 1 = last := by omega
  have hLterm : p.leader.raftLog.termAt last = e.term := by
    have hterm := RaftLog.entriesFrom_term h.leaderLog hs (by decide) he
    rwa [← h.fresh, show (p.param target).prevLogIndex + 1 + ((p.param target).entries.length - 1) = last
      by omega] at hterm
  have hfirst : p.follower.snapshotIndex ≤ log.lastLogIndex := by
    have := RaftLog.snapshotIndex_le_lastLogIndex hcons
    unfold RaftCore.snapshotIndex
    omega
  -- entries at or below the follower's snapshot are skipped by the merge
  refine ⟨hcons, hsnap, hsterm, ?_, fun hle => ?_⟩
  · by_cases hbelow : p.follower.raftLog.snapshotIndex < last
    · have hheld := RaftLog.merged_termAt h.followerLog hslice hprev hmerge he (by omega)
      rw [hend] at hheld
      exact hheld.2
    · unfold RaftCore.snapshotIndex at hfirst
      omega
  · rcases Nat.lt_or_ge p.follower.raftLog.snapshotIndex last with hbelow | hat
    · have hheld := RaftLog.merged_termAt h.followerLog hslice hprev hmerge he (by omega)
      rw [hend] at hheld
      rw [hheld.1, hLterm]
    · -- the slice ends at the follower's own snapshot
      have hsame : last = p.follower.raftLog.snapshotIndex := le_antisymm hat hle
      rw [hsame, RaftLog.termAt_snapshotIndex hsnap hsterm]
      refine (h.snapshot_eq ?_).symm
      have hfresh := h.fresh
      unfold RaftCore.snapshotIndex at hs ⊢
      omega

/-- Nor does an acceptance. -/
theorem accepted_snapshots (hmore : (p.param target).prevLogIndex < p.leader.lastLogIndex) :
    (p.round target).leader.snapshotIndex = p.leader.snapshotIndex ∧
      (p.round target).follower.snapshotIndex = p.follower.snapshotIndex := by
  obtain ⟨-, -, -, hgrown, -, -⟩ := h.accepted hs hyes
  obtain ⟨-, hsnap, -, -, -⟩ := hgrown.spec h.leaderLog
  obtain ⟨-, hfsnap, -, -, -⟩ := h.accepted_follower hs hyes (h.entries_ne_nil hs hmore)
  exact ⟨hsnap, hfsnap⟩

/-- An accepted round that does not reach the end of the log keeps the pair aligned. -/
theorem of_accepted (hmore : (p.param target).prevLogIndex < p.leader.lastLogIndex) :
    (p.round target).Aligned target := by
  obtain ⟨-, hlen⟩ := h.slice hs
  have hmax : 0 < maxAppendEntriesPerMessage := by decide
  have hne := h.entries_ne_nil hs hmore
  obtain ⟨hleads, hself, hterm, hgrown, hmatch, hnext⟩ := h.accepted hs hyes
  obtain ⟨hcons, hsnap, hsterm, hlast, hend⟩ := h.accepted_follower hs hyes hne
  obtain ⟨hL, hLsnap, hLlast, -, hLterm⟩ := hgrown.spec h.leaderLog
  obtain ⟨-, -, hmember, hcur⟩ := h.answer_frame
  have hfollower : (p.round target).follower = (p.answer (p.param target)).2.core := by
    rw [round_append hs]
  have hsnapshot := h.snapshot_le
  unfold RaftCore.snapshotIndex RaftCore.lastLogIndex at hsnapshot
  unfold RaftCore.lastLogIndex at hlen hmore
  refine ⟨hleads, ?_, ?_, hL, hcons, ?_, fun hle => ?_, ?_, ?_, ?_, fun hl hf => ?_⟩
  · rw [hfollower, hcur, hterm]
  · rw [hfollower, hmember, hself]
    exact h.member
  · unfold RaftCore.snapshotIndex RaftCore.lastLogIndex
    omega
  · unfold RaftCore.snapshotIndex at hle ⊢
    rw [hsnap] at hle ⊢
    rw [hLterm _ hsnapshot, RaftLog.termAt_snapshotIndex hsnap hsterm]
    exact h.snapshot_eq (by unfold RaftCore.snapshotIndex; omega)
  · omega
  · unfold RaftCore.lastLogIndex
    omega
  · rw [hmatch]
    exact hlast
  · -- the last entry of the slice is where both logs agree next
    unfold RaftCore.snapshotIndex at hf
    rw [hmatch] at hf ⊢
    rw [hLterm _ (by omega)]
    exact (hend (by omega)).symm

/-- An acceptance of the rest of the log is what the leader is after. -/
theorem catchesUp
    (hall : p.leader.lastLogIndex ≤ (p.param target).prevLogIndex + maxAppendEntriesPerMessage) :
    p.CatchesUp target := by
  obtain ⟨-, hlen⟩ := h.slice hs
  have hfresh := h.fresh
  have hle := h.next_le
  refine ⟨p.param target, by rw [built_append hs]; rfl, hyes, ?_⟩
  obtain ⟨-, -, -, -, hmatch, -⟩ := h.accepted hs hyes
  omega

end Accepted

/-- A follower that holds the `prev` entry, not below its snapshot, accepts. -/
theorem accepts_of_eq
    (hsnap : 0 < (p.param target).prevLogIndex →
      p.follower.snapshotIndex ≤ (p.param target).prevLogIndex)
    (hlast : (p.param target).prevLogIndex ≤ p.follower.lastLogIndex)
    (heq : 0 < (p.param target).prevLogIndex → p.leader.raftLog.termAt (p.param target).prevLogIndex =
      p.follower.raftLog.termAt (p.param target).prevLogIndex) :
    (p.answer (p.param target)).1.success = true := by
  have hprev : CoreState.prevLogMatches p.follower.raftLog (p.param target) = true := by
    unfold CoreState.prevLogMatches
    split
    · next hpos =>
      have hnot : ¬ (p.param target).prevLogIndex < p.follower.raftLog.snapshotIndex :=
        Nat.not_lt.mpr (hsnap hpos)
      rw [if_neg hnot]
      exact beq_iff_eq.mpr (heq hpos).symm
    · rfl
  exact CoreState.handleAppendEntries_accepts (s := { core := p.follower }) h.member h.term_le
    h.followerLog (h.slice hs).1 hprev hlast

end Aligned

/-- An accepted `prev` is 0 or lies at or above the follower's snapshot. -/
theorem prev_of_accepted (hyes : (p.answer (p.param target)).1.success = true) :
    (p.param target).prevLogIndex = 0 ∨ p.follower.snapshotIndex ≤ (p.param target).prevLogIndex := by
  have hmatches := (CoreState.handleAppendEntries_success hyes).prev
  by_contra hbelow
  have hlow : 0 < (p.param target).prevLogIndex ∧
      (p.param target).prevLogIndex < p.follower.raftLog.snapshotIndex := by
    unfold RaftCore.snapshotIndex at hbelow
    omega
  simp [CoreState.prevLogMatches, hlow] at hmatches

/-! ## Sending the log -/

/-- The leader has found the point where the logs meet. -/
structure Streaming (target : PeerMember) (p : ProbePair) : Prop extends Aligned target p where
  next_eq : p.leader.replication.nextIndex target.replicaId =
    p.leader.replication.matchIndex target.replicaId + 1
  leader_le : p.leader.snapshotIndex ≤ p.leader.replication.matchIndex target.replicaId
  follower_le : p.follower.snapshotIndex ≤ p.leader.replication.matchIndex target.replicaId

/-- While the log is sent, every round brings the leader closer to the end of it. -/
theorem Streaming.round (h : p.Streaming target) :
    p.CatchesUp target ∨ (p.round target).Streaming target ∧
      (p.round target).leader.lastLogIndex -
          (p.round target).leader.replication.matchIndex target.replicaId <
        p.leader.lastLogIndex - p.leader.replication.matchIndex target.replicaId := by
  have hfresh := h.fresh
  have hnext := h.next_eq
  have hleader := h.leader_le
  have hfollower := h.follower_le
  have hs : p.leader.snapshotIndex < p.leader.replication.nextIndex target.replicaId := by omega
  have hprev : (p.param target).prevLogIndex = p.leader.replication.matchIndex target.replicaId := by
    omega
  have hyes := h.accepts_of_eq hs (fun _ => hprev ▸ hfollower) (hprev ▸ h.match_le)
    (fun _ => hprev ▸ h.match_eq hleader hfollower)
  -- the last slice settles the matter; every other one is full
  by_cases hall : p.leader.lastLogIndex ≤ (p.param target).prevLogIndex + maxAppendEntriesPerMessage
  · exact Or.inl (h.catchesUp hs hyes hall)
  · right
    have haligned := h.of_accepted hs hyes (by omega)
    obtain ⟨-, hlen⟩ := h.slice hs
    obtain ⟨-, -, -, hgrown, hmatch, hnext'⟩ := h.accepted hs hyes
    obtain ⟨-, -, -, hlast, -⟩ := hgrown.spec h.leaderLog
    obtain ⟨hsnap, hfsnap⟩ := h.accepted_snapshots hs hyes (by omega)
    have hmax : maxAppendEntriesPerMessage = 256 := rfl
    unfold RaftCore.lastLogIndex at *
    exact ⟨⟨haligned, by omega, by omega, by omega⟩, by omega⟩

/-- **Streaming** brings the whole log across. -/
theorem Streaming.reaches (h : p.Streaming target) :
    ∃ n, ((ProbePair.round target)^[n] p).CatchesUp target := by
  have hround := fun (q : ProbePair) (hq : q.Streaming target) => hq.round
  exact Rounds.reaches (μ := fun q => q.leader.lastLogIndex -
    q.leader.replication.matchIndex target.replicaId) hround h

/-! ## Looking for the point where the logs meet -/

/-- The follower's snapshot lies above every index the leader can come to: the leader will neither go
back to its own snapshot nor get past the follower's. -/
def Stuck (target : PeerMember) (p : ProbePair) : Prop :=
  p.leader.snapshotIndex ≤ p.leader.replication.matchIndex target.replicaId ∧
    p.leader.replication.nextIndex target.replicaId ≤ p.follower.snapshotIndex ∧
    (0 < p.leader.replication.matchIndex target.replicaId ∨
      maxAppendEntriesPerMessage < p.follower.snapshotIndex)

/-- What the leader is after. -/
def Settles (target : PeerMember) (p : ProbePair) : Prop := p.CatchesUp target ∨ p.SendsSnapshot target

/-- A round of the search that does not settle the matter: the leader has found the point, or it goes on
with a lower next index and is still not stuck. -/
theorem Aligned.search (h : p.Aligned target) (hfree : ¬ p.Stuck target) :
    (p.Settles target ∨ (p.round target).Streaming target) ∨
      ((p.round target).Aligned target ∧ ¬ (p.round target).Stuck target) ∧
        (p.round target).leader.replication.nextIndex target.replicaId <
          p.leader.replication.nextIndex target.replicaId := by
  have hfresh := h.fresh
  have hlt := h.match_lt
  by_cases hs : p.leader.snapshotIndex < p.leader.replication.nextIndex target.replicaId
  -- the next entry is in the leader's snapshot, which is sent instead
  swap
  · exact Or.inl (Or.inl (Or.inr ((sendsSnapshot_iff (by omega)).mpr (by omega))))
  have hsnaps := h.snapshot_le
  have hslast : p.follower.snapshotIndex ≤ p.follower.lastLogIndex :=
    RaftLog.snapshotIndex_le_lastLogIndex h.followerLog
  by_cases hyes : (p.answer (p.param target)).1.success = true
  · left
    by_cases hall : p.leader.lastLogIndex ≤ (p.param target).prevLogIndex + maxAppendEntriesPerMessage
    · exact Or.inl (Or.inl (h.catchesUp hs hyes hall))
    · right
      have haligned := h.of_accepted hs hyes (by omega)
      obtain ⟨-, hlen⟩ := h.slice hs
      obtain ⟨-, -, -, -, hmatch, hnext⟩ := h.accepted hs hyes
      obtain ⟨hsnap, hfsnap⟩ := h.accepted_snapshots hs hyes (by omega)
      have hprev := prev_of_accepted hyes
      unfold Stuck at hfree
      exact ⟨haligned, by omega, by omega, by omega⟩
  · right
    have hno : (p.answer (p.param target)).1.success = false := Bool.eq_false_of_not_eq_true hyes
    obtain ⟨hmatch, hnext⟩ := h.refused_progress hs hno
    obtain ⟨hleader, hfollower⟩ := h.refused_snapshots hs hno
    -- the two places where a refusal would contradict what the logs agree on
    have hatMatch : (p.param target).prevLogIndex = p.leader.replication.matchIndex target.replicaId →
        0 < (p.param target).prevLogIndex ∧ (p.param target).prevLogIndex < p.follower.snapshotIndex := by
      intro heq
      by_contra hpast
      refine hyes (h.accepts_of_eq hs (fun hpos => by omega) (heq ▸ h.match_le) fun hpos => ?_)
      rw [heq]
      exact h.match_eq (by omega) (by omega)
    have hatSnapshot : (p.param target).prevLogIndex ≠ p.follower.snapshotIndex ∨
        p.follower.snapshotIndex = 0 := by
      by_contra hat
      rw [not_or, not_not] at hat
      refine hyes (h.accepts_of_eq hs (fun _ => by omega) (by omega) fun _ => ?_)
      rw [hat.1]
      exact h.snapshot_eq (by omega)
    unfold Stuck at hfree ⊢
    rw [hleader, hfollower, hmatch, hnext, lowered]
    refine ⟨⟨h.of_refused hs hno, ?_⟩, ?_⟩ <;> split <;> omega

/-- A stuck leader stays stuck: it goes down to its match index, or sends the first slice in vain. -/
theorem Stuck.round (h : p.Aligned target) (hstuck : p.Stuck target) :
    ¬ p.Settles target ∧ (p.round target).Aligned target ∧ (p.round target).Stuck target := by
  have hfresh := h.fresh
  have hlt := h.match_lt
  obtain ⟨hleader, hfollower, hfar⟩ := hstuck
  have hs : p.leader.snapshotIndex < p.leader.replication.nextIndex target.replicaId := by omega
  have hsnaps := h.snapshot_le
  have hslast : p.follower.snapshotIndex ≤ p.follower.lastLogIndex :=
    RaftLog.snapshotIndex_le_lastLogIndex h.followerLog
  -- the match index keeps the leader above its own snapshot
  have hquiet : ¬ p.SendsSnapshot target := by
    rw [sendsSnapshot_iff (by omega)]
    omega
  obtain ⟨-, hlen⟩ := h.slice hs
  by_cases hyes : (p.answer (p.param target)).1.success = true
  · -- only the slice behind index 0 is accepted, and the leader is not done with it
    have hprev : (p.param target).prevLogIndex = 0 := by
      have := prev_of_accepted hyes
      omega
    have hmax : maxAppendEntriesPerMessage = 256 := rfl
    obtain ⟨-, -, -, -, hmatch, hnext⟩ := h.accepted hs hyes
    obtain ⟨hsnap, hfsnap⟩ := h.accepted_snapshots hs hyes (by omega)
    refine ⟨?_, h.of_accepted hs hyes (by omega), ?_⟩
    · rintro (⟨param, -, -, hdone⟩ | hsend)
      · omega
      · exact hquiet hsend
    · unfold Stuck
      rw [hsnap, hfsnap, hmatch, hnext]
      omega
  · have hno : (p.answer (p.param target)).1.success = false := Bool.eq_false_of_not_eq_true hyes
    obtain ⟨hmatch, hnext⟩ := h.refused_progress hs hno
    obtain ⟨hsnap, hfsnap⟩ := h.refused_snapshots hs hno
    -- the probe behind index 0 would have been accepted
    have hpos : 0 < (p.param target).prevLogIndex := by
      by_contra hzero
      exact hyes (h.accepts_of_eq hs (by omega) (by omega) (by omega))
    refine ⟨?_, h.of_refused hs hno, ?_⟩
    · rintro (⟨param, hbuilt, haccepted, -⟩ | hsend)
      · rw [built_append hs] at hbuilt
        cases hbuilt
        exact hyes haccepted
      · exact hquiet hsend
    · unfold Stuck
      rw [hsnap, hfsnap, hmatch, hnext, lowered]
      split <;> omega

/-- **Probing, exactly.** Repeating the round from a consistent pair brings the match index to the end of
the leader's log or leads to an InstallSnapshot, unless the pair is stuck. -/
theorem probing_settles_iff (h : p.Consistent target) :
    (∃ n, ((ProbePair.round target)^[n] p).Settles target) ↔ ¬ p.Stuck target := by
  constructor
  · rintro ⟨n, hn⟩ hstuck
    have hround : ∀ q : ProbePair, q.Aligned target ∧ q.Stuck target → ¬ q.Settles target ∧
        (q.round target).Aligned target ∧ (q.round target).Stuck target :=
      fun q hq => Stuck.round hq.1 hq.2
    exact Rounds.never hround ⟨h.aligned, hstuck⟩ n hn
  · intro hfree
    have hround := fun (q : ProbePair) (hq : q.Aligned target ∧ ¬ q.Stuck target) => hq.1.search hq.2
    obtain ⟨n, hn⟩ : ∃ n, ((ProbePair.round target)^[n] p).Settles target ∨
        (((ProbePair.round target)^[n] p).round target).Streaming target :=
      Rounds.reaches (μ := fun q : ProbePair => q.leader.replication.nextIndex target.replicaId) hround
        (And.intro h.aligned hfree)
    rcases hn with hdone | hstream
    · exact ⟨n, hdone⟩
    · obtain ⟨k, hk⟩ := hstream.reaches
      refine ⟨k + (n + 1), Or.inl ?_⟩
      rw [Function.iterate_add_apply, Function.iterate_succ_apply']
      exact hk

/-! ## A lost answer and a snapshot -/

/-- A leader of term 1 with three entries that knows index `matched` of replica 2 to match. -/
def threeEntryLeader (matched : Nat) : RaftCore :=
  { RaftCore.create (replica 1) (groupMembers 2) (fun _ => electionTimeoutMinTicks) with
    election := { selfId := replica 1, role := .leader, currentTerm := 1 }
    raftLog := { logEntries := [{ term := 1, index := 1 }, { term := 1, index := 2 },
      { term := 1, index := 3 }] }
    replication := { nextIndex := fun _ => matched + 1, matchIndex := fun _ => matched } }

/-- Replica 2, with a snapshot of its first `index` entries and nothing behind it. -/
def snapshotFollower (index : Nat) : RaftCore :=
  { RaftCore.create (replica 2) (groupMembers 2) (fun _ => electionTimeoutMinTicks) with
    election := { selfId := replica 2, currentTerm := 1 }
    raftLog := { snapshotIndex := index, snapshotTerm := 1 }
    raftApply := { commitIndex := index, lastApplied := index } }

/-- The pairs of the two runs below. -/
theorem threeEntryLeader_consistent {matched index : Nat} (hmatched : matched ≤ index) (hindex : index ≤ 3) :
    Consistent { replicaId := replica 2 } ⟨threeEntryLeader matched, snapshotFollower index⟩ where
  leads := ⟨rfl, rfl⟩
  term_le := le_rfl
  member := rfl
  leaderLog := by simp [RaftLog.Consecutive, threeEntryLeader, RaftLog.ConsecutiveFrom.cons_iff,
    RaftLog.ConsecutiveFrom.nil]
  followerLog := RaftLog.ConsecutiveFrom.nil _
  snapshot_le := le_rfl
  commit_le := le_rfl
  commit_le_leader := hindex
  committed i hi _ hle := by
    have heq : i = index := le_antisymm hi hle
    subst heq
    interval_cases i <;> rfl
  match_lt := Nat.lt_succ_self _
  next_le := Nat.succ_le_succ (hmatched.trans hindex)
  match_le := hmatched
  matching i hi _ hle := by
    have heq : i = index := le_antisymm (hi.trans hmatched) hle
    subst heq
    interval_cases i <;> rfl

/-- A leader that knows the follower's snapshot to match brings it up to date. -/
theorem probing_settles_behind_snapshot :
    Consistent { replicaId := replica 2 } ⟨threeEntryLeader 2, snapshotFollower 2⟩ ∧
      ∃ n, ((round { replicaId := replica 2 })^[n]
        ⟨threeEntryLeader 2, snapshotFollower 2⟩).Settles { replicaId := replica 2 } :=
  ⟨threeEntryLeader_consistent le_rfl (by decide),
    (probing_settles_iff (threeEntryLeader_consistent le_rfl (by decide))).mpr
      fun h => absurd h.2.1 (by decide)⟩

/-- The follower held entry 2 and its answer was lost; by the next probe it has taken a snapshot of both
entries. The leader asks for index 1 again and again. -/
theorem probing_stuck_below_snapshot :
    Consistent { replicaId := replica 2 } ⟨threeEntryLeader 1, snapshotFollower 2⟩ ∧
      ∀ n, ¬ ((round { replicaId := replica 2 })^[n]
        ⟨threeEntryLeader 1, snapshotFollower 2⟩).Settles { replicaId := replica 2 } := by
  have hconsistent : Consistent { replicaId := replica 2 }
      ⟨threeEntryLeader 1, snapshotFollower 2⟩ := threeEntryLeader_consistent (by decide) (by decide)
  have hstuck : Stuck { replicaId := replica 2 } ⟨threeEntryLeader 1, snapshotFollower 2⟩ :=
    ⟨by decide, by decide, Or.inl (by decide)⟩
  refine ⟨hconsistent, fun n => ?_⟩
  have hround := fun (q : ProbePair) (hq : q.Aligned { replicaId := replica 2 } ∧
    q.Stuck { replicaId := replica 2 }) => Stuck.round hq.1 hq.2
  exact Rounds.never hround ⟨hconsistent.aligned, hstuck⟩ n

end ProbePair

end AdvisKV
