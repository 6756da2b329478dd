import AdvisKV.Lib.Machine
import AdvisKV.Model.SampleCodec
import AdvisKV.Recovery.Boot
import AdvisKV.Replica.Tracking

/-!
# AdvisKV — acknowledged writes

The tracker remembers the log index of a proposal and nothing else of it. As long as the replica stays
leader the entry at that index is the proposal's own, and the answer given when the index is committed is
right. But one AppendEntries of a later leader can replace the entry and commit the index in the same
dispatch, and one snapshot can cover it; the tracker then answers for an entry that is gone.

Main results:

* `AckInv` — what holds between two dispatches: every tracked index still carries its request.
* `AckSafe` — the condition on a dispatch under which it stays so.
* `AckInv.change` — every handler that goes to no tracker keeps the log and the tracked indexes in order.
-/

namespace AdvisKV

open Completions ProposalTracker

/-! ## The applied part of the log -/

/-- The log and the state machine between the handler of an event and the trackers. -/
structure AckState (c : RaftCore) (sm : KvStateMachine) : Prop where
  applicable : Applicable c
  indexed : c.raftLog.Indexed
  records : ∀ x ∈ c.raftLog.logEntries, x.index ≤ c.raftApply.lastApplied →
    x.opType.isKvWriteOp = true → x.requestId ≠ [] → sm.findRequest x.requestId ≠ none
  machine : sm.applyIndex = c.raftApply.lastApplied
  machineTerm : c.raftLog.snapshotIndex < sm.applyIndex →
    c.raftLog.termAt sm.applyIndex = sm.applyTerm

/-- A snapshot on its way to the disk is one of the applied log. -/
def Covered (c : RaftCore) (d : SnapshotData) : Prop :=
  d.header.applyIndex ≤ c.raftApply.lastApplied ∧
    (c.raftLog.snapshotIndex < d.header.applyIndex →
      c.raftLog.termAt d.header.applyIndex = d.header.applyTerm)

/-- The applied entries that `c'` still retains are those of `c`. -/
structure KeepsApplied (c c' : RaftCore) : Prop where
  applied : c'.raftApply.lastApplied = c.raftApply.lastApplied
  snapshot_le : c.raftLog.snapshotIndex ≤ c'.raftLog.snapshotIndex
  entries : ∀ i, c'.raftLog.snapshotIndex < i → i ≤ c.raftApply.lastApplied →
    c'.raftLog.entryAt i = c.raftLog.entryAt i

section KeepsApplied

variable {c c' : RaftCore} {sm : KvStateMachine}

/-- So are their terms. -/
theorem KeepsApplied.termAt (h : KeepsApplied c c') {i : Nat} (hlow : c'.raftLog.snapshotIndex < i)
    (hhigh : i ≤ c.raftApply.lastApplied) : c'.raftLog.termAt i = c.raftLog.termAt i := by
  have hle := h.snapshot_le
  simp only [RaftLog.termAt, h.entries i hlow hhigh]
  rw [if_neg (by omega), if_neg (by omega), if_neg (by omega), if_neg (by omega), if_neg (by omega),
    if_neg (by omega)]

/-- Log and state machine still belong together. -/
theorem AckState.keeps (h : AckState c sm) (hkeeps : KeepsApplied c c') (happ : Applicable c')
    (hindexed : c'.raftLog.Indexed) : AckState c' sm where
  applicable := happ
  indexed := hindexed
  records := by
    intro x hx hle hop hid
    obtain ⟨hentry, hlow⟩ := RaftLog.entryAt_of_mem happ.consecutive hx
    rw [hkeeps.applied] at hle
    rw [hkeeps.entries _ hlow hle] at hentry
    exact h.records x (RaftLog.mem_of_entryAt hentry) hle hop hid
  machine := h.machine.trans hkeeps.applied.symm
  machineTerm := by
    intro hlow
    rw [hkeeps.termAt hlow (h.machine ▸ le_rfl)]
    exact h.machineTerm (hkeeps.snapshot_le.trans_lt hlow)

/-- So do the snapshots on their way. -/
theorem Covered.keeps {d : SnapshotData} (h : Covered c d) (hkeeps : KeepsApplied c c') :
    Covered c' d := by
  refine ⟨hkeeps.applied ▸ h.1, fun hlow => ?_⟩
  rw [hkeeps.termAt hlow h.1]
  exact h.2 (hkeeps.snapshot_le.trans_lt hlow)

end KeepsApplied

/-! ## Requests that stay where they are -/

section Find

variable {p : LogEntry → Bool} {l l' : List LogEntry} {x : LogEntry}

theorem find?_of_prefix (h : l <+: l') (hx : l.find? p = some x) : l'.find? p = some x := by
  obtain ⟨new, rfl⟩ := h
  rw [List.find?_append, hx]
  rfl

/-- A match in the part two lists share. -/
theorem find?_of_take_eq {k : Nat} (h : l'.take k = l.take k) (hx : l.find? p = some x)
    (hmem : x ∈ l.take k) : l'.find? p = some x := by
  have hpx := List.find?_some hx
  have htake : (l.take k).find? p = some x := by
    rw [← List.take_append_drop k l, List.find?_append] at hx
    rcases hfind : (l.take k).find? p with _ | y
    · exact absurd hpx (List.find?_eq_none.mp hfind x hmem)
    · rw [hfind] at hx
      exact hx
  rw [← List.take_append_drop k l', List.find?_append, h, htake]
  rfl

/-- A match behind the part that is cut off. -/
theorem find?_drop {k : Nat} (hx : l.find? p = some x) (hmem : x ∉ l.take k) :
    (l.drop k).find? p = some x := by
  rw [← List.take_append_drop k l, List.find?_append] at hx
  rcases hfind : (l.take k).find? p with _ | y
  · rw [hfind] at hx
    exact hx
  · rw [hfind] at hx
    cases hx
    exact absurd (List.mem_of_find?_eq_some hfind) hmem

end Find

/-- In a numbered list the first match is the one with the smallest index. -/
theorem RaftLog.ConsecutiveFrom.find?_first {start : Nat} {es : List LogEntry}
    (h : ConsecutiveFrom start es) {p : LogEntry → Bool} {x : LogEntry} (hx : es.find? p = some x)
    {y : LogEntry} (hy : y ∈ es) (hpy : p y = true) : x.index ≤ y.index := by
  induction es generalizing start with
  | nil => cases hy
  | cons e es ih =>
    obtain ⟨he, hes⟩ := ConsecutiveFrom.cons_iff.mp h
    by_cases hpe : p e = true
    · rw [List.find?_cons_of_pos hpe] at hx
      cases hx
      rcases List.mem_cons.mp hy with rfl | hy
      · exact le_rfl
      · obtain ⟨k, hk, rfl⟩ := List.getElem_of_mem hy
        have := hes k _ (List.getElem?_eq_getElem hk)
        omega
    · rw [List.find?_cons_of_neg hpe] at hx
      rcases List.mem_cons.mp hy with rfl | hy
      · exact absurd hpy hpe
      · exact ih hes hx hy

/-- Membership in the first entries of a numbered list is a bound on the index. -/
theorem RaftLog.mem_take_iff {l : RaftLog} (hl : l.Consecutive) {x : LogEntry} (hx : x ∈ l.logEntries)
    (n : Nat) : x ∈ l.logEntries.take (n - l.snapshotIndex) ↔ x.index ≤ n := by
  obtain ⟨k, hk, rfl⟩ := List.getElem_of_mem hx
  have hidx := hl k _ (List.getElem?_eq_getElem hk)
  constructor
  · intro hmem
    obtain ⟨j, hj, heq⟩ := List.getElem_of_mem hmem
    rw [List.length_take] at hj
    have hjdx := hl j l.logEntries[k] (by
      rw [← heq, List.getElem_take]
      exact List.getElem?_eq_getElem _)
    omega
  · intro hle
    refine List.mem_of_getElem? (i := k) ?_
    rw [List.getElem?_take_of_lt (by omega)]
    exact List.getElem?_eq_getElem hk

variable {c c' : RaftCore} {sm : KvStateMachine} {kv : Bytes × TrackedProposal}

/-- Appending moves no entry. -/
theorem ProposalTracker.Anchored.grows (h : Anchored c sm kv) (hg : c.Grows c') : Anchored c' sm kv where
  uncommitted := h.uncommitted
  unrecorded := h.unrecorded
  logged := by
    obtain ⟨x, hx, hxi, hxh⟩ := h.logged
    exact ⟨x, find?_of_prefix hg.entries hx, hxi, hxh⟩
  unapplied := hg.applied ▸ h.unapplied

/-- It keeps the applied part. -/
theorem RaftCore.Grows.keepsApplied (h : c.Grows c') (hc : Applicable c) :
    KeepsApplied c c' where
  applied := h.applied
  snapshot_le := h.snapshotIndex.ge
  entries := by
    intro i hlow hhigh
    have hlen := RaftLog.lastLogIndex_eq hc.consecutive
    have h1 := hc.applied_le
    have h2 := hc.commit_le
    obtain ⟨new, hnew⟩ := h.entries
    rw [h.snapshotIndex] at hlow
    simp only [RaftLog.entryAt, h.snapshotIndex, ← hnew]
    rw [if_neg (by omega), if_neg (by omega), List.getElem?_append_left (by omega)]

theorem RaftCore.Grows.applicable (h : c.Grows c') (hc : Applicable c) (hshaped : c'.Shaped) :
    Applicable c' where
  consecutive := hshaped.consecutive
  snapshot_le := by
    rw [h.snapshotIndex, h.applied]
    exact hc.snapshot_le
  applied_le := by
    rw [h.applied]
    exact hc.applied_le.trans h.commit_ge
  commit_le := h.commit_le

/-! ## What a later leader and a snapshot may do -/

/-- The first tests of `handle_append_entries` let the message through. -/
def Heeds (c : RaftCore) (param : AppendEntriesParam) : Prop :=
  c.membership.contains param.fromReplicaId = true ∧ c.election.currentTerm ≤ param.term ∧
    CoreState.prevLogMatches c.raftLog param = true

/-- The entries of the message replace nothing that is committed; and for every tracked proposal they
replace nothing up to its index, or the message does not commit that index, because its `leader_commit` or
all of its entries lie below. -/
def MergeSafe (l : ReplicaLoop) (param : AppendEntriesParam) : Prop :=
  (∀ e ∈ param.entries, l.state.core.raftLog.holds e = true ∨ l.state.core.commitIndex < e.index) ∧
  ∀ kv ∈ l.proposals.entries, param.leaderCommit < kv.2.index ∨
    (∀ e ∈ param.entries, l.state.core.raftLog.holds e = true ∨ kv.2.index < e.index) ∨
    ∀ e ∈ param.entries, e.index < kv.2.index

/-- The snapshot reaches the commit index, and holds the record of every tracked proposal it covers. -/
def FileSafe (l : ReplicaLoop) (d : SnapshotData) : Prop :=
  l.state.core.commitIndex ≤ d.header.applyIndex ∧
  ∀ sm, KvStateMachine.restore d = .ok sm → ∀ kv ∈ l.proposals.entries,
    kv.2.index ≤ d.header.applyIndex →
    ∃ record, sm.findRequest kv.1 = some record ∧ record.payloadHash = kv.2.payloadHash

/-- The condition on one event. -/
def EventSafe (codec : SnapshotCodec) (l : ReplicaLoop) : LoopEvent → Prop
  | .appendEntries param => Heeds l.state.core param → MergeSafe l param
  | .installSnapshot param => ∀ d ∈ (codec.decode (l.receivedFile param)).toOption, FileSafe l d
  | .propose params => Distinguishes l.proposals.entries params
  | _ => True

/-- The condition on one dispatch: on its event, and, for the entries it is about to apply, that no config
entry overtakes others. -/
def AckSafe (codec : SnapshotCodec) (l : ReplicaLoop) (ev : LoopEvent) : Prop :=
  EventSafe codec l ev ∧ NoConfigBehindOverflow replicaInlineApplyBatchSize
    (outstanding (l.handle codec ev).loop.state.core)

/-! ## Tracked proposals after a handler -/

/-- A tracked proposal between the handler and the trackers. On a replica that is no longer leader it may
have lost its entry, if it is not committed, or if the state machine already has its record. -/
structure Hangs (c : RaftCore) (sm : KvStateMachine) (kv : Bytes × TrackedProposal) : Prop where
  uncommitted : kv.2.committed = false
  index_pos : 0 < kv.2.index
  rest : Anchored c sm kv ∨ (c.election.role ≠ .leader ∧ (c.raftApply.commitIndex < kv.2.index ∨
    (kv.2.index ≤ c.raftApply.lastApplied ∧
      ∃ record, sm.findRequest kv.1 = some record ∧ record.payloadHash = kv.2.payloadHash)))

theorem ProposalTracker.Anchored.hangs (h : Anchored c sm kv) : Hangs c sm kv :=
  ⟨h.uncommitted, Nat.zero_lt_of_lt h.unapplied, Or.inl h⟩

section Accepted

variable {c : RaftCore} {sm : KvStateMachine} {param : AppendEntriesParam} {s' : CoreState}

/-- The committed part of the log survives a merge that replaces nothing in it. -/
theorem accepted_take (hc : Applicable c) (haccepted : CoreState.Accepted { core := c } param s')
    {n : Nat} (hn : n ≤ c.raftLog.lastLogIndex)
    (hsafe : ∀ e ∈ param.entries, c.raftLog.holds e = true ∨ n < e.index) :
    s'.core.raftLog.snapshotIndex = c.raftLog.snapshotIndex ∧
      s'.core.raftLog.logEntries.take (n - c.raftLog.snapshotIndex) =
        c.raftLog.logEntries.take (n - c.raftLog.snapshotIndex) ∧
      (c.raftLog.snapshotIndex ≤ n → n ≤ s'.core.raftLog.lastLogIndex) := by
  obtain ⟨r, hmerged⟩ := haccepted.merged
  obtain ⟨hsnap, -, hcons, -⟩ := RaftLog.appendEntriesFromLeader_keeps hc.consecutive hmerged
  have htake := RaftLog.appendEntriesFromLeader_take hc.consecutive hn hsafe hmerged
  refine ⟨hsnap, htake, fun hlow => ?_⟩
  have hlen := congrArg List.length htake
  rw [List.length_take, List.length_take] at hlen
  rw [RaftLog.lastLogIndex_eq hc.consecutive] at hn
  rw [RaftLog.lastLogIndex_eq hcons, hsnap]
  omega

/-- The commit index follows the leader's as far as the log goes. -/
theorem accepted_commit (haccepted : CoreState.Accepted { core := c } param s') :
    s'.core.raftApply.lastApplied = c.raftApply.lastApplied ∧
      s'.core.raftApply.commitIndex =
        if c.raftApply.commitIndex < param.leaderCommit then
          min param.leaderCommit s'.core.raftLog.lastLogIndex
        else c.raftApply.commitIndex := by
  have h := haccepted.apply_eq
  simp only [RaftApply.advanceCommitIndexFromLeader] at h
  split at h
  · next hlt => exact ⟨by rw [h], by rw [h, if_pos hlt]⟩
  · next hle => exact ⟨by rw [h], by rw [h, if_neg hle]⟩

/-- A merge that replaces nothing committed keeps what is applied. -/
theorem accepted_ackState (h : AckState c sm)
    (haccepted : CoreState.Accepted { core := c } param s')
    (hsafe : ∀ e ∈ param.entries, c.raftLog.holds e = true ∨ c.raftApply.commitIndex < e.index) :
    KeepsApplied c s'.core ∧ AckState s'.core sm := by
  have hc := h.applicable
  obtain ⟨r, hmerged⟩ := haccepted.merged
  obtain ⟨-, -, hcons, -⟩ := RaftLog.appendEntriesFromLeader_keeps hc.consecutive hmerged
  obtain ⟨hsnap, htake, hlast⟩ := accepted_take hc haccepted hc.commit_le hsafe
  obtain ⟨happlied, hcommit⟩ := accepted_commit haccepted
  have h1 := hc.snapshot_le
  have h2 := hc.applied_le
  have hlast' := hlast (h1.trans h2)
  have hkeeps : KeepsApplied c s'.core := by
    refine ⟨happlied, hsnap.ge, fun i hlow hhigh => ?_⟩
    rw [hsnap] at hlow
    have hget := congrArg (fun es : List LogEntry => es[i - c.raftLog.snapshotIndex - 1]?) htake
    simp only [List.getElem?_take_of_lt (show i - c.raftLog.snapshotIndex - 1 <
      c.raftApply.commitIndex - c.raftLog.snapshotIndex by omega)] at hget
    simp only [RaftLog.entryAt, hsnap, hget]
  refine ⟨hkeeps, h.keeps hkeeps ⟨hcons, ?_, ?_, ?_⟩
    (RaftLog.appendEntriesFromLeader_indexed h.indexed hmerged)⟩
  · rw [hsnap, happlied]
    exact h1
  · rw [happlied, hcommit]
    split
    · exact le_min (by omega) (h2.trans hlast')
    · exact h2
  · rw [hcommit]
    split
    · exact min_le_right _ _
    · exact hlast'

/-- A tracked proposal after an accepted AppendEntries. -/
theorem accepted_hangs (h : AckState c sm) {kv : Bytes × TrackedProposal} (hkv : Anchored c sm kv)
    (hindex : c.raftApply.commitIndex < kv.2.index)
    (haccepted : CoreState.Accepted { core := c } param s')
    (hsafe : param.leaderCommit < kv.2.index ∨
      (∀ e ∈ param.entries, c.raftLog.holds e = true ∨ kv.2.index < e.index) ∨
      ∀ e ∈ param.entries, e.index < kv.2.index) : Hangs s'.core sm kv := by
  obtain ⟨x, hx, hxi, hxh⟩ := hkv.logged
  have hc := h.applicable
  have hxmem := List.mem_of_find?_eq_some hx
  obtain ⟨happlied, hcommit⟩ := accepted_commit haccepted
  have hrole : s'.core.election.role ≠ .leader := by
    rw [haccepted.role_eq]
    decide
  refine ⟨hkv.uncommitted, Nat.zero_lt_of_lt hkv.unapplied, ?_⟩
  have hkept : s'.core.raftLog.logEntries.find? (RaftLog.isRequest kv.1) = some x →
      Anchored s'.core sm kv := fun hfind =>
    ⟨hkv.uncommitted, hkv.unrecorded, ⟨x, hfind, hxi, hxh⟩, happlied ▸ hkv.unapplied⟩
  rcases hsafe with hlow | hheld | hbelow
  · -- the message does not commit the index
    refine Or.inr ⟨hrole, Or.inl ?_⟩
    rw [hcommit]
    split
    · exact (min_le_left _ _).trans_lt hlow
    · exact hindex
  · -- nothing up to the index is replaced
    have hlast : kv.2.index ≤ c.raftLog.lastLogIndex := by
      have hsome : (c.raftLog.entryAt x.index).isSome = true := by
        rw [(RaftLog.entryAt_of_mem hc.consecutive hxmem).1]
        rfl
      rw [← hxi]
      exact ((RaftLog.entryAt_isSome_iff hc.consecutive).mp hsome).2
    obtain ⟨-, htake, -⟩ := accepted_take hc haccepted hlast hheld
    refine Or.inl (hkept (find?_of_take_eq htake hx ?_))
    exact (RaftLog.mem_take_iff hc.consecutive hxmem _).mpr hxi.le
  · -- all entries lie below: the log is unchanged, or it now ends below the index
    obtain ⟨r, hmerged⟩ := haccepted.merged
    rcases RaftLog.appendEntriesFromLeader_below hc.consecutive hbelow hmerged with hsame | hend
    · exact Or.inl (hkept (hsame ▸ hx))
    · refine Or.inr ⟨hrole, Or.inl ?_⟩
      rw [hcommit]
      split
      · exact (min_le_right _ _).trans_lt hend
      · exact hindex

end Accepted

/-! ## Installing snapshots -/

section Install

variable {c : RaftCore} {sm : KvStateMachine}

variable {header : SnapshotHeader}

/-- Installing a snapshot of the applied log cuts the log there and changes nothing else. -/
theorem installed_covered (hc : Applicable c) (hlow : c.raftLog.snapshotIndex < header.applyIndex)
    (hhigh : header.applyIndex ≤ c.raftApply.lastApplied)
    (hterm : c.raftLog.termAt header.applyIndex = header.applyTerm) :
    (c.installSnapshotIntoLog header).raftLog.logEntries =
        c.raftLog.logEntries.drop (header.applyIndex - c.raftLog.snapshotIndex) ∧
      (c.installSnapshotIntoLog header).raftLog.snapshotIndex = header.applyIndex ∧
      (c.installSnapshotIntoLog header).raftApply = c.raftApply := by
  have h1 := hc.applied_le
  have h2 := hc.commit_le
  have hlen := RaftLog.lastLogIndex_eq hc.consecutive
  rw [RaftCore.installSnapshotIntoLog_raftLog, RaftCore.installSnapshotIntoLog_raftApply]
  refine ⟨?_, rfl, ?_⟩
  · show c.raftLog.retainedEntriesAfterSnapshot header.applyIndex header.applyTerm = _
    unfold RaftLog.retainedEntriesAfterSnapshot
    split
    · rw [List.drop_of_length_le (by omega)]
    · rw [if_neg (not_not.mpr hterm), if_neg (by omega)]
  · simp only [RaftApply.installSnapshot]
    rw [if_neg (by omega), if_neg (by omega)]

/-- The cut takes away applied entries only. -/
theorem installed_ackState (h : AckState c sm) (hlow : c.raftLog.snapshotIndex < header.applyIndex)
    (hhigh : header.applyIndex ≤ c.raftApply.lastApplied)
    (hterm : c.raftLog.termAt header.applyIndex = header.applyTerm) :
    KeepsApplied c (c.installSnapshotIntoLog header) ∧
      AckState (c.installSnapshotIntoLog header) sm := by
  have hc := h.applicable
  obtain ⟨hentries, hsnap, happly⟩ := installed_covered hc hlow hhigh hterm
  have hcons : (c.installSnapshotIntoLog header).raftLog.Consecutive := by
    rw [RaftCore.installSnapshotIntoLog_raftLog]
    exact RaftLog.installSnapshot_consecutive hc.consecutive _ _
  have hkeeps : KeepsApplied c (c.installSnapshotIntoLog header) := by
    refine ⟨by rw [happly], by omega, fun i hi _ => ?_⟩
    simp only [RaftLog.entryAt, hentries, hsnap, List.getElem?_drop]
    rw [hsnap] at hi
    rw [if_neg (by omega), if_neg (by omega)]
    congr 1
    omega
  refine ⟨hkeeps, h.keeps hkeeps ⟨hcons, ?_, ?_, ?_⟩ ?_⟩
  · rw [hsnap, happly]
    exact hhigh
  · rw [happly]
    exact hc.applied_le
  · have hlen := RaftLog.lastLogIndex_eq hc.consecutive
    have h1 := hc.applied_le
    have h2 := hc.commit_le
    rw [happly, RaftLog.lastLogIndex_eq hcons, hsnap, hentries, List.length_drop]
    omega
  · rw [RaftCore.installSnapshotIntoLog_raftLog]
    exact RaftLog.installSnapshot_indexed _ _ _

/-- No tracked one is among them. -/
theorem installed_anchored (hc : Applicable c) (hlow : c.raftLog.snapshotIndex < header.applyIndex)
    (hhigh : header.applyIndex ≤ c.raftApply.lastApplied)
    (hterm : c.raftLog.termAt header.applyIndex = header.applyTerm) {kv : Bytes × TrackedProposal}
    (hkv : Anchored c sm kv) : Anchored (c.installSnapshotIntoLog header) sm kv := by
  obtain ⟨hentries, hsnap, happly⟩ := installed_covered hc hlow hhigh hterm
  obtain ⟨x, hx, hxi, hxh⟩ := hkv.logged
  have hunapplied := hkv.unapplied
  refine ⟨hkv.uncommitted, hkv.unrecorded, ⟨x, ?_, hxi, hxh⟩, by rw [happly]; exact hunapplied⟩
  rw [hentries]
  refine find?_drop hx fun hmem => ?_
  have := (RaftLog.mem_take_iff hc.consecutive (List.mem_of_find?_eq_some hx) _).mp hmem
  omega

/-- A received snapshot that reaches the commit index leaves nothing to apply below the rest of the
log. -/
theorem received_ackState (hc : Applicable c) {d : SnapshotData} {sm : KvStateMachine}
    (hrestore : KvStateMachine.restore d = .ok sm)
    (hcommit : c.raftApply.commitIndex ≤ d.header.applyIndex) :
    AckState (c.installSnapshotIntoLog d.header) sm ∧
      (c.installSnapshotIntoLog d.header).raftApply.commitIndex = d.header.applyIndex ∧
      (c.installSnapshotIntoLog d.header).raftApply.lastApplied = d.header.applyIndex ∧
      (c.installSnapshotIntoLog d.header).raftLog.snapshotIndex = d.header.applyIndex := by
  have h1 := hc.applied_le
  have hcons : (c.installSnapshotIntoLog d.header).raftLog.Consecutive := by
    rw [RaftCore.installSnapshotIntoLog_raftLog]
    exact RaftLog.installSnapshot_consecutive hc.consecutive _ _
  have hsnap : (c.installSnapshotIntoLog d.header).raftLog.snapshotIndex = d.header.applyIndex := by
    rw [RaftCore.installSnapshotIntoLog_raftLog]
    rfl
  have happly : (c.installSnapshotIntoLog d.header).raftApply =
      ⟨d.header.applyIndex, d.header.applyIndex⟩ := by
    rw [RaftCore.installSnapshotIntoLog_raftApply]
    simp only [RaftApply.installSnapshot, RaftApply.mk.injEq]
    constructor <;> split <;> omega
  have hmachine : sm.applyIndex = d.header.applyIndex := by
    unfold KvStateMachine.restore at hrestore
    split at hrestore
    · cases hrestore
    · cases hrestore
      rfl
  refine ⟨⟨⟨hcons, ?_, ?_, ?_⟩, ?_, ?_, ?_, ?_⟩, by rw [happly], by rw [happly], hsnap⟩
  · rw [hsnap, happly]
  · rw [happly]
  · rw [happly]
    have := RaftLog.snapshotIndex_le_lastLogIndex hcons
    rwa [hsnap] at this
  · rw [RaftCore.installSnapshotIntoLog_raftLog]
    exact RaftLog.installSnapshot_indexed _ _ _
  · -- everything retained lies above the snapshot
    intro x hx hle
    have hlow := (RaftLog.entryAt_of_mem hcons hx).2
    rw [hsnap] at hlow
    rw [happly] at hle
    exact absurd hle (Nat.not_le.mpr hlow)
  · rw [happly, hmachine]
  · intro hlow
    rw [hsnap, hmachine] at hlow
    exact absurd hlow (lt_irrefl _)

end Install

/-! ## The invariant -/

/-- What holds between the handler of an event and the trackers. -/
structure AckMid (l : ReplicaLoop) : Prop where
  state : AckState l.state.core l.state.stateMachine
  queue : ∀ d, d ∈ l.writing ∨ d ∈ l.written → Covered l.state.core d
  tracked : ∀ kv ∈ l.proposals.entries, Serves l.submitted l.nextCompletion kv ∧
    Hangs l.state.core l.state.stateMachine kv
  ids : ∀ x ∈ l.submitted, x.1 < l.nextCompletion
  reads : ∀ kv ∈ l.reads.pendingReads, kv.2.completion < l.nextCompletion ∧
    ∀ p, (kv.2.completion, p) ∉ l.submitted

/-- What holds between two dispatches: everything committed is applied, and only a leader tracks
proposals, each of them still in its log. -/
structure AckInv (l : ReplicaLoop) : Prop where
  mid : AckMid l
  caughtUp : l.state.core.raftApply.commitIndex ≤ l.state.core.raftApply.lastApplied
  anchored : ∀ kv ∈ l.proposals.entries, Anchored l.state.core l.state.stateMachine kv
  leads : l.proposals.entries ≠ [] → l.state.core.isLeader = true

/-- What the handler of an event leaves of the log, of the queued snapshots and of what is tracked. -/
structure StateAcks (l : ReplicaLoop) (s : ReplicaState) : Prop where
  state : AckState s.core s.stateMachine
  covered : ∀ d, Covered l.state.core d → Covered s.core d
  tracked : ∀ kv ∈ l.proposals.entries, Hangs s.core s.stateMachine kv

theorem StateAcks.congr {l : ReplicaLoop} {s s' : ReplicaState} (h : StateAcks l s)
    (hcore : s'.core = s.core) (hsm : s'.stateMachine = s.stateMachine) : StateAcks l s' := by
  obtain ⟨h1, h2, h3⟩ := h
  rw [← hcore, ← hsm] at h1
  rw [← hcore] at h2
  rw [← hcore, ← hsm] at h3
  exact ⟨h1, h2, h3⟩

section Handlers

variable {codec : SnapshotCodec} {l : ReplicaLoop}

/-- Nothing tracked is committed between two dispatches. -/
theorem AckInv.commit_lt (h : AckInv l) {kv : Bytes × TrackedProposal}
    (hkv : kv ∈ l.proposals.entries) : l.state.core.raftApply.commitIndex < kv.2.index :=
  h.caughtUp.trans_lt (h.anchored kv hkv).unapplied

/-- A handler after which the log has at most grown. -/
theorem AckInv.of_grows (h : AckInv l) {e : CoreEvent}
    (hg : l.state.core.Grows (e.step { core := l.state.core }).core) :
    StateAcks l (l.state.executeEvent e).2.1 := by
  have hc := h.mid.state.applicable
  have hshaped : l.state.core.Shaped := ⟨hc.consecutive, hc.snapshot_le.trans hc.applied_le⟩
  have hkeeps := hg.keepsApplied hc
  have hstate := h.mid.state.keeps hkeeps (hg.applicable hc (CoreEvent.step_shaped e hshaped))
    (CoreEvent.step_indexed e h.mid.state.indexed)
  exact StateAcks.congr (s := { core := _, stateMachine := l.state.stateMachine })
    ⟨hstate, fun d hd => hd.keeps hkeeps, fun kv hkv => ((h.anchored kv hkv).grows hg).hangs⟩
    (ReplicaState.executeEvent_core _ _) (ReplicaState.executeEvent_stateMachine _ _)

/-- A handler that only appends. -/
theorem AckInv.grows (h : AckInv l) {e : CoreEvent} (he : e.OnlyAppends) :
    StateAcks l (l.state.executeEvent e).2.1 ∧
      l.state.core.Grows (l.state.executeEvent e).2.1.core := by
  have hc := h.mid.state.applicable
  have hshaped : l.state.core.Shaped := ⟨hc.consecutive, hc.snapshot_le.trans hc.applied_le⟩
  have hg := CoreEvent.step_grows he hshaped hc.commit_le
  refine ⟨h.of_grows hg, ?_⟩
  rw [ReplicaState.executeEvent_core]
  exact hg

/-- **An AppendEntries.** Accepted, it may replace what is tracked, but then the replica no longer leads and the
index is not committed. -/
theorem AckInv.appendEntries (h : AckInv l) {param : AppendEntriesParam}
    (hsafe : EventSafe codec l (.appendEntries param)) :
    StateAcks l (l.state.executeEvent (.appendEntries param)).2.1 := by
  cases hsuccess : (CoreState.handleAppendEntries { core := l.state.core } param).1.success
  · -- refused: at most the replica follows the sender
    have hsame : (CoreState.handleAppendEntries { core := l.state.core } param).2.core.raftLog =
          l.state.core.raftLog ∧
        (CoreState.handleAppendEntries { core := l.state.core } param).2.core.raftApply =
          l.state.core.raftApply := by
      rcases CoreState.handleAppendEntries_failure hsuccess with heq | ⟨-, heq⟩
      · rw [heq]
        exact ⟨rfl, rfl⟩
      · rw [heq, CoreState.followLeader_raftLog, CoreState.followLeader_raftApply]
        exact ⟨rfl, rfl⟩
    have hg : l.state.core.Grows (CoreState.handleAppendEntries { core := l.state.core } param).2.core := by
      refine ⟨by rw [hsame.1], by rw [hsame.1], by rw [hsame.1], by rw [hsame.2], by rw [hsame.2], ?_⟩
      rw [hsame.1, hsame.2]
      exact h.mid.state.applicable.commit_le
    exact h.of_grows hg
  · have haccepted := CoreState.handleAppendEntries_success hsuccess
    obtain ⟨hmerge, htracked⟩ := hsafe ⟨haccepted.member, haccepted.term_le, haccepted.prev⟩
    obtain ⟨hkeeps, hstate⟩ := accepted_ackState h.mid.state haccepted hmerge
    refine StateAcks.congr (s := { core := _, stateMachine := l.state.stateMachine })
      ⟨hstate, fun d hd => hd.keeps hkeeps, fun kv hkv => ?_⟩ (ReplicaState.executeEvent_core _ _)
      (ReplicaState.executeEvent_stateMachine _ _)
    exact accepted_hangs h.mid.state (h.anchored kv hkv) (h.commit_lt hkv) haccepted (htracked kv hkv)

/-- A chunk, before anything is installed. -/
theorem AckInv.prepare (h : AckInv l) (param : InstallSnapshotParam) :
    StateAcks l (l.state.prepareInstallSnapshot param).2.2 := by
  rw [ReplicaState.prepareInstallSnapshot_eq]
  exact (h.grows ⟨by simp, by simp [CoreEvent.KeepsSnapshot]⟩).1

/-- **A received snapshot.** What it covers of the tracked proposals, it holds the records of. -/
theorem AckInv.received (h : AckInv l) {param : InstallSnapshotParam} {d : SnapshotData}
    {sm : KvStateMachine} (hreceives : ReplicaLoop.Receives codec l param d)
    (hrestore : KvStateMachine.restore d = .ok sm) (hfile : FileSafe l d) :
    StateAcks l ((l.state.prepareInstallSnapshot param).2.2.finishInstallSnapshot d).2 := by
  obtain ⟨hcommit, hrecords⟩ := hfile
  have hcommit' : (l.state.prepareInstallSnapshot param).2.2.core.raftApply.commitIndex ≤
      d.header.applyIndex := by
    rw [ReplicaState.prepareInstallSnapshot_eq, ReplicaState.executeEvent_core]
    obtain ⟨heq, -, -, -⟩ := CoreState.prepareInstallSnapshot_ok
      (ReplicaState.prepareInstallSnapshot_ok hreceives.ok)
    show (CoreState.prepareInstallSnapshot { core := l.state.core }
      param).2.2.core.raftApply.commitIndex ≤ _
    rw [heq, CoreState.followLeader_raftApply]
    exact hcommit
  obtain ⟨hstate, hnew, happlied, hsnap⟩ :=
    received_ackState (h.prepare param).state.applicable hrestore hcommit'
  rw [ReplicaState.finishInstallSnapshot_of_restore hrestore]
  refine StateAcks.congr
    (s := { core := (l.state.prepareInstallSnapshot param).2.2.core.installSnapshotIntoLog d.header
            stateMachine := sm })
    ⟨hstate, fun x hx => ?_, fun kv hkv => ?_⟩ (ReplicaState.executeEvent_core _ _)
    (ReplicaState.executeEvent_stateMachine _ _)
  · -- the received snapshot covers everything that was applied
    have hle : x.header.applyIndex ≤ d.header.applyIndex :=
      hx.1.trans (h.mid.state.applicable.applied_le.trans hcommit)
    refine ⟨happlied ▸ hle, fun hlow => ?_⟩
    dsimp only at hlow
    rw [hsnap] at hlow
    exact absurd hle (Nat.not_le.mpr hlow)
  · have hkv' := h.anchored kv hkv
    refine ⟨hkv'.uncommitted, Nat.zero_lt_of_lt hkv'.unapplied, Or.inr ⟨?_, ?_⟩⟩
    · rw [RaftCore.installSnapshotIntoLog_election, ReplicaState.prepareInstallSnapshot_role hreceives.ok]
      decide
    · by_cases hle : kv.2.index ≤ d.header.applyIndex
      · exact Or.inr ⟨happlied ▸ hle, hrecords sm hrestore kv hkv hle⟩
      · exact Or.inl (hnew ▸ Nat.lt_of_not_le hle)

/-- **Handlers.** The members and the flag do not matter for acknowledgements; only log and apply progress do. -/
theorem AckInv.change (h : AckInv l) {ev : LoopEvent} (hev : ¬ ReplicaLoop.ForTrackers ev)
    (hqueue : ∀ d ∈ l.written, Covered l.state.core d) (hsafe : EventSafe codec l ev)
    {s : ReplicaState} (hchange : ReplicaLoop.Change codec l ev s) : StateAcks l s := by
  have hidle : StateAcks l l.state :=
    ⟨h.mid.state, fun _ hd => hd, fun kv hkv => (h.anchored kv hkv).hangs⟩
  cases hchange with
  | idle => exact hidle
  | runs hruns =>
    cases hruns with
    | appendEntries => exact h.appendEntries hsafe
    | propose hsub hwrites => exact absurd trivial hev
    | _ => exact (h.grows ⟨by simp, by simp [CoreEvent.KeepsSnapshot]⟩).1
  | @received param d sm hreceives hrestore =>
    exact h.received hreceives hrestore (hsafe d (by rw [hreceives.decoded]; rfl))
  | stale hq hle => exact hidle.congr rfl rfl
  | @captured d rest hq hlt =>
    -- a snapshot of the applied log takes away applied entries only
    obtain ⟨hhigh, hterm⟩ := hqueue d (hq ▸ List.mem_cons_self)
    set header : SnapshotHeader := { applyIndex := d.header.applyIndex, applyTerm := d.header.applyTerm }
    have hat : l.state.core.raftLog.termAt header.applyIndex = header.applyTerm := hterm hlt
    have hlow : l.state.core.raftLog.snapshotIndex < header.applyIndex := hlt
    obtain ⟨hkeeps, hstate⟩ := installed_ackState h.mid.state hlow hhigh hat
    exact StateAcks.congr
      (s := { core := l.state.core.installSnapshotIntoLog header, stateMachine := l.state.stateMachine })
      ⟨hstate, fun x hx => hx.keeps hkeeps, fun kv hkv =>
        (installed_anchored h.mid.state.applicable hlow hhigh hat (h.anchored kv hkv)).hangs⟩
      (ReplicaState.executeEvent_core _ _) (ReplicaState.executeEvent_stateMachine _ _)
  | unrestorable hreceives hrefused =>
    rw [ReplicaState.finishInstallSnapshot_of_error hrefused]
    exact (h.prepare _).congr rfl rfl

end Handlers

end AdvisKV
