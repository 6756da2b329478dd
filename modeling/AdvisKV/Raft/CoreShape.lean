import AdvisKV.Raft.Steps

/-!
# AdvisKV — the shape every core keeps

Whatever messages arrive, the retained entries of a core stay numbered consecutively from the snapshot
on, and its snapshot never passes its commit index. Only installing a snapshot moves the snapshot index.

Main results:

* `RaftLog.appendEntriesFromLeader_keeps` — a merge keeps the numbering for every list of entries, in
  order or not.
* `CoreEvent.step_shaped` — every handler keeps the shape.
* `CoreEvent.step_snapshot` — no handler but the install moves the snapshot.
-/

namespace AdvisKV

namespace RaftLog

/-! ## Appending and merging arbitrary entries -/

theorem newEntry_index (term index : Nat) (param : ProposeParam) :
    (newEntry term index param).index = index := by
  cases param <;> rfl

variable {l : RaftLog} {es : List LogEntry} {e : LogEntry} {st st' : MergeState}

theorem appendNewEntry_consecutive (hl : l.Consecutive) (term : Nat) (param : ProposeParam) :
    (l.appendNewEntry term param).Consecutive := by
  refine ConsecutiveFrom.append_iff.mpr ⟨hl, ConsecutiveFrom.cons_iff.mpr ⟨?_, .nil _⟩⟩
  rw [newEntry_index, lastLogIndex_eq hl]
  rfl

theorem lastLogIndex_appendNewEntry (hl : l.Consecutive) (term : Nat) (param : ProposeParam) :
    (l.appendNewEntry term param).lastLogIndex = l.lastLogIndex + 1 := by
  rw [lastLogIndex_eq (appendNewEntry_consecutive hl term param), lastLogIndex_eq hl]
  simp [appendNewEntry, Nat.add_assoc]

/-- A new entry leaves the terms of the others alone. -/
theorem termAt_appendNewEntry (hl : l.Consecutive) (term : Nat) (param : ProposeParam) {i : Nat}
    (hi : i ≤ l.lastLogIndex) : (l.appendNewEntry term param).termAt i = l.termAt i := by
  have hlen := lastLogIndex_eq hl
  have hentry : (l.appendNewEntry term param).entryAt i = l.entryAt i := by
    show (if i ≤ l.snapshotIndex then none
      else (l.logEntries ++ [newEntry term (l.lastLogIndex + 1) param])[i - l.snapshotIndex - 1]?) =
        if i ≤ l.snapshotIndex then none else l.logEntries[i - l.snapshotIndex - 1]?
    split
    · rfl
    · exact List.getElem?_append_left (by omega)
  simp only [termAt, hentry]
  rfl

/-- One iteration of a merge into numbered entries: the entry is held already, conflicts with the one at its index,
or comes next. -/
inductive MergeStep (l : RaftLog) (e : LogEntry) (st : MergeState) : MergeState → Prop
  | skip (held : e.index ≤ l.snapshotIndex + st.updatedEntries.length) : MergeStep l e st st
  | cut (low : l.snapshotIndex < e.index) (high : e.index ≤ l.snapshotIndex + st.updatedEntries.length)
    (differs : ({ l with logEntries := st.updatedEntries } : RaftLog).termAt e.index ≠ e.term) :
    MergeStep l e st
      { updatedEntries := st.updatedEntries.take (e.index - l.snapshotIndex - 1) ++ [e]
        newEntries := st.newEntries ++ [e]
        needRewriteWal := true }
  | push (next : e.index = l.snapshotIndex + st.updatedEntries.length + 1) :
    MergeStep l e st
      { st with updatedEntries := st.updatedEntries ++ [e], newEntries := st.newEntries ++ [e] }

/-- On numbered entries the length says where the list ends, so `mergeEntry` takes one of the three steps. -/
theorem mergeEntry_step (hst : ConsecutiveFrom l.snapshotIndex st.updatedEntries)
    (h : mergeEntry l st e = .ok st') : MergeStep l e st st' := by
  have hlast : ({ l with logEntries := st.updatedEntries } : RaftLog).lastLogIndex =
      l.snapshotIndex + st.updatedEntries.length := lastLogIndex_eq hst
  simp only [mergeEntry, hlast] at h
  split at h
  · cases h
    exact .skip (by omega)
  next hlow =>
  split at h
  · next hhigh =>
    split at h
    · next hdiff =>
      cases h
      -- the entries reach the index, so the resize only cuts
      have hpad : e.index - l.snapshotIndex - 1 - st.updatedEntries.length = 0 := by omega
      rw [resizeEntries, hpad, List.replicate_zero, List.append_nil]
      exact .cut (by omega) hhigh hdiff
    · cases h
      exact .skip hhigh
  · split at h
    · next hnext =>
      cases h
      exact .push hnext
    · cases h

/-- An iteration keeps the numbering and ends at or past the entry it looked at. -/
theorem MergeStep.keeps (h : MergeStep l e st st')
    (hst : ConsecutiveFrom l.snapshotIndex st.updatedEntries) :
    ConsecutiveFrom l.snapshotIndex st'.updatedEntries ∧
      e.index ≤ l.snapshotIndex + st'.updatedEntries.length := by
  cases h with
  | skip held => exact ⟨hst, held⟩
  | cut low high differs =>
    have hlen : (st.updatedEntries.take (e.index - l.snapshotIndex - 1)).length =
        e.index - l.snapshotIndex - 1 := List.length_take_of_le (by omega)
    refine ⟨ConsecutiveFrom.append_iff.mpr ⟨hst.take _, ConsecutiveFrom.cons_iff.mpr ⟨?_, .nil _⟩⟩, ?_⟩
    · omega
    · rw [List.length_append, hlen, List.length_singleton]
      omega
  | push next =>
    refine ⟨ConsecutiveFrom.append_iff.mpr ⟨hst, ConsecutiveFrom.cons_iff.mpr ⟨next, .nil _⟩⟩, ?_⟩
    rw [List.length_append, List.length_singleton]
    omega

/-- **Induction on a merge.** -/
theorem mergeEntries_induction {P : MergeState → Prop} (h : mergeEntries l st es = .ok st')
    (hst : ConsecutiveFrom l.snapshotIndex st.updatedEntries) (hP : P st)
    (hstep : ∀ {e st st'}, e ∈ es → P st → MergeStep l e st st' → P st') : P st' := by
  induction es generalizing st with
  | nil =>
    cases h
    exact hP
  | cons e es ih =>
    simp only [mergeEntries] at h
    split at h
    · cases h
    · next st₁ hone =>
      have hfirst := mergeEntry_step hst hone
      exact ih h (hfirst.keeps hst).1 (hstep List.mem_cons_self hP hfirst) fun he =>
        hstep (List.mem_cons_of_mem _ he)

/-- The induction does not say which entry came last, so this one follows the list itself. -/
theorem mergeEntries_keeps (hst : ConsecutiveFrom l.snapshotIndex st.updatedEntries)
    (h : mergeEntries l st es = .ok st') :
    ConsecutiveFrom l.snapshotIndex st'.updatedEntries ∧
      ∀ e, es.getLast? = some e → e.index ≤ l.snapshotIndex + st'.updatedEntries.length := by
  induction es generalizing st with
  | nil =>
    cases h
    exact ⟨hst, by simp⟩
  | cons e es ih =>
    simp only [mergeEntries] at h
    split at h
    · cases h
    · next st₁ hstep =>
      obtain ⟨hcons, hidx⟩ := (mergeEntry_step hst hstep).keeps hst
      obtain ⟨hfin, hrest⟩ := ih hcons h
      refine ⟨hfin, fun x hx => ?_⟩
      cases es with
      | nil =>
        cases h
        cases hx
        exact hidx
      | cons y ys => exact hrest x (by rwa [List.getLast?_cons_cons] at hx)

/-- The log after a merge has the entries that were built. If none was pushed they are its own. -/
theorem appendEntriesFromLeader_merges {l' : RaftLog} (hl : l.Consecutive) {r : LogAppendResult}
    (h : l.appendEntriesFromLeader es = .ok (l', r)) :
    ∃ st, mergeEntries l { updatedEntries := l.logEntries } es = .ok st ∧ l'.logEntries = st.updatedEntries ∧
      ((l' = l ∧ r = {}) ∨ (l' = l.updateEntries st.updatedEntries ∧
        r = if st.needRewriteWal then { entriesToRewrite := some st.updatedEntries }
          else { entriesToAppend := st.newEntries })) := by
  unfold appendEntriesFromLeader at h
  split at h
  · next hnil =>
    cases h
    subst hnil
    exact ⟨_, rfl, rfl, .inl ⟨rfl, rfl⟩⟩
  split at h
  · cases h
  next st hmerge =>
  split at h
  · next hnew =>
    cases h
    -- every step but a skip pushes the entry
    have hown : st.newEntries = [] → st.updatedEntries = l.logEntries := by
      refine mergeEntries_induction (P := fun st => st.newEntries = [] → st.updatedEntries = l.logEntries)
        hmerge hl (fun _ => rfl) fun _ hP hone hnil => ?_
      cases hone with
      | skip => exact hP hnil
      | cut => simp at hnil
      | push => simp at hnil
    exact ⟨st, hmerge, (hown hnew).symm, .inl ⟨rfl, rfl⟩⟩
  · cases h
    exact ⟨st, hmerge, rfl, .inr ⟨rfl, rfl⟩⟩

/-- **A merge of any entries** keeps the snapshot and the numbering, and reaches the last entry sent. -/
theorem appendEntriesFromLeader_keeps {l' : RaftLog} (hl : l.Consecutive) {r : LogAppendResult}
    (h : l.appendEntriesFromLeader es = .ok (l', r)) :
    l'.snapshotIndex = l.snapshotIndex ∧ l'.snapshotTerm = l.snapshotTerm ∧ l'.Consecutive ∧
      ∀ e, es.getLast? = some e → e.index ≤ l'.lastLogIndex := by
  obtain ⟨st, hmerge, hentries, hcases⟩ := appendEntriesFromLeader_merges hl h
  have hstart : ConsecutiveFrom l.snapshotIndex
      ({ updatedEntries := l.logEntries } : MergeState).updatedEntries := hl
  obtain ⟨hcons, hlast⟩ := mergeEntries_keeps hstart hmerge
  obtain ⟨hindex, hterm⟩ : l'.snapshotIndex = l.snapshotIndex ∧ l'.snapshotTerm = l.snapshotTerm := by
    rcases hcases with ⟨rfl, -⟩ | ⟨rfl, -⟩ <;> exact ⟨rfl, rfl⟩
  rw [← hentries, ← hindex] at hcons
  refine ⟨hindex, hterm, hcons, fun e he => ?_⟩
  rw [lastLogIndex_eq hcons, hindex, hentries]
  exact hlast e he

/-- A log that holds everything sent is left as it is. -/
theorem appendEntriesFromLeader_of_holds (h : ∀ e ∈ es, l.holds e = true) :
    l.appendEntriesFromLeader es = .ok (l, {}) := by
  have hmerge : mergeEntries l { updatedEntries := l.logEntries } es =
      .ok { updatedEntries := l.logEntries } := by
    induction es with
    | nil => rfl
    | cons e es ih =>
      have hone : mergeEntry l { updatedEntries := l.logEntries } e =
          .ok { updatedEntries := l.logEntries } := by
        have he := h e List.mem_cons_self
        simp only [holds, Bool.or_eq_true, Bool.and_eq_true, decide_eq_true_eq] at he
        rw [mergeEntry_self]
        rcases he with hs | ⟨hi, ht⟩
        · rw [if_pos hs]
        · simp [hi, ht]
      simp only [mergeEntries, hone]
      exact ih fun x hx => h x (List.mem_cons_of_mem _ hx)
  unfold appendEntriesFromLeader
  split
  · rfl
  · simp [hmerge]

/-! ## Snapshots -/

/-- What stays behind a new snapshot starts right above it, or nothing stays. -/
theorem installSnapshot_consecutive (hl : l.Consecutive) (S t : Nat) :
    (l.installSnapshot S t).Consecutive := by
  show ConsecutiveFrom S (l.retainedEntriesAfterSnapshot S t)
  unfold retainedEntriesAfterSnapshot
  split
  · exact .nil _
  split
  · exact .nil _
  split
  · exact .nil _
  · next hbound =>
    -- the entries up to `S` are dropped, and the rest is numbered from there
    have hle : l.snapshotIndex ≤ S ∧ S - l.snapshotIndex ≤ l.logEntries.length := by omega
    have := hl.drop hle.2
    rwa [Nat.add_sub_cancel' hle.1] at this

theorem snapshotIndex_le_lastLogIndex (hl : l.Consecutive) :
    l.snapshotIndex ≤ l.lastLogIndex := by
  rw [lastLogIndex_eq hl]
  exact Nat.le_add_right _ _

end RaftLog

/-! ## The shape, move by move -/

structure RaftCore.Shaped (c : RaftCore) : Prop where
  consecutive : c.raftLog.Consecutive
  snapshot_le : c.raftLog.snapshotIndex ≤ c.raftApply.commitIndex

/-- An install lifts the commit index to the snapshot. -/
theorem RaftApply.installSnapshot_commitIndex (a : RaftApply) (S : Nat) :
    (a.installSnapshot S).commitIndex = max a.commitIndex S := by
  unfold installSnapshot
  simp only
  split <;> omega

/-- A follower's new commit index is its old one or lies between the snapshot and its last index. -/
theorem RaftApply.le_advanceCommitIndexFromLeader {a : RaftApply} {log : RaftLog} {n : Nat}
    (hn : n ≤ a.commitIndex) (hlast : n ≤ log.lastLogIndex) (lc : Nat) :
    n ≤ (a.advanceCommitIndexFromLeader log lc).commitIndex := by
  unfold advanceCommitIndexFromLeader
  split
  · exact le_min (by omega) hlast
  · exact hn

section Moves

variable {ev : CoreEvent} {s s' : CoreState}

theorem CoreState.becomeFollower_raftLog (s : CoreState) (t : Nat) :
    (s.becomeFollower t).core.raftLog = s.core.raftLog := by
  rw [becomeFollower_core]

theorem CoreState.becomeFollower_raftApply (s : CoreState) (t : Nat) :
    (s.becomeFollower t).core.raftApply = s.core.raftApply := by
  rw [becomeFollower_core]

/-- A move keeps the entries numbered consecutively, whether it adds one, merges some or installs over them. -/
theorem Micro.consecutive (h : Micro ev s s') (hs : s.core.raftLog.Consecutive) :
    s'.core.raftLog.Consecutive := by
  cases h with
  | follow term hle =>
    rw [CoreState.becomeFollower_raftLog]
    exact hs
  | lead => exact RaftLog.appendNewEntry_consecutive hs _ _
  | append param => exact RaftLog.appendNewEntry_consecutive hs _ _
  | accept param log r event role term member prev merged =>
    rw [(CoreState.acceptAppend_core (s.storeMerge log r) param.leaderCommit).1]
    exact (RaftLog.appendEntriesFromLeader_keeps hs merged).2.2.1
  | install header event =>
    simp only [CoreState.installSnapshot, RaftCore.installSnapshotIntoLog_raftLog]
    exact RaftLog.installSnapshot_consecutive hs _ _
  | _ => exact hs

/-- A move keeps the snapshot below the commit index. -/
theorem Micro.shaped (h : Micro ev s s') (hs : s.core.Shaped) : s'.core.Shaped := by
  refine ⟨h.consecutive hs.consecutive, ?_⟩
  have hle := hs.snapshot_le
  cases h with
  | follow term hle' =>
    rw [CoreState.becomeFollower_raftLog, CoreState.becomeFollower_raftApply]
    exact hle
  | leaderCommit new ready role later => exact hle.trans later.le
  | accept param log r event role term member prev merged =>
    obtain ⟨hlog, happly, -, -⟩ :=
      CoreState.acceptAppend_core (s.storeMerge log r) param.leaderCommit
    obtain ⟨hsnap, -, hcons, -⟩ := RaftLog.appendEntriesFromLeader_keeps hs.consecutive merged
    rw [hlog, happly]
    -- the leader's commit index is capped by the last index, which is not below the snapshot
    refine RaftApply.le_advanceCommitIndexFromLeader ?_ (RaftLog.snapshotIndex_le_lastLogIndex hcons) _
    rw [hsnap]
    exact hle
  | install header event =>
    simp only [CoreState.installSnapshot, RaftCore.installSnapshotIntoLog_raftLog,
      RaftCore.installSnapshotIntoLog_raftApply, RaftApply.installSnapshot_commitIndex]
    exact le_max_right _ _
  | _ => exact hle

/-- Hence so does every handler. -/
theorem CoreEvent.step_shaped (ev : CoreEvent) {c : RaftCore} (hc : c.Shaped) :
    (ev.step { core := c }).core.Shaped :=
  CoreEvent.step_induction (P := fun s => s.core.Shaped) (fun _ _ => Micro.shaped) hc

/-- An event other than the install of a snapshot. -/
def CoreEvent.KeepsSnapshot (ev : CoreEvent) : Prop := ∀ header, ev ≠ .installSnapshot header

/-- The log keeps the index and the term of its snapshot until one is installed. -/
theorem Micro.snapshot_eq (h : Micro ev s s') (hev : ev.KeepsSnapshot)
    (hs : s.core.raftLog.Consecutive) :
    s'.core.raftLog.snapshotIndex = s.core.raftLog.snapshotIndex ∧
      s'.core.raftLog.snapshotTerm = s.core.raftLog.snapshotTerm := by
  cases h with
  | follow term hle =>
    rw [CoreState.becomeFollower_raftLog]
    exact ⟨rfl, rfl⟩
  | accept param log r event role term member prev merged =>
    obtain ⟨hindex, hterm, -, -⟩ := RaftLog.appendEntriesFromLeader_keeps hs merged
    rw [(CoreState.acceptAppend_core (s.storeMerge log r) param.leaderCommit).1]
    exact ⟨hindex, hterm⟩
  | install header event => exact absurd event (hev header)
  | _ => exact ⟨rfl, rfl⟩

/-- **Snapshots stay.** No handler but the install moves the snapshot of the log. -/
theorem CoreEvent.step_snapshot (hev : ev.KeepsSnapshot) {c : RaftCore} (hc : c.raftLog.Consecutive) :
    (ev.step { core := c }).core.raftLog.snapshotIndex = c.raftLog.snapshotIndex ∧
      (ev.step { core := c }).core.raftLog.snapshotTerm = c.raftLog.snapshotTerm :=
  (CoreEvent.step_induction
    (P := fun s => s.core.raftLog.Consecutive ∧ s.core.raftLog.snapshotIndex = c.raftLog.snapshotIndex ∧
      s.core.raftLog.snapshotTerm = c.raftLog.snapshotTerm)
    (fun _ _ hm ⟨hs, hindex, hterm⟩ =>
      have hsame := hm.snapshot_eq hev hs
      ⟨hm.consecutive hs, hsame.1.trans hindex, hsame.2.trans hterm⟩)
    ⟨hc, rfl, rfl⟩).2

end Moves

end AdvisKV
