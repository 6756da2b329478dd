import AdvisKV.Model.Types

/-!
# AdvisKV — the Raft log

`RaftLog` keeps the entries after the last snapshot, the snapshot's index and term, and an index from
request ids to log positions. The definitions follow `raft_log.cpp` branch by branch; the lemmas say
what they compute when the retained entries are numbered consecutively after the snapshot.

Main results:

* `appendEntriesFromLeader_eq` — merging a consecutive slice keeps the log when it already holds
  every entry of the slice, and otherwise cuts it at the first entry it does not hold and appends the
  rest.
-/

namespace AdvisKV

structure RaftLog where
  logEntries : List LogEntry := []
  requestIndex : List (Bytes × Nat) := []
  snapshotIndex : Nat := 0
  snapshotTerm : Nat := 0
deriving DecidableEq, Repr

/-- `RaftLog::AppendEntriesResult`: what the WAL has to do after a merge. -/
structure LogAppendResult where
  entriesToAppend : List LogEntry := []
  entriesToRewrite : Option (List LogEntry) := none
deriving DecidableEq, Repr

/-- `std::vector::resize`: cut, or pad with default-constructed entries. -/
def resizeEntries (es : List LogEntry) (n : Nat) : List LogEntry :=
  es.take n ++ List.replicate (n - es.length) ({} : LogEntry)

namespace RaftLog

/-! ## Queries -/

def lastLogIndex (l : RaftLog) : Nat :=
  match l.logEntries.getLast? with
  | none => l.snapshotIndex
  | some e => e.index

def lastLogTerm (l : RaftLog) : Nat :=
  match l.logEntries.getLast? with
  | none => l.snapshotTerm
  | some e => e.term

/-- `entry_at`: a negative offset in the source is an index at or below the snapshot. -/
def entryAt (l : RaftLog) (index : Nat) : Option LogEntry :=
  if index ≤ l.snapshotIndex then none else l.logEntries[index - l.snapshotIndex - 1]?

def termAt (l : RaftLog) (index : Nat) : Nat :=
  if index = 0 then 0
  else if index = l.snapshotIndex then l.snapshotTerm
  else if index < l.snapshotIndex then 0
  else ((l.entryAt index).map LogEntry.term).getD 0

/-- `entries_from(index, max_count)`. -/
def entriesFrom (l : RaftLog) (index : Nat) (maxCount : Nat) : List LogEntry :=
  if l.lastLogIndex < index ∨ maxCount = 0 then []
  else if index ≤ l.snapshotIndex then []
  else (l.logEntries.drop (index - l.snapshotIndex - 1)).take maxCount

/-! ## The request index -/

/-- `unordered_map::emplace`: the first binding of a key stays. -/
def emplace (m : List (Bytes × Nat)) (k : Bytes) (v : Nat) : List (Bytes × Nat) :=
  if (m.lookup k).isSome then m else m ++ [(k, v)]

def indexRequestId (m : List (Bytes × Nat)) (entry : LogEntry) : List (Bytes × Nat) :=
  if entry.requestId = [] then m
  else if !entry.opType.isKvWriteOp then m
  else emplace m entry.requestId entry.index

def rebuildRequestIndex (es : List LogEntry) : List (Bytes × Nat) :=
  es.foldl indexRequestId []

def findRequest (l : RaftLog) (requestId : Bytes) : Option LogEntry :=
  if requestId = [] then none
  else match l.requestIndex.lookup requestId with
    | none => none
    | some i => l.entryAt i

/-! ## Appending -/

/-- The entry `append_new_entry` builds from a proposal. -/
def newEntry (term : Nat) (index : Nat) : ProposeParam → LogEntry
  | .write w =>
    { term, index, opType := w.op, key := w.key, value := w.value, expected := w.expected,
      requestId := w.requestId }
  | .configChange c =>
    { term, index, opType := c.op, configMember := c.member, configReplicaId := c.targetReplicaId }
  | .noop => { term, index, opType := .none }

def appendNewEntry (l : RaftLog) (term : Nat) (param : ProposeParam) : RaftLog :=
  let entry := newEntry term (l.lastLogIndex + 1) param
  { l with
    logEntries := l.logEntries ++ [entry]
    requestIndex := indexRequestId l.requestIndex entry }

/-- `update_entries`, also the last step of a merge: replace the entries and index them again. -/
def updateEntries (l : RaftLog) (es : List LogEntry) : RaftLog :=
  { l with logEntries := es, requestIndex := rebuildRequestIndex es }

/-- The locals of the merge loop of `append_entries_from_leader`. -/
structure MergeState where
  updatedEntries : List LogEntry
  newEntries : List LogEntry := []
  needRewriteWal : Bool := false

/-- One iteration of the merge loop. `updated_last_log_index` and `updated_get_term` of the source are
`lastLogIndex` and `termAt` over the entries built so far. -/
def mergeEntry (l : RaftLog) (st : MergeState) (entry : LogEntry) : Except Status MergeState :=
  let updated := { l with logEntries := st.updatedEntries }
  if entry.index ≤ l.snapshotIndex then .ok st
  else if entry.index ≤ updated.lastLogIndex then
    if updated.termAt entry.index ≠ entry.term then
      .ok { updatedEntries :=
              resizeEntries st.updatedEntries (entry.index - l.snapshotIndex - 1) ++ [entry]
            newEntries := st.newEntries ++ [entry]
            needRewriteWal := true }
    else .ok st
  else if entry.index = updated.lastLogIndex + 1 then
    .ok { st with
          updatedEntries := st.updatedEntries ++ [entry]
          newEntries := st.newEntries ++ [entry] }
  else
    .error ⟨.error, "raft log append entries found gap, last_log_index=" ++
      toString updated.lastLogIndex ++ ", entry_index=" ++ toString entry.index⟩

def mergeEntries (l : RaftLog) (st : MergeState) : List LogEntry → Except Status MergeState
  | [] => .ok st
  | e :: es =>
    match mergeEntry l st e with
    | .error s => .error s
    | .ok st' => mergeEntries l st' es

/-- `append_entries_from_leader`: a gap leaves the log as it was. -/
def appendEntriesFromLeader (l : RaftLog) (entries : List LogEntry) :
    Except Status (RaftLog × LogAppendResult) :=
  if entries = [] then .ok (l, {})
  else match mergeEntries l { updatedEntries := l.logEntries } entries with
    | .error s => .error s
    | .ok st =>
      if st.newEntries = [] then .ok (l, {})
      else
        .ok (l.updateEntries st.updatedEntries,
          if st.needRewriteWal then { entriesToRewrite := some st.updatedEntries }
          else { entriesToAppend := st.newEntries })

/-! ## Snapshots -/

/-- `truncate`: drop the entries a local snapshot covers. -/
def truncate (l : RaftLog) (newSnapshotIndex : Nat) : Status × RaftLog :=
  if newSnapshotIndex ≤ l.snapshotIndex then (⟨.error, ""⟩, l)
  else if l.lastLogIndex < newSnapshotIndex then (⟨.error, ""⟩, l)
  else
    let kept := l.logEntries.drop (newSnapshotIndex - l.snapshotIndex)
    (.OK,
      { logEntries := kept
        requestIndex := rebuildRequestIndex kept
        snapshotIndex := newSnapshotIndex
        snapshotTerm := l.termAt newSnapshotIndex })

/-- `retained_entries_after_snapshot`: the suffix that survives, kept only when the old log agrees with
the snapshot at its last index. The offset guard of the source (`keep_from < 0` or past the end) is
the last test. -/
def retainedEntriesAfterSnapshot (l : RaftLog) (newSnapshotIndex : Nat)
    (newSnapshotTerm : Nat) : List LogEntry :=
  if l.lastLogIndex ≤ newSnapshotIndex then []
  else if l.termAt newSnapshotIndex ≠ newSnapshotTerm then []
  else if newSnapshotIndex < l.snapshotIndex ∨
      l.logEntries.length < newSnapshotIndex - l.snapshotIndex then []
  else l.logEntries.drop (newSnapshotIndex - l.snapshotIndex)

def installSnapshot (l : RaftLog) (newSnapshotIndex : Nat) (newSnapshotTerm : Nat) : RaftLog :=
  let retained := l.retainedEntriesAfterSnapshot newSnapshotIndex newSnapshotTerm
  { logEntries := retained
    requestIndex := rebuildRequestIndex retained
    snapshotIndex := newSnapshotIndex
    snapshotTerm := newSnapshotTerm }

/-! ## Consecutively numbered entries -/

/-- `es` carries the indexes `start + 1`, `start + 2`, … in order. -/
def ConsecutiveFrom (start : Nat) (es : List LogEntry) : Prop :=
  ∀ k e, es[k]? = some e → e.index = start + k + 1

/-- The retained entries are numbered from the snapshot on. -/
def Consecutive (l : RaftLog) : Prop := ConsecutiveFrom l.snapshotIndex l.logEntries

theorem ConsecutiveFrom.nil (start : Nat) : ConsecutiveFrom start [] := by
  intro k e h
  simp at h

variable {start i p : Nat} {e : LogEntry} {es rest : List LogEntry} {l : RaftLog} {r : LogAppendResult}

theorem ConsecutiveFrom.cons_iff :
    ConsecutiveFrom start (e :: es) ↔ e.index = start + 1 ∧ ConsecutiveFrom (start + 1) es := by
  constructor
  · intro h
    refine ⟨by simpa using h 0 e rfl, fun k e' hk => ?_⟩
    have := h (k + 1) e' (by simpa using hk)
    omega
  · rintro ⟨h0, h⟩ k e' hk
    cases k with
    | zero => simp at hk; subst hk; omega
    | succ k =>
      have := h k e' (by simpa using hk)
      omega

theorem ConsecutiveFrom.append_iff {xs ys : List LogEntry} :
    ConsecutiveFrom start (xs ++ ys) ↔
      ConsecutiveFrom start xs ∧ ConsecutiveFrom (start + xs.length) ys := by
  induction xs generalizing start with
  | nil => simp [ConsecutiveFrom.nil]
  | cons x xs ih =>
    simp only [List.cons_append, cons_iff, ih, List.length_cons, and_assoc]
    rw [show start + 1 + xs.length = start + (xs.length + 1) by omega]

theorem ConsecutiveFrom.take (h : ConsecutiveFrom start es) (n : Nat) :
    ConsecutiveFrom start (es.take n) := by
  rw [← List.take_append_drop n es, append_iff] at h
  exact h.1

theorem ConsecutiveFrom.drop (h : ConsecutiveFrom start es) {n : Nat} (hn : n ≤ es.length) :
    ConsecutiveFrom (start + n) (es.drop n) := by
  rw [← List.take_append_drop n es, append_iff, List.length_take_of_le hn] at h
  exact h.2

/-- On numbered entries the last index is a matter of length. -/
theorem lastLogIndex_eq (h : l.Consecutive) :
    l.lastLogIndex = l.snapshotIndex + l.logEntries.length := by
  unfold lastLogIndex
  rcases hl : l.logEntries.getLast? with _ | e
  · simp [List.getLast?_eq_none_iff.mp hl]
  · rw [List.getLast?_eq_getElem?] at hl
    have hpos : 0 < l.logEntries.length := by
      by_contra hc
      simp [List.length_eq_zero_iff.mp (Nat.eq_zero_of_not_pos hc)] at hl
    have := h _ e hl
    simp only
    omega

theorem entryAt_updateEntries (l : RaftLog) (es : List LogEntry) (i : Nat) :
    (l.updateEntries es).entryAt i =
      if i ≤ l.snapshotIndex then none else es[i - l.snapshotIndex - 1]? := rfl

/-- What is found at an index lies behind the snapshot. -/
theorem entryAt_eq_some (he : l.entryAt i = some e) :
    l.snapshotIndex < i ∧ l.logEntries[i - l.snapshotIndex - 1]? = some e := by
  unfold entryAt at he
  split at he
  · cases he
  · next hi => exact ⟨Nat.lt_of_not_le hi, he⟩

theorem mem_of_entryAt (he : l.entryAt i = some e) : e ∈ l.logEntries :=
  List.mem_of_getElem? (entryAt_eq_some he).2

/-- It carries that index. -/
theorem entryAt_index (h : l.Consecutive) (he : l.entryAt i = some e) : e.index = i := by
  obtain ⟨hi, hget⟩ := entryAt_eq_some he
  have := h _ e hget
  omega

/-- The indexes with an entry are those above the snapshot, up to the last. -/
theorem entryAt_isSome_iff (h : l.Consecutive) :
    (l.entryAt i).isSome ↔ l.snapshotIndex < i ∧ i ≤ l.lastLogIndex := by
  rw [lastLogIndex_eq h]
  unfold entryAt
  split
  · simp; omega
  · simp; omega

/-- The term of an index with an entry is that entry's. -/
theorem termAt_of_entryAt (he : l.entryAt i = some e) : l.termAt i = e.term := by
  have hi := (entryAt_eq_some he).1
  simp [termAt, he, show i ≠ 0 by omega, show i ≠ l.snapshotIndex by omega,
    show ¬ i < l.snapshotIndex by omega]

/-! ## Merging a slice -/

/-- The log already holds `e`: the snapshot covers its index, or the entry there has its term. -/
def holds (l : RaftLog) (e : LogEntry) : Bool :=
  decide (e.index ≤ l.snapshotIndex) ||
    (decide (e.index ≤ l.lastLogIndex) && decide (l.termAt e.index = e.term))

/-- Once the slice continues exactly where the built entries end, the loop only appends. -/
theorem mergeEntries_append {st : MergeState} (hst : ConsecutiveFrom l.snapshotIndex st.updatedEntries)
    (hes : ConsecutiveFrom (l.snapshotIndex + st.updatedEntries.length) es) :
    mergeEntries l st es =
      .ok { updatedEntries := st.updatedEntries ++ es
            newEntries := st.newEntries ++ es
            needRewriteWal := st.needRewriteWal } := by
  induction es generalizing st with
  | nil => simp [mergeEntries]
  | cons e es ih =>
    obtain ⟨he, hes'⟩ := ConsecutiveFrom.cons_iff.mp hes
    have hlast : ({ l with logEntries := st.updatedEntries } : RaftLog).lastLogIndex =
        l.snapshotIndex + st.updatedEntries.length := lastLogIndex_eq hst
    have hstep : mergeEntry l st e =
        .ok { st with
              updatedEntries := st.updatedEntries ++ [e]
              newEntries := st.newEntries ++ [e] } := by
      simp only [mergeEntry, hlast]
      rw [if_neg (by omega), if_neg (by omega), if_pos (by omega)]
    have hst' : ConsecutiveFrom l.snapshotIndex (st.updatedEntries ++ [e]) :=
      ConsecutiveFrom.append_iff.mpr
        ⟨hst, ConsecutiveFrom.cons_iff.mpr ⟨he, ConsecutiveFrom.nil _⟩⟩
    simp only [mergeEntries, hstep]
    rw [ih hst' (by simpa [Nat.add_assoc] using hes')]
    simp

/-- The entries of `es` the log does not hold yet, from the first such entry on. -/
def missing (l : RaftLog) (es : List LogEntry) : List LogEntry := es.dropWhile l.holds

/-- The first iteration sees the log itself. -/
theorem mergeEntry_self (l : RaftLog) (e : LogEntry) :
    mergeEntry l { updatedEntries := l.logEntries } e =
      if e.index ≤ l.snapshotIndex then .ok { updatedEntries := l.logEntries }
      else if e.index ≤ l.lastLogIndex then
        if l.termAt e.index ≠ e.term then
          .ok { updatedEntries :=
                  resizeEntries l.logEntries (e.index - l.snapshotIndex - 1) ++ [e]
                newEntries := [e]
                needRewriteWal := true }
        else .ok { updatedEntries := l.logEntries }
      else if e.index = l.lastLogIndex + 1 then
        .ok { updatedEntries := l.logEntries ++ [e], newEntries := [e] }
      else
        .error ⟨.error, "raft log append entries found gap, last_log_index=" ++
          toString l.lastLogIndex ++ ", entry_index=" ++ toString e.index⟩ := rfl

/-- The loop, run on the log's own entries, stops matching at the first entry the log does not hold. -/
theorem mergeEntries_eq (hl : l.Consecutive) (hes : ConsecutiveFrom p es) (hp : p ≤ l.lastLogIndex) :
    mergeEntries l { updatedEntries := l.logEntries } es =
      match l.missing es with
      | [] => .ok { updatedEntries := l.logEntries }
      | e :: r =>
        .ok { updatedEntries := l.logEntries.take (e.index - l.snapshotIndex - 1) ++ e :: r
              newEntries := e :: r
              needRewriteWal := decide (e.index ≤ l.lastLogIndex) } := by
  induction es generalizing p with
  | nil => simp [mergeEntries, missing]
  | cons e es ih =>
    obtain ⟨he, hes'⟩ := ConsecutiveFrom.cons_iff.mp hes
    have hlen := lastLogIndex_eq hl
    by_cases hh : l.holds e
    · -- the log holds `e`: the loop leaves its locals alone
      have hstep : mergeEntry l { updatedEntries := l.logEntries } e =
          .ok { updatedEntries := l.logEntries } := by
        simp only [holds, Bool.or_eq_true, Bool.and_eq_true, decide_eq_true_eq] at hh
        rw [mergeEntry_self]
        rcases hh with hs | ⟨hi, ht⟩
        · rw [if_pos hs]
        · simp [hi, ht]
      have hp' : p + 1 ≤ l.lastLogIndex := by
        simp only [holds, Bool.or_eq_true, Bool.and_eq_true, decide_eq_true_eq] at hh
        omega
      have hmiss : l.missing (e :: es) = l.missing es := by simp [missing, hh]
      simp only [mergeEntries, hstep, hmiss]
      exact ih hes' hp'
    · -- the first missing entry: cut the log before it, everything after is appended
      have hmiss : l.missing (e :: es) = e :: es := by simp [missing, hh]
      simp only [holds, Bool.or_eq_true, Bool.and_eq_true, decide_eq_true_eq, not_or, not_and] at hh
      obtain ⟨hs, ht⟩ := hh
      have htake : (l.logEntries.take (e.index - l.snapshotIndex - 1)).length =
          e.index - l.snapshotIndex - 1 := List.length_take_of_le (by omega)
      have hcut : ConsecutiveFrom l.snapshotIndex
          (l.logEntries.take (e.index - l.snapshotIndex - 1) ++ [e]) :=
        ConsecutiveFrom.append_iff.mpr ⟨hl.take _,
          ConsecutiveFrom.cons_iff.mpr ⟨by omega, ConsecutiveFrom.nil _⟩⟩
      have hstep : mergeEntry l { updatedEntries := l.logEntries } e =
          .ok { updatedEntries := l.logEntries.take (e.index - l.snapshotIndex - 1) ++ [e]
                newEntries := [e]
                needRewriteWal := decide (e.index ≤ l.lastLogIndex) } := by
        rw [mergeEntry_self, if_neg hs]
        by_cases hi : e.index ≤ l.lastLogIndex
        · rw [if_pos hi, if_pos (ht hi)]
          have hpad : e.index - l.snapshotIndex - 1 - l.logEntries.length = 0 := by omega
          simp [resizeEntries, hi, hpad]
        · rw [if_neg hi, if_pos (by omega), List.take_of_length_le (by omega)]
          simp [hi]
      simp only [mergeEntries, hstep, hmiss]
      rw [mergeEntries_append hcut (by
        rw [List.length_append, htake, List.length_singleton]
        rwa [show l.snapshotIndex + (e.index - l.snapshotIndex - 1 + 1) = p + 1 by omega])]
      simp

/-- **A merge.** A slice that starts right after an index the log reaches is never a gap. The log is
unchanged when it holds the whole slice; otherwise it is cut before the first missing entry and the
rest of the slice is appended. The WAL is rewritten exactly when something was cut. -/
theorem appendEntriesFromLeader_eq (hl : l.Consecutive) (hes : ConsecutiveFrom p es) (hp : p ≤ l.lastLogIndex) :
    l.appendEntriesFromLeader es =
      match l.missing es with
      | [] => .ok (l, {})
      | e :: r =>
        let merged := l.logEntries.take (e.index - l.snapshotIndex - 1) ++ e :: r
        .ok (l.updateEntries merged,
          if e.index ≤ l.lastLogIndex then { entriesToRewrite := some merged }
          else { entriesToAppend := e :: r }) := by
  unfold appendEntriesFromLeader
  by_cases hnil : es = []
  · subst hnil
    simp [missing]
  · rw [if_neg hnil, mergeEntries_eq hl hes hp]
    rcases l.missing es with _ | ⟨e, r⟩
    · simp
    · simp

/-- Where a slice stops matching: the entries before are held, the first missing one is not; it lies
above the snapshot and at most one past the log's end. -/
theorem missing_cons (hl : l.Consecutive) (hes : ConsecutiveFrom p es) (hp : p ≤ l.lastLogIndex)
    (hm : l.missing es = e :: rest) :
    ∃ held, es = held ++ e :: rest ∧ (∀ x ∈ held, l.holds x = true) ∧
      e.index = p + held.length + 1 ∧ l.snapshotIndex < e.index ∧ e.index ≤ l.lastLogIndex + 1 ∧
      (e.index ≤ l.lastLogIndex → l.termAt e.index ≠ e.term) := by
  induction es generalizing p with
  | nil => simp [missing] at hm
  | cons x xs ih =>
    obtain ⟨hx, hxs⟩ := ConsecutiveFrom.cons_iff.mp hes
    by_cases hh : l.holds x = true
    · have hm' : l.missing xs = e :: rest := by simpa [missing, hh] using hm
      have hp' : p + 1 ≤ l.lastLogIndex := by
        have := lastLogIndex_eq hl
        simp only [holds, Bool.or_eq_true, Bool.and_eq_true, decide_eq_true_eq] at hh
        omega
      obtain ⟨held, h1, h2, h3, h4⟩ := ih hxs hp' hm'
      refine ⟨x :: held, by rw [h1]; rfl, ?_, by rw [h3, List.length_cons]; omega, h4⟩
      intro y hy
      rcases List.mem_cons.mp hy with rfl | hy
      · exact hh
      · exact h2 y hy
    · have hcons : x = e ∧ xs = rest := by simpa [missing, hh] using hm
      obtain ⟨rfl, rfl⟩ := hcons
      simp only [holds, Bool.or_eq_true, Bool.and_eq_true, decide_eq_true_eq, not_or, not_and] at hh
      exact ⟨[], rfl, by simp, by simpa using hx, by omega, by omega, hh.2⟩

/-- A merge never moves the snapshot, and keeps the numbering. -/
theorem appendEntriesFromLeader_consecutive {l' : RaftLog} (hl : l.Consecutive) (hes : ConsecutiveFrom p es)
    (hp : p ≤ l.lastLogIndex) (h : l.appendEntriesFromLeader es = .ok (l', r)) :
    l'.snapshotIndex = l.snapshotIndex ∧ l'.snapshotTerm = l.snapshotTerm ∧ l'.Consecutive := by
  rw [appendEntriesFromLeader_eq hl hes hp] at h
  rcases hm : l.missing es with _ | ⟨e, rest⟩
  · rw [hm] at h
    obtain ⟨rfl, -⟩ := Prod.mk.inj (Except.ok.inj h)
    exact ⟨rfl, rfl, hl⟩
  · rw [hm] at h
    obtain ⟨rfl, -⟩ := Prod.mk.inj (Except.ok.inj h)
    obtain ⟨held, hsplit, -, hidx, hs, hlast, -⟩ := missing_cons hl hes hp hm
    have hlen := lastLogIndex_eq hl
    refine ⟨rfl, rfl, ConsecutiveFrom.append_iff.mpr ⟨hl.take _, ?_⟩⟩
    rw [List.length_take_of_le (by omega)]
    have hrest : ConsecutiveFrom (p + held.length) (e :: rest) := by
      rw [hsplit] at hes
      exact (ConsecutiveFrom.append_iff.mp hes).2
    have hstart : l.snapshotIndex + (e.index - l.snapshotIndex - 1) = p + held.length := by omega
    rw [← hstart] at hrest
    exact hrest

/-- **The merged log, index by index.** Below the first missing entry it is the old log, from there on
it is the slice. -/
theorem appendEntriesFromLeader_entryAt {l' : RaftLog} (hl : l.Consecutive) (hes : ConsecutiveFrom p es)
    (hp : p ≤ l.lastLogIndex) (h : l.appendEntriesFromLeader es = .ok (l', r)) (hm : l.missing es = e :: rest)
    (i : Nat) :
    l'.entryAt i = if i < e.index then l.entryAt i else es[i - p - 1]? := by
  obtain ⟨held, hsplit, -, hidx, hs, hlast, -⟩ := missing_cons hl hes hp hm
  rw [appendEntriesFromLeader_eq hl hes hp, hm] at h
  obtain ⟨rfl, -⟩ := Prod.mk.inj (Except.ok.inj h)
  have hlen := lastLogIndex_eq hl
  have htake : (l.logEntries.take (e.index - l.snapshotIndex - 1)).length =
      e.index - l.snapshotIndex - 1 := List.length_take_of_le (by omega)
  rw [entryAt_updateEntries]
  by_cases hi : i < e.index
  · rw [if_pos hi, entryAt]
    by_cases his : i ≤ l.snapshotIndex
    · rw [if_pos his, if_pos his]
    · rw [if_neg his, if_neg his, List.getElem?_append_left (by omega),
        List.getElem?_take_of_lt (by omega)]
  · rw [if_neg hi, if_neg (by omega), List.getElem?_append_right (by omega), htake, hsplit,
      List.getElem?_append_right (by omega)]
    congr 1
    omega

end RaftLog

end AdvisKV
