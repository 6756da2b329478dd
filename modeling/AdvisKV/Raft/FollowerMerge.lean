import AdvisKV.Model.RaftLog
import Mathlib.Data.List.TakeWhile

/-!
# AdvisKV — merging the leader's entries

`append_entries_from_leader` walks over the leader's entries with three cases for each index and keeps a copy of
the log, a list of new entries and a flag as it goes. What it is for can be said without a loop: keep the log
before the first entry whose term differs and continue with the leader's entries from there on; when no term
differs, keep all of it and add what lies behind its end.

Main results:

* `merged_eq` — the log cut at its first missing entry is the declared one.
* `follower_merge` — every call fails because of a gap and changes nothing, or leaves the declared log and tells
  the WAL how to get there.
-/

namespace AdvisKV.RaftLog

/-! ## What a merge is for -/

/-- The log has an entry at this index, with another term. -/
def conflicts (l : RaftLog) (e : LogEntry) : Bool :=
  decide (l.snapshotIndex < e.index) && decide (e.index ≤ l.lastLogIndex) &&
    decide (l.termAt e.index ≠ e.term)

/-- **The merged log**, declared. -/
def merged (l : RaftLog) (es : List LogEntry) : List LogEntry :=
  match es.find? l.conflicts with
  | some d =>
    l.logEntries.take (d.index - l.snapshotIndex - 1) ++ es.filter fun e => decide (d.index ≤ e.index)
  | none => l.logEntries ++ es.filter fun e => decide (l.lastLogIndex < e.index)

end AdvisKV.RaftLog

namespace AdvisKV

/-- The entries of a WAL after the result of a merge has been written to it. -/
def LogAppendResult.persisted (r : LogAppendResult) (old : List LogEntry) : List LogEntry :=
  match r.entriesToRewrite with
  | some es => es
  | none => old ++ r.entriesToAppend

namespace RaftLog

/-- The call of `append_entries_from_leader` on a log: the status, the log afterwards and the result. The loop
works on copies, and a gap returns before they are moved into the log. -/
def mergeCall (l : RaftLog) (es : List LogEntry) : Status × RaftLog × LogAppendResult :=
  match l.appendEntriesFromLeader es with
  | .error s => (s, l, {})
  | .ok (l', r) => (.OK, l', r)

/-- `es` carries the indexes `start`, `start + 1`, … in order. -/
def NumberedFrom (start : Nat) (es : List LogEntry) : Prop :=
  ∀ k e, es[k]? = some e → e.index = start + k

variable {p : Nat} {es : List LogEntry} {l : RaftLog} {e : LogEntry}

theorem NumberedFrom.consecutive (h : NumberedFrom (p + 1) es) :
    ConsecutiveFrom p es := by
  intro k e hk
  have := h k e hk
  omega

/-! ## Where the loop stops matching -/

/-- An entry the log holds does not conflict. -/
theorem not_conflicts_of_holds (h : l.holds e = true) :
    l.conflicts e = false := by
  simp only [holds, conflicts, Bool.or_eq_true, Bool.and_eq_true, decide_eq_true_eq] at h ⊢
  rcases h with hs | ⟨-, ht⟩
  · simp [Nat.not_lt.mpr hs]
  · simp [ht]

theorem index_le_of_holds (hl : l.Consecutive) (h : l.holds e = true) :
    e.index ≤ l.lastLogIndex := by
  have hlen := lastLogIndex_eq hl
  simp only [holds, Bool.or_eq_true, Bool.and_eq_true, decide_eq_true_eq] at h
  omega

/-- In a numbered list, the entries from an index on are a suffix. -/
theorem filter_le_index {n : Nat} {held : List LogEntry} (hheld : ∀ x ∈ held, x.index < n)
    (hes : ConsecutiveFrom p es) (hn : n ≤ p + 1) :
    (held ++ es).filter (fun e => decide (n ≤ e.index)) = es := by
  rw [List.filter_append, List.filter_eq_nil_iff.mpr, List.nil_append, List.filter_eq_self]
  · intro e he
    obtain ⟨k, hk⟩ := List.mem_iff_getElem?.mp he
    have := hes k e hk
    simp only [decide_eq_true_eq]
    omega
  · intro x hx
    have := hheld x hx
    simp only [decide_eq_true_eq]
    omega

/-- Indexes of a numbered list stay below those of what follows. -/
theorem ConsecutiveFrom.index_le (h : ConsecutiveFrom p es) (he : e ∈ es) :
    p < e.index ∧ e.index ≤ p + es.length := by
  obtain ⟨k, hk⟩ := List.mem_iff_getElem?.mp he
  have hlt := (List.getElem?_eq_some_iff.mp hk).1
  have := h k e hk
  omega

/-- **The declared log** is the log cut before its first missing entry, followed by the rest of the slice. -/
theorem merged_eq (hl : l.Consecutive) (hes : ConsecutiveFrom p es) (hp : p ≤ l.lastLogIndex) :
    l.merged es = match l.missing es with
      | [] => l.logEntries
      | e :: rest => l.logEntries.take (e.index - l.snapshotIndex - 1) ++ e :: rest := by
  have hlen := lastLogIndex_eq hl
  rcases hm : l.missing es with _ | ⟨e, rest⟩
  · -- the log holds every entry
    have hheld : ∀ x ∈ es, l.holds x = true := by
      intro x hx
      exact List.dropWhile_eq_nil_iff.mp hm x hx
    have hnone : es.find? l.conflicts = none :=
      List.find?_eq_none.mpr fun x hx => by simp [not_conflicts_of_holds (hheld x hx)]
    have hbehind : es.filter (fun x => decide (l.lastLogIndex < x.index)) = [] := by
      refine List.filter_eq_nil_iff.mpr fun x hx => ?_
      have := index_le_of_holds hl (hheld x hx)
      simp only [decide_eq_true_eq]
      omega
    simp only [merged, hnone, hbehind, List.append_nil]
  · obtain ⟨held, hsplit, hheld, hidx, hs, hlast, hterm⟩ := missing_cons hl hes hp hm
    have hrest : ConsecutiveFrom (p + held.length) (e :: rest) := by
      rw [hsplit] at hes
      exact (ConsecutiveFrom.append_iff.mp hes).2
    have hbefore : ConsecutiveFrom p held := by
      rw [hsplit] at hes
      exact (ConsecutiveFrom.append_iff.mp hes).1
    have hbelow : ∀ x ∈ held, x.index < e.index := by
      intro x hx
      have := hbefore.index_le hx
      omega
    have hquiet : held.find? l.conflicts = none :=
      List.find?_eq_none.mpr fun x hx => by simp [not_conflicts_of_holds (hheld x hx)]
    by_cases hin : e.index ≤ l.lastLogIndex
    · -- the first missing entry conflicts
      have hconflict : l.conflicts e = true := by simp [conflicts, hs, hin, hterm hin]
      have hfind : es.find? l.conflicts = some e := by
        rw [hsplit, List.find?_append, hquiet, Option.none_or, List.find?_cons_of_pos hconflict]
      simp only [merged, hfind]
      rw [hsplit, filter_le_index hbelow hrest (by omega)]
    · -- it lies behind the end, and so does everything after it
      have hafter : ∀ x ∈ e :: rest, l.lastLogIndex < x.index := by
        intro x hx
        have := (hrest.index_le hx).1
        omega
      have hfind : es.find? l.conflicts = none := by
        rw [hsplit, List.find?_append, hquiet, Option.none_or]
        refine List.find?_eq_none.mpr fun x hx => ?_
        have := hafter x hx
        simp only [conflicts, Bool.and_eq_true, decide_eq_true_eq]
        omega
      have hend : e.index - l.snapshotIndex - 1 = l.logEntries.length := by omega
      simp only [merged, hfind]
      rw [hend, List.take_length, hsplit]
      exact congrArg _ (filter_le_index (n := l.lastLogIndex + 1)
        (fun x hx => by have := hbelow x hx; omega) hrest (by omega))

/-! ## The call -/

/-- A first entry that is behind a gap fails the call. -/
theorem appendEntriesFromLeader_gap (hl : l.Consecutive) (es : List LogEntry)
    (hgap : l.lastLogIndex + 1 < e.index) : ∃ s, l.appendEntriesFromLeader (e :: es) = .error s ∧
      s.fail = true := by
  have hlen := lastLogIndex_eq hl
  unfold appendEntriesFromLeader mergeEntries
  rw [if_neg (List.cons_ne_nil _ _), mergeEntry_self, if_neg (by omega), if_neg (by omega), if_neg (by omega)]
  exact ⟨_, rfl, rfl⟩

/-- An entry that the snapshot covers is passed over. -/
theorem appendEntriesFromLeader_covered (hcovered : e.index ≤ l.snapshotIndex) :
    l.appendEntriesFromLeader (e :: es) = l.appendEntriesFromLeader es := by
  have hfirst : mergeEntries l { updatedEntries := l.logEntries } (e :: es) =
      mergeEntries l { updatedEntries := l.logEntries } es := by
    unfold mergeEntries
    rw [mergeEntry_self, if_pos hcovered]
    cases es <;> rfl
  unfold appendEntriesFromLeader
  rw [if_neg (List.cons_ne_nil _ _), hfirst]
  by_cases hnil : es = []
  · subst hnil
    rfl
  · rw [if_neg hnil]

/-- A slice that starts no later than one past the end. -/
theorem mergeCall_reached (hl : l.Consecutive) (hes : ConsecutiveFrom p es) (hp : p ≤ l.lastLogIndex) :
    (l.mergeCall es).1.fail = false ∧ (l.mergeCall es).2.1.logEntries = l.merged es ∧
      (l.mergeCall es).2.1.snapshotIndex = l.snapshotIndex ∧
      (l.mergeCall es).2.1.snapshotTerm = l.snapshotTerm ∧ (l.mergeCall es).2.1.Consecutive ∧
      (l.mergeCall es).2.2.persisted l.logEntries = (l.mergeCall es).2.1.logEntries := by
  have heq := appendEntriesFromLeader_eq hl hes hp
  have hmerged := merged_eq hl hes hp
  rcases hm : l.missing es with _ | ⟨e, rest⟩
  · rw [hm] at heq hmerged
    have hcall : l.mergeCall es = (.OK, l, {}) := by
      unfold mergeCall
      rw [heq]
    rw [hcall, hmerged]
    exact ⟨rfl, rfl, rfl, rfl, hl, List.append_nil _⟩
  · rw [hm] at heq hmerged
    dsimp only at heq hmerged
    have hcons := (appendEntriesFromLeader_consecutive hl hes hp heq).2.2
    obtain ⟨held, -, -, -, hs, hlast, -⟩ := missing_cons hl hes hp hm
    have hlen := lastLogIndex_eq hl
    have hcall : l.mergeCall es = (.OK, l.updateEntries (l.merged es),
        if e.index ≤ l.lastLogIndex then { entriesToRewrite := some (l.merged es) }
        else { entriesToAppend := e :: rest }) := by
      unfold mergeCall
      rw [heq, hmerged]
    rw [← hmerged] at hcons
    rw [hcall]
    refine ⟨rfl, rfl, rfl, rfl, hcons, ?_⟩
    show LogAppendResult.persisted (if e.index ≤ l.lastLogIndex then _ else _) l.logEntries = l.merged es
    by_cases hin : e.index ≤ l.lastLogIndex
    · rw [if_pos hin]
      rfl
    · -- nothing was cut
      have hend : e.index - l.snapshotIndex - 1 = l.logEntries.length := by omega
      rw [if_neg hin, hmerged, hend, List.take_length]
      rfl

/-- **Follower log merge.** With a log numbered from its snapshot on and leader entries numbered from `start` on,
a call fails exactly when the entries begin behind a gap, and then changes nothing. Otherwise it leaves the
declared log, still numbered, and its result turns the old entries of the WAL into the new ones. -/
theorem follower_merge {l : RaftLog} (hl : l.Consecutive) {start : Nat} {es : List LogEntry}
    (hes : NumberedFrom start es) :
    ((l.mergeCall es).1.fail = true ∧ es ≠ [] ∧ l.lastLogIndex + 1 < start ∧ (l.mergeCall es).2.1 = l) ∨
    ((l.mergeCall es).1.fail = false ∧ (es = [] ∨ start ≤ l.lastLogIndex + 1) ∧
      (l.mergeCall es).2.1.logEntries = l.merged es ∧
      (l.mergeCall es).2.1.snapshotIndex = l.snapshotIndex ∧
      (l.mergeCall es).2.1.snapshotTerm = l.snapshotTerm ∧ (l.mergeCall es).2.1.Consecutive ∧
      (l.mergeCall es).2.2.persisted l.logEntries = (l.mergeCall es).2.1.logEntries) := by
  rcases es with _ | ⟨e, es⟩
  · obtain ⟨hok, hrest⟩ := mergeCall_reached hl (ConsecutiveFrom.nil 0) (Nat.zero_le _)
    exact Or.inr ⟨hok, Or.inl rfl, hrest⟩
  · have hfirst : e.index = start := by simpa using hes 0 e rfl
    rcases Nat.lt_or_ge (l.lastLogIndex + 1) start with hgap | hreached
    · obtain ⟨s, hs, hfail⟩ := appendEntriesFromLeader_gap hl es (hfirst ▸ hgap)
      have hcall : l.mergeCall (e :: es) = (s, l, {}) := by
        unfold mergeCall
        rw [hs]
      rw [hcall]
      exact Or.inl ⟨hfail, List.cons_ne_nil _ _, hgap, rfl⟩
    · refine Or.inr ?_
      rcases start with _ | p
      · -- an index no log entry has: the snapshot covers it, and the slice goes on at 1
        have hrest : NumberedFrom (0 + 1) es := by
          intro k x hk
          have := hes (k + 1) x (by simpa using hk)
          omega
        have hcovered : e.index ≤ l.snapshotIndex := by omega
        have hcall : l.mergeCall (e :: es) = l.mergeCall es := by
          unfold mergeCall
          rw [appendEntriesFromLeader_covered hcovered]
        have hmerged : l.merged (e :: es) = l.merged es := by
          have hquiet : l.conflicts e = false := by simp [conflicts, Nat.not_lt.mpr hcovered]
          have hbehind : ∀ n, 0 < n → (e :: es).filter (fun x => decide (n ≤ x.index)) =
              es.filter fun x => decide (n ≤ x.index) := by
            intro n hn
            exact List.filter_cons_of_neg (by simp only [decide_eq_true_eq]; omega)
          unfold merged
          rw [List.find?_cons_of_neg (by simp [hquiet])]
          rcases hfind : es.find? l.conflicts with _ | d
          · exact congrArg _ (hbehind (l.lastLogIndex + 1) (Nat.succ_pos _))
          · have hd := List.find?_some hfind
            simp only [conflicts, Bool.and_eq_true, decide_eq_true_eq] at hd
            exact congrArg _ (hbehind d.index (by omega))
        rw [hcall, hmerged]
        obtain ⟨hok, hleft⟩ := mergeCall_reached hl hrest.consecutive (Nat.zero_le _)
        exact ⟨hok, Or.inr hreached, hleft⟩
      · obtain ⟨hok, hleft⟩ := mergeCall_reached hl hes.consecutive (by omega)
        exact ⟨hok, Or.inr hreached, hleft⟩

/-- A log behind snapshot 1 with the entries 2 to 4 of term 1, and a slice that starts below the snapshot and
overwrites entry 3. -/
def coveredLog : RaftLog where
  snapshotIndex := 1
  snapshotTerm := 1
  logEntries := [{ term := 1, index := 2 }, { term := 1, index := 3 }, { term := 1, index := 4 }]

def overwritingSlice : List LogEntry :=
  [{ term := 1, index := 1 }, { term := 1, index := 2 }, { term := 2, index := 3 }]

theorem overwriting_slice_merged :
    (coveredLog.mergeCall overwritingSlice).2.1.logEntries =
        [{ term := 1, index := 2 }, { term := 2, index := 3 }] ∧
      (coveredLog.mergeCall overwritingSlice).2.2.persisted coveredLog.logEntries =
        [{ term := 1, index := 2 }, { term := 2, index := 3 }] := by
  have hl : coveredLog.Consecutive := by
    refine ConsecutiveFrom.cons_iff.mpr ⟨rfl, ConsecutiveFrom.cons_iff.mpr ⟨rfl, ?_⟩⟩
    exact ConsecutiveFrom.cons_iff.mpr ⟨rfl, ConsecutiveFrom.nil _⟩
  have hes : NumberedFrom 1 overwritingSlice := by
    intro k e hk
    rcases k with _ | _ | _ | k
    · cases hk
      rfl
    · cases hk
      rfl
    · cases hk
      rfl
    · cases hk
  rcases follower_merge hl hes with ⟨-, -, hgap, -⟩ | ⟨-, -, hmerged, -, -, -, hpersisted⟩
  · exact absurd hgap (by decide)
  · rw [hpersisted, hmerged]
    decide

end RaftLog

end AdvisKV
