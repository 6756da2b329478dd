import AdvisKV.Lib.Machine
import AdvisKV.Raft.Effects
import AdvisKV.Raft.FollowerMerge
import AdvisKV.Replica.Requests

/-!
# AdvisKV — the request index over whole runs of the log

The log keeps its request index in two ways: an append adds one binding, and every other change throws the index
away and builds it again. The bindings are absolute log indexes, which `entry_at` turns into positions behind a
snapshot that may have moved since. Both only work together while the entries are numbered consecutively.

Main results:

* `LogOp.step_represented` — every operation of the log keeps numbering and index.
* `find_request_exact` — after any operations a lookup finds the first retained write of a request, or nothing when
  there is none.
-/

namespace AdvisKV

/-- The operations of a log that change it. -/
inductive LogOp where
  | appendNewEntry (term : Nat) (param : ProposeParam)
  | appendEntriesFromLeader (entries : List LogEntry)
  | truncate (newSnapshotIndex : Nat)
  | installSnapshot (newSnapshotIndex newSnapshotTerm : Nat)
  | updateEntries (entries : List LogEntry)

namespace LogOp

/-- The log after an operation, also after one that fails. -/
def step : LogOp → RaftLog → Option RaftLog
  | .appendNewEntry term param, l => some (l.appendNewEntry term param)
  | .appendEntriesFromLeader entries, l => some (l.mergeCall entries).2.1
  | .truncate i, l => some (l.truncate i).2
  | .installSnapshot i t, l => some (l.installSnapshot i t)
  | .updateEntries entries, l => some (l.updateEntries entries)

/-- Entries that replace the whole log are numbered from its snapshot on. -/
def Numbered (l : RaftLog) : LogOp → Prop
  | .updateEntries entries => RaftLog.ConsecutiveFrom l.snapshotIndex entries
  | _ => True

/-- The entries are numbered and the index represents them. -/
structure Represented (l : RaftLog) : Prop where
  consecutive : l.Consecutive
  indexed : l.Indexed

theorem represented_start : Represented {} where
  consecutive := .nil _
  indexed := fun _ _ => rfl

variable {l : RaftLog}

theorem represented_merge (h : Represented l) (entries : List LogEntry) :
    Represented (l.mergeCall entries).2.1 := by
  unfold RaftLog.mergeCall
  split
  · -- a gap leaves the log as it was
    exact h
  · next l' r hmerge =>
    exact ⟨(RaftLog.appendEntriesFromLeader_keeps h.consecutive hmerge).2.2.1,
      RaftLog.appendEntriesFromLeader_indexed h.indexed hmerge⟩

theorem represented_truncate (h : Represented l) (i : Nat) :
    Represented (l.truncate i).2 := by
  refine ⟨RaftLog.truncate_consecutive h.consecutive i, ?_⟩
  unfold RaftLog.truncate
  split
  · exact h.indexed
  split
  · exact h.indexed
  · exact RaftLog.updateEntries_indexed { l with snapshotIndex := i, snapshotTerm := l.termAt i } _

/-- **One operation.** -/
theorem step_represented {op : LogOp} {l' : RaftLog} (h : Represented l) (hnumbered : Numbered l op)
    (hstep : op.step l = some l') : Represented l' := by
  cases op with
  | appendNewEntry term param =>
    cases hstep
    exact ⟨RaftLog.appendNewEntry_consecutive h.consecutive term param,
      RaftLog.appendNewEntry_indexed h.indexed term param⟩
  | appendEntriesFromLeader entries =>
    cases hstep
    exact represented_merge h entries
  | truncate i =>
    cases hstep
    exact represented_truncate h i
  | installSnapshot i t =>
    cases hstep
    exact ⟨RaftLog.installSnapshot_consecutive h.consecutive i t, RaftLog.installSnapshot_indexed l i t⟩
  | updateEntries entries =>
    cases hstep
    exact ⟨hnumbered, RaftLog.updateEntries_indexed l entries⟩

end LogOp

/-- **After every sequence of operations** a lookup with an id finds the first retained write that carries it, and
nothing exactly when no retained write does. -/
theorem find_request_exact {l : RaftLog} (hrun : Machine.GuardedRun LogOp.step LogOp.Numbered {} l)
    {requestId : Bytes} (hid : requestId ≠ []) :
    l.findRequest requestId = l.logEntries.find? (RaftLog.isRequest requestId) ∧
      (l.findRequest requestId = none ↔
        ∀ e ∈ l.logEntries, e.opType.isKvWriteOp = true → e.requestId ≠ requestId) := by
  have h : LogOp.Represented l := Machine.GuardedRun.invariant
    (fun _ _ _ hl hnumbered hstep => LogOp.step_represented hl hnumbered hstep) hrun LogOp.represented_start
  have hfind := RaftLog.findRequest_eq h.consecutive h.indexed hid
  refine ⟨hfind, ?_⟩
  rw [hfind, List.find?_eq_none]
  constructor
  · intro hnone e he hwrite hsame
    exact hnone e he (by simp [RaftLog.isRequest, hwrite, hsame])
  · intro hnone e he hrequest
    simp only [RaftLog.isRequest, Bool.and_eq_true, beq_iff_eq] at hrequest
    exact hnone e he hrequest.2 hrequest.1

/-- A put of term `term` at `index`. -/
def requestPut (term index : Nat) (requestId : Bytes) : LogEntry :=
  { term, index, opType := .put, key := [1], value := [1], requestId }

/-- A leader's entry takes the place of request 2 at index 2, and a snapshot then covers request 1 at index 1: the
lookup finds the new request 3 at index 2 and the other two no more. -/
theorem overwritten_request_not_found :
    ∃ l : RaftLog, l.findRequest [1] = none ∧ l.findRequest [2] = none ∧
      l.findRequest [3] = some (requestPut 2 2 [3]) ∧
      ∀ e ∈ l.logEntries, e.opType.isKvWriteOp = true → e.requestId ≠ [2] := by
  let old : List LogEntry := [requestPut 1 1 [1], requestPut 1 2 [2]]
  have hold : RaftLog.ConsecutiveFrom 0 old :=
    RaftLog.ConsecutiveFrom.cons_iff.mpr ⟨rfl, RaftLog.ConsecutiveFrom.cons_iff.mpr ⟨rfl, .nil _⟩⟩
  obtain ⟨l, hl⟩ : ∃ l, Machine.run LogOp.step
      [.appendEntriesFromLeader [requestPut 2 2 [3]], .truncate 1] (({} : RaftLog).updateEntries old) = some l :=
    ⟨_, rfl⟩
  have hrun : Machine.GuardedRun LogOp.step LogOp.Numbered {} l := by
    refine .tail (.tail (.tail .refl ⟨.updateEntries old, hold, rfl⟩) ?_) ⟨.truncate 1, trivial, hl⟩
    exact ⟨.appendEntriesFromLeader [requestPut 2 2 [3]], trivial, rfl⟩
  have hnone : l.findRequest [2] = none := by
    cases hl
    decide
  refine ⟨l, ?_, hnone, ?_, (find_request_exact hrun (by decide)).2.mp hnone⟩
  · cases hl
    decide
  · cases hl
    decide

end AdvisKV
