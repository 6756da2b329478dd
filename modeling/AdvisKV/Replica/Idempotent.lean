import AdvisKV.Replica.Requests

/-!
# AdvisKV — repeated requests do nothing

A client that retries a write sends the same request id again, and each attempt may become an entry of the log,
possibly with another operation or payload. The state machine executes the first one it sees and remembers its
outcome. So a log says the same as the log in which every repetition is a no-op.

Main results:

* `apply_isSome` — which requests have a record after one entry.
* `repeated_requests_are_noops` — whole logs, from any state.
-/

namespace AdvisKV.KvStateMachine

/-- A no-op entry in the place of `e`. -/
def noopOf (e : LogEntry) : LogEntry := { term := e.term, index := e.index, opType := .none }

/-- A write whose request is recorded in `start` or has been written by an earlier entry. -/
def isRepeat (start : KvStateMachine) (earlier : List LogEntry) (e : LogEntry) : Bool :=
  e.requestId != [] && e.opType.isKvWriteOp &&
    ((start.findRequest e.requestId).isSome || earlier.any (RaftLog.isRequest e.requestId))

/-- The entries behind `earlier`, with a no-op for every repetition. -/
def withoutRepeats (start : KvStateMachine) : List LogEntry → List LogEntry → List LogEntry
  | _, [] => []
  | earlier, e :: es =>
    (if isRepeat start earlier e then noopOf e else e) :: withoutRepeats start (earlier ++ [e]) es

/-- **Recorded requests** after one entry: those from before, and the one it writes. -/
theorem apply_isSome (sm : KvStateMachine) (e : LogEntry) {r : Bytes} (hr : r ≠ []) :
    ((sm.apply e).2.findRequest r).isSome = ((sm.findRequest r).isSome || RaftLog.isRequest r e) := by
  by_cases haccepts : accepts e = true
  · obtain ⟨hkept, hother, hown⟩ := @apply_findRequest sm e haccepts r hr
    have hrequest : RaftLog.isRequest r e = true ↔ e.requestId = r := by
      simp only [accepts, Bool.or_eq_true, beq_iff_eq] at haccepts
      simp only [RaftLog.isRequest, Bool.and_eq_true, beq_iff_eq, and_iff_left_iff_imp]
      exact fun hid => haccepts.resolve_left (hid ▸ hr)
    rcases hfound : sm.findRequest r with _ | record
    · by_cases hid : e.requestId = r
      · obtain ⟨record, hrecord, -⟩ := hown hfound hid
        rw [hrecord, hrequest.mpr hid]
        rfl
      · rw [hother hfound hid, Bool.eq_false_iff.mpr fun h => hid (hrequest.mp h)]
        rfl
    · rw [hkept record hfound]
      rfl
  · -- a refused entry changes nothing and is not a write
    have hop : e.opType.isKvWriteOp = false := by
      simp only [accepts, Bool.or_eq_true, not_or, Bool.not_eq_true] at haccepts
      exact haccepts.2
    unfold apply
    rw [refused_eq, if_pos (by simpa using haccepts)]
    simp [RaftLog.isRequest, hop]

variable {sm : KvStateMachine}

/-- **A repetition** moves the index and the term, and so does a no-op. -/
theorem apply_noopOf {e : LogEntry} (hop : e.opType.isKvWriteOp = true)
    (hfound : (sm.findRequest e.requestId).isSome = true) : (sm.apply e).2 = (sm.apply (noopOf e)).2 := by
  have hrepeat : sm.apply e = (.OK, { sm with applyTerm := e.term, applyIndex := e.index }) := by
    unfold apply
    rw [if_neg (by simp [hop]), if_pos hfound]
  have hnoop : sm.apply (noopOf e) = (.OK, { sm with applyTerm := e.term, applyIndex := e.index }) := by
    unfold apply
    rw [if_neg (by simp [noopOf]), if_neg (by simp [noopOf, findRequest])]
    rfl
  rw [hrepeat, hnoop]

/-- Both logs lead from a state to the same one, when the recorded requests are those of the start and of the
earlier entries. -/
theorem applyAll_withoutRepeats {start : KvStateMachine} {earlier : List LogEntry}
    (hrecorded : ∀ r, r ≠ [] → (sm.findRequest r).isSome =
      ((start.findRequest r).isSome || earlier.any (RaftLog.isRequest r))) (es : List LogEntry) :
    sm.applyAll es = sm.applyAll (withoutRepeats start earlier es) := by
  induction es generalizing sm earlier with
  | nil => rfl
  | cons e es ih =>
    have hnext : ∀ r, r ≠ [] → ((sm.apply e).2.findRequest r).isSome =
        ((start.findRequest r).isSome || (earlier ++ [e]).any (RaftLog.isRequest r)) := by
      intro r hr
      rw [apply_isSome sm e hr, hrecorded r hr, List.any_append, List.any_cons, List.any_nil, Bool.or_false,
        Bool.or_assoc]
    have hhead : (sm.apply e).2 = (sm.apply (if isRepeat start earlier e then noopOf e else e)).2 := by
      by_cases hrepeat : isRepeat start earlier e = true
      · rw [if_pos hrepeat]
        simp only [isRepeat, Bool.and_eq_true, bne_iff_ne] at hrepeat
        obtain ⟨⟨hid, hop⟩, hearlier⟩ := hrepeat
        exact apply_noopOf hop ((hrecorded _ hid).trans hearlier)
      · rw [if_neg hrepeat]
    show (sm.apply e).2.applyAll es = _
    rw [ih hnext, hhead]
    rfl

/-- **Idempotent apply.** From any state, a sequence of entries and the one with a no-op in the place of every
write whose request was recorded at the start or written earlier in the sequence lead to the same map, the
same records, the same index and the same term. -/
theorem repeated_requests_are_noops (sm : KvStateMachine) (es : List LogEntry) :
    sm.applyAll es = sm.applyAll (withoutRepeats sm [] es) :=
  applyAll_withoutRepeats (fun r _ => by simp) es

/-- A repetition with another operation. -/
example : withoutRepeats {} []
    [ { term := 1, index := 1, opType := .put, key := [1], value := [2], requestId := [9] },
      { term := 1, index := 2, opType := .del, key := [1], requestId := [9] } ] =
    [ { term := 1, index := 1, opType := .put, key := [1], value := [2], requestId := [9] },
      { term := 1, index := 2 } ] := by decide

end AdvisKV.KvStateMachine
