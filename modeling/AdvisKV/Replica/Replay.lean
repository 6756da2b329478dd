import AdvisKV.Group.Regular
import AdvisKV.Raft.History
import AdvisKV.Replica.Answers
import AdvisKV.Snapshot.Transparency

/-!
# AdvisKV — the entries behind a state

A state machine is described by the log that leads to it from nothing, whether it has applied the entries
itself or was restored from a snapshot somewhere on the way. Of plain entries applying never fails and
never stops short of the commit index.

Main results:

* `KvStateMachine.After.applyAll`, `SnapshotData.Of.restore` — applying and restoring.
* `caughtUp_of_plain` — the apply loop on a log of plain entries.
-/

namespace AdvisKV

open Replicated (lastTerm)

/-! ## States and snapshots of a log -/

/-- The state that the entries `ℓ` lead to. -/
structure KvStateMachine.After (ℓ : List LogEntry) (sm : KvStateMachine) : Prop where
  same : sm.Same (({} : KvStateMachine).applyAll ℓ)
  proper : sm.Proper
  index : sm.applyIndex = ℓ.length
  term : sm.applyTerm = lastTerm ℓ

/-- A snapshot of that state. -/
def SnapshotData.Of (ℓ : List LogEntry) (d : SnapshotData) : Prop :=
  ∃ sm : KvStateMachine, sm.After ℓ ∧ sm.Captures d

variable {a b : KvStateMachine}

theorem KvStateMachine.Same.symm (h : a.Same b) : b.Same a :=
  ⟨fun key => (h.get key).symm, fun r => (h.findRequest r).symm, h.applyIndex.symm, h.applyTerm.symm⟩

theorem KvStateMachine.Same.trans {c : KvStateMachine} (h : a.Same b) (h' : b.Same c) : a.Same c :=
  ⟨fun key => (h.get key).trans (h'.get key), fun r => (h.findRequest r).trans (h'.findRequest r),
    h.applyIndex.trans h'.applyIndex, h.applyTerm.trans h'.applyTerm⟩

namespace KvStateMachine.After

variable {ℓ : List LogEntry} {sm : KvStateMachine}

theorem empty : KvStateMachine.After [] {} :=
  ⟨⟨fun _ => rfl, fun _ => rfl, rfl, rfl⟩, proper_empty, rfl, rfl⟩

/-- The next entry of the log. -/
theorem apply (h : sm.After ℓ) {e : LogEntry} (haccepts : accepts e = true)
    (hindex : e.index = ℓ.length + 1) : (sm.apply e).2.After (ℓ ++ [e]) := by
  obtain ⟨hat, hterm⟩ := @apply_position sm e haccepts
  refine ⟨?_, h.proper.apply e, ?_, ?_⟩
  · have hlast : ({} : KvStateMachine).applyAll (ℓ ++ [e]) =
        ((({} : KvStateMachine).applyAll ℓ).apply e).2 := by
      rw [applyAll, List.foldl_append]
      rfl
    rw [hlast]
    exact (h.same.apply e).2
  · rw [hat, hindex, List.length_append, List.length_singleton]
  · rw [hterm, lastTerm, List.getLast?_concat]
    rfl

/-- **Applying** the next entries of the log. -/
theorem applyAll {es : List LogEntry} (h : sm.After ℓ) (haccepts : ∀ e ∈ es, accepts e = true)
    (hes : RaftLog.ConsecutiveFrom ℓ.length es) : (sm.applyAll es).After (ℓ ++ es) := by
  induction es generalizing sm ℓ with
  | nil => rwa [List.append_nil]
  | cons e es ih =>
    obtain ⟨hindex, hrest⟩ := RaftLog.ConsecutiveFrom.cons_iff.mp hes
    have hone := h.apply (haccepts e List.mem_cons_self) hindex
    have hall := ih hone (fun x hx => haccepts x (List.mem_cons_of_mem _ hx))
      (by rwa [List.length_append, List.length_singleton])
    rwa [List.append_assoc, List.singleton_append] at hall

/-- The worker's copy, with whatever members. -/
theorem captured {members : List RaftMember} {d : SnapshotData} (h : sm.After ℓ)
    (hd : d = { sm.captureSnapshot with header := { sm.captureSnapshot.header with members } }) :
    d.Of ℓ := by
  subst hd
  exact ⟨sm, h, rfl, rfl, .refl _, .refl _⟩

end KvStateMachine.After

namespace SnapshotData.Of

variable {ℓ : List LogEntry} {d : SnapshotData}

/-- A snapshot of a log stands at its end. -/
theorem index (h : d.Of ℓ) : d.header.applyIndex = ℓ.length := by
  obtain ⟨sm, hafter, hcaptures⟩ := h
  exact hcaptures.applyIndex.trans hafter.index

theorem term (h : d.Of ℓ) : d.header.applyTerm = lastTerm ℓ := by
  obtain ⟨sm, hafter, hcaptures⟩ := h
  exact hcaptures.applyTerm.trans hafter.term

/-- What is restored from a snapshot of a proper state is proper. -/
theorem restore_proper {sm restored : KvStateMachine} (hsm : sm.Proper) (hd : sm.Captures d)
    (h : KvStateMachine.restore d = .ok restored) : restored.Proper := by
  have hkeys : (d.kvs.map Prod.fst).Nodup := (hd.kvs.map Prod.fst).nodup_iff.mpr hsm.keys
  have hids : (d.requestRecords.map RequestRecord.requestId).Nodup :=
    (hd.records.map RequestRecord.requestId).nodup_iff.mpr hsm.ids
  have hengine := KvStateMachine.entries_foldl_put (m := {}) (by simpa using hkeys)
  have hrecords := @KvStateMachine.foldl_record d.requestRecords [] (by simpa using hids)
  unfold KvStateMachine.restore at h
  split at h
  · cases h
  · rw [← Except.ok.inj h]
    refine ⟨?_, ?_, fun r hr => ?_, fun r hr => ?_⟩
    · dsimp only
      rw [hengine, List.map_append, List.map_reverse]
      simpa using hkeys
    · dsimp only
      rw [hrecords]
      exact hids
    · dsimp only at hr
      rw [hrecords] at hr
      exact hsm.named r (hd.records.mem_iff.mp hr)
    · dsimp only at hr
      rw [hrecords] at hr
      exact hsm.writes r (hd.records.mem_iff.mp hr)

/-- **Restoring.** -/
theorem restore (h : d.Of ℓ) : ∃ sm, KvStateMachine.restore d = .ok sm ∧ sm.After ℓ := by
  obtain ⟨sm, hafter, hcaptures⟩ := h
  obtain ⟨restored, hrestore, hsame⟩ := KvStateMachine.restore_captured hafter.proper hcaptures
  exact ⟨restored, hrestore, hsame.trans hafter.same, restore_proper hafter.proper hcaptures hrestore,
    hsame.applyIndex.trans hafter.index, hsame.applyTerm.trans hafter.term⟩

end SnapshotData.Of

/-! ## Plain entries -/

/-- A plain entry is never refused. -/
theorem LogEntry.Plain.accepts {e : LogEntry} (h : e.Plain) : KvStateMachine.accepts e = true := by
  unfold KvStateMachine.accepts
  by_cases hid : e.requestId = []
  · simp [hid]
  · simp [h.accepted hid]

/-- The state machine takes what it accepts. -/
theorem KvStateMachine.apply_ok {sm : KvStateMachine} {e : LogEntry} (h : accepts e = true) :
    (sm.apply e).1.fail = false := by
  unfold apply
  rw [refused_eq, h, if_neg (by simp)]
  split <;> rfl

namespace ApplyState

variable {s : ApplyState}

/-- Nothing that is done for a plain entry fails. -/
theorem applyOneEntry_ok {e : LogEntry} (h : e.Plain) :
    (s.applyOneEntry e).1.fail = false := by
  have hpass : (s.pass e).1.fail = false := KvStateMachine.apply_ok h.accepts
  unfold applyOneEntry
  rw [if_neg (by rw [h.noConfig]; exact Bool.false_ne_true)]
  simp only [hpass, Bool.false_eq_true, if_false]
  rfl

/-- So no batch of them is cut short. -/
theorem applyBatch_ok_of_plain {es : List LogEntry} (h : ∀ e ∈ es, e.Plain) :
    (s.applyBatch es).1.fail = false := by
  induction es generalizing s with
  | nil => rfl
  | cons e es ih =>
    have hone := applyOneEntry_ok (s := s) (h e List.mem_cons_self)
    simp only [applyBatch, hone, Bool.false_eq_true, if_false]
    exact ih fun x hx => h x (List.mem_cons_of_mem _ hx)

/-- Nor is any round of the loop. -/
theorem applyRounds_ok {fuel : Nat} {s' : ApplyState} {st : Status}
    (hplain : ∀ e ∈ s.core.raftLog.logEntries, e.Plain) (h : applyRounds fuel s = some (st, s')) :
    st.fail = false := by
  induction fuel generalizing s with
  | zero => cases h
  | succ fuel ih =>
    rw [applyRounds_succ] at h
    have hbatch : ∀ e ∈ (roundBatch s).1, e.Plain := by
      intro e he
      obtain ⟨i, -, hentry⟩ := mem_extractLoop he
      exact hplain e (RaftLog.mem_of_entryAt hentry)
    have hok := applyBatch_ok_of_plain (s := s) hbatch
    split at h
    · cases h
      rfl
    split at h
    · next hfail =>
      rw [hok] at hfail
      cases hfail
    split at h
    · cases h
      rfl
    · refine ih ?_ h
      rwa [(applyBatch_ok hok).raftLog_eq]

end ApplyState

/-- Without config entries nothing can jump the queue. -/
theorem noConfigBehindOverflow_of_plain {budget : Nat} {es : List LogEntry} (h : ∀ e ∈ es, e.Plain) :
    NoConfigBehindOverflow budget es := by
  rintro a x y b rfl - hy -
  have hplain := h y (by simp)
  simp [countsAgainstBudget, hplain.noConfig] at hy

/-- **The apply loop on plain entries.** -/
theorem caughtUp_of_plain {c : RaftCore} {sm : KvStateMachine} (hc : Applicable c)
    (hplain : ∀ e ∈ c.raftLog.logEntries, e.Plain) :
    ∃ st a, ApplyState.applyCommittedEntriesInline { core := c, stateMachine := sm } = some (st, a) ∧
      st.fail = false ∧ CaughtUp c sm a.core a.stateMachine := by
  obtain ⟨st, a, happly, -⟩ := applyCommittedEntriesInline_in_order
    (s := { core := c, stateMachine := sm }) hc
  have hok : st.fail = false := ApplyState.applyRounds_ok hplain happly
  refine ⟨st, a, happly, hok, caughtUp_of_ok hc (noConfigBehindOverflow_of_plain fun e he => ?_) happly hok⟩
  exact hplain e (List.mem_of_mem_drop (List.mem_of_mem_take he))

end AdvisKV
