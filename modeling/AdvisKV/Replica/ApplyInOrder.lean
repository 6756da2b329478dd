import AdvisKV.Model.Apply
import Mathlib.Data.List.TakeWhile

/-!
# AdvisKV — applying in log order

Each round of the apply loop extracts at most a budget of non-config entries. A config entry is never
held back by the budget, and the first entry over it is passed over with `continue`; a config entry
right behind that one is therefore applied first and moves `last_applied` past it.

Main results:

* `applyRounds_total` — the loop ends within its fuel.
* `applyCommittedEntriesInline_in_order` — when it reports OK, every outstanding entry was passed
  once and in order exactly when no config entry sits right behind a round's overflowing entry.
-/

namespace AdvisKV

open RaftLog

/-- Entries that count against a round's budget. -/
def countsAgainstBudget (e : LogEntry) : Bool := !e.opType.isConfigChangeOp

def kvCount (es : List LogEntry) : Nat := es.countP countsAgainstBudget

variable {e : LogEntry} {es pre rest : List LogEntry} {s s' : ApplyState} {fuel : Nat}

theorem kvCount_cons_of_kv (he : countsAgainstBudget e = true) (es : List LogEntry) :
    kvCount (e :: es) = kvCount es + 1 := by
  simp [kvCount, he]

theorem kvCount_cons_of_config (he : countsAgainstBudget e = false) (es : List LogEntry) :
    kvCount (e :: es) = kvCount es := by
  simp [kvCount, he]

theorem kvCount_append (xs ys : List LogEntry) : kvCount (xs ++ ys) = kvCount xs + kvCount ys :=
  List.countP_append ..

/-- A list with more than `n` counted entries splits right before the first one past `n`. -/
theorem exists_split_at_budget {n : Nat} (h : n < kvCount es) :
    ∃ pre x rest, es = pre ++ x :: rest ∧ countsAgainstBudget x = true ∧ kvCount pre = n := by
  induction es generalizing n with
  | nil => simp [kvCount] at h
  | cons e es ih =>
    rcases hkv : countsAgainstBudget e with _ | _
    · rw [kvCount_cons_of_config hkv] at h
      obtain ⟨pre, x, rest, rfl, hx, hn⟩ := ih h
      exact ⟨e :: pre, x, rest, rfl, hx, by rw [kvCount_cons_of_config hkv, hn]⟩
    · rcases n with _ | n
      · exact ⟨[], e, es, rfl, hkv, rfl⟩
      · rw [kvCount_cons_of_kv hkv] at h
        obtain ⟨pre, x, rest, rfl, hx, hn⟩ := ih (Nat.lt_of_succ_lt_succ h)
        exact ⟨e :: pre, x, rest, rfl, hx, by rw [kvCount_cons_of_kv hkv, hn]⟩

/-! ## One round of extraction -/

/-- The log holds `es` at the indexes right after `q`. -/
def Reads (log : RaftLog) (q : Nat) (es : List LogEntry) : Prop :=
  ∀ k e, es[k]? = some e → log.entryAt (q + 1 + k) = some e

theorem Reads.head {log : RaftLog} {q : Nat} (h : Reads log q (e :: es)) :
    log.entryAt (q + 1) = some e := h 0 e rfl

/-- One entry on. -/
theorem Reads.tail {log : RaftLog} {q : Nat} {e : LogEntry} {es : List LogEntry}
    (h : Reads log q (e :: es)) : Reads log (q + 1) es := by
  intro k x hx
  have := h (k + 1) x (by simpa using hx)
  rwa [show q + 1 + 1 + k = q + 1 + (k + 1) by omega]

section Extract

variable {log : RaftLog} {budget : Nat}

variable {q : Nat} {es : List LogEntry}

/-- Once the budget is exhausted only the config entries up to the next counted one are taken. -/
theorem extractLoop_exhausted (hr : Reads log q es) (kvc kvb : Nat) :
    RaftApply.extractLoop log budget 0 (List.range' (q + 1) es.length) kvc kvb true true =
      (es.takeWhile fun e => !countsAgainstBudget e, true) := by
  induction es generalizing q with
  | nil => rfl
  | cons e es ih =>
    simp only [List.length_cons, List.range'_succ, RaftApply.extractLoop, hr.head]
    rcases hkv : countsAgainstBudget e with _ | _
    · -- a config entry is taken before the budget is looked at
      have hcfg : e.opType.isConfigChangeOp = true := by simpa [countsAgainstBudget] using hkv
      rw [if_pos hcfg, ih hr.tail]
      simp [hkv]
    · have hcfg : e.opType.isConfigChangeOp = false := by simpa [countsAgainstBudget] using hkv
      simp [hcfg, hkv]

/-- Within the budget a round takes everything. -/
theorem extractLoop_within (hr : Reads log q es) (kvc kvb : Nat) (hasMore : Bool)
    (hb : kvc + kvCount es ≤ budget) :
    RaftApply.extractLoop log budget 0 (List.range' (q + 1) es.length) kvc kvb false hasMore =
      (es, hasMore) := by
  induction es generalizing q kvc kvb with
  | nil => rfl
  | cons e es ih =>
    simp only [List.length_cons, List.range'_succ, RaftApply.extractLoop, hr.head]
    rcases hkv : countsAgainstBudget e with _ | _
    · have hcfg : e.opType.isConfigChangeOp = true := by simpa [countsAgainstBudget] using hkv
      rw [kvCount_cons_of_config hkv] at hb
      rw [if_pos hcfg, ih hr.tail _ _ hb]
    · have hcfg : e.opType.isConfigChangeOp = false := by simpa [countsAgainstBudget] using hkv
      rw [kvCount_cons_of_kv hkv] at hb
      rw [if_neg (by simp [hcfg]), if_neg (by simp), if_neg (by omega), if_neg (by omega),
        ih hr.tail _ _ (by omega)]

/-- **A round that overflows.** It takes the entries up to the budget, passes over the next counted
entry, and takes the config entries right behind it. -/
theorem extractLoop_overflow {pre rest : List LogEntry} {x : LogEntry} (hr : Reads log q (pre ++ x :: rest))
    (kvc kvb : Nat) (hasMore : Bool) (hx : countsAgainstBudget x = true) (hb : kvc + kvCount pre = budget) :
    RaftApply.extractLoop log budget 0 (List.range' (q + 1) (pre ++ x :: rest).length) kvc kvb
      false hasMore = (pre ++ rest.takeWhile fun e => !countsAgainstBudget e, true) := by
  induction pre generalizing q kvc kvb with
  | nil =>
    have hcfg : x.opType.isConfigChangeOp = false := by simpa [countsAgainstBudget] using hx
    have hb' : budget ≤ kvc := by simp [kvCount] at hb; omega
    simp only [List.nil_append, List.length_cons, List.range'_succ, RaftApply.extractLoop,
      (show Reads log q (x :: rest) from hr).head]
    -- `has_more` is set and the loop goes on to the next entry
    rw [if_neg (by simp [hcfg]), if_neg (by simp), if_pos hb']
    exact extractLoop_exhausted (show Reads log q (x :: rest) from hr).tail _ _
  | cons e pre ih =>
    have hr' : Reads log q (e :: (pre ++ x :: rest)) := hr
    simp only [List.cons_append, List.length_cons, List.range'_succ, RaftApply.extractLoop, hr'.head]
    rcases hkv : countsAgainstBudget e with _ | _
    · have hcfg : e.opType.isConfigChangeOp = true := by simpa [countsAgainstBudget] using hkv
      rw [kvCount_cons_of_config hkv] at hb
      rw [if_pos hcfg, ih hr'.tail _ _ hb]
    · have hcfg : e.opType.isConfigChangeOp = false := by simpa [countsAgainstBudget] using hkv
      rw [kvCount_cons_of_kv hkv] at hb
      rw [if_neg (by simp [hcfg]), if_neg (by simp), if_neg (by omega), if_neg (by omega),
        ih hr'.tail _ _ (by omega)]

end Extract

/-! ## The outstanding entries -/

/-- The log positions a core may be in when entries are applied. -/
structure Applicable (c : RaftCore) : Prop where
  consecutive : c.raftLog.Consecutive
  snapshot_le : c.raftLog.snapshotIndex ≤ c.raftApply.lastApplied
  applied_le : c.raftApply.lastApplied ≤ c.raftApply.commitIndex
  commit_le : c.raftApply.commitIndex ≤ c.raftLog.lastLogIndex

/-- The committed entries not applied yet, in log order. -/
def outstanding (c : RaftCore) : List LogEntry :=
  (c.raftLog.logEntries.drop (c.raftApply.lastApplied - c.raftLog.snapshotIndex)).take
    (c.raftApply.commitIndex - c.raftApply.lastApplied)

section Outstanding

variable {c : RaftCore}

/-- As many entries as the two indexes are apart. -/
theorem outstanding_length (h : Applicable c) :
    (outstanding c).length = c.raftApply.commitIndex - c.raftApply.lastApplied := by
  have hlen := lastLogIndex_eq h.consecutive
  have h1 := h.snapshot_le
  have h2 := h.applied_le
  have h3 := h.commit_le
  simp only [outstanding, List.length_take, List.length_drop]
  omega

/-- They carry the indexes after `last_applied`. -/
theorem outstanding_consecutive (h : Applicable c) :
    ConsecutiveFrom c.raftApply.lastApplied (outstanding c) := by
  have hlen := lastLogIndex_eq h.consecutive
  have h1 := h.snapshot_le
  have h2 := h.applied_le
  have h3 := h.commit_le
  have := (h.consecutive.drop (n := c.raftApply.lastApplied - c.raftLog.snapshotIndex)
    (by omega)).take (c.raftApply.commitIndex - c.raftApply.lastApplied)
  rwa [show c.raftLog.snapshotIndex + (c.raftApply.lastApplied - c.raftLog.snapshotIndex) =
    c.raftApply.lastApplied by omega] at this

/-- They are what the log has at these indexes. -/
theorem outstanding_reads (h : Applicable c) :
    Reads c.raftLog c.raftApply.lastApplied (outstanding c) := by
  intro k e hk
  have h1 := h.snapshot_le
  rw [outstanding, List.getElem?_take] at hk
  split at hk
  · rw [List.getElem?_drop] at hk
    rw [entryAt, if_neg (by omega), ← hk]
    congr 1
    omega
  · cases hk

theorem outstanding_index (h : Applicable c) {e : LogEntry} (he : e ∈ outstanding c) :
    c.raftApply.lastApplied < e.index ∧ e.index ≤ c.raftApply.commitIndex := by
  obtain ⟨k, hk, rfl⟩ := List.getElem_of_mem he
  have hidx := outstanding_consecutive h k _ (List.getElem?_eq_getElem hk)
  rw [outstanding_length h] at hk
  omega

/-- The batch a round extracts, as a list computation on the outstanding entries. -/
theorem extract_eq (h : Applicable c) (budget : Nat) :
    c.raftApply.extractCommittedEntries c.raftLog budget 0 =
      RaftApply.extractLoop c.raftLog budget 0
        (List.range' (c.raftApply.lastApplied + 1) (outstanding c).length) 0 0 false false := by
  rw [RaftApply.extractCommittedEntries, outstanding_length h]

/-- What one round extracts: everything, or the budget's worth and the config entries behind the first
entry over it. -/
theorem extract_cases (h : Applicable c) (budget : Nat) :
    (kvCount (outstanding c) ≤ budget ∧
      c.raftApply.extractCommittedEntries c.raftLog budget 0 = (outstanding c, false)) ∨
    ∃ pre x rest, outstanding c = pre ++ x :: rest ∧ countsAgainstBudget x = true ∧
      kvCount pre = budget ∧
      c.raftApply.extractCommittedEntries c.raftLog budget 0 =
        (pre ++ rest.takeWhile fun e => !countsAgainstBudget e, true) := by
  have hreads := outstanding_reads h
  rw [extract_eq h]
  by_cases hb : kvCount (outstanding c) ≤ budget
  · exact Or.inl ⟨hb, extractLoop_within hreads 0 0 false (by omega)⟩
  · obtain ⟨pre, x, rest, hsplit, hx, hpre⟩ := exists_split_at_budget (Nat.lt_of_not_le hb)
    refine Or.inr ⟨pre, x, rest, hsplit, hx, hpre, ?_⟩
    rw [hsplit] at hreads ⊢
    exact extractLoop_overflow hreads 0 0 false hx (by omega)

/-- A round extracts outstanding entries only. -/
theorem extract_mem (h : Applicable c) {budget : Nat} {e : LogEntry}
    (he : e ∈ (c.raftApply.extractCommittedEntries c.raftLog budget 0).1) :
    e ∈ outstanding c := by
  rcases extract_cases h budget with ⟨-, heq⟩ | ⟨pre, x, rest, hsplit, -, -, heq⟩
  · rwa [heq] at he
  · rw [heq] at he
    rw [hsplit]
    rcases List.mem_append.mp he with hmem | hmem
    · exact List.mem_append_left _ hmem
    · exact List.mem_append_right _ (List.mem_cons_of_mem _ (List.takeWhile_subset _ hmem))

end Outstanding

/-! ## Applying a batch -/

/-- The entries `es` were applied to `s` with success: the log and the commit index stay, each entry was
passed to the state machine in turn, and `last_applied` moved to the largest index. -/
structure Applied (s : ApplyState) (es : List LogEntry) (s' : ApplyState) : Prop where
  raftLog_eq : s'.core.raftLog = s.core.raftLog
  commit_eq : s'.core.raftApply.commitIndex = s.core.raftApply.commitIndex
  passed_eq : s'.passed = s.passed ++ es
  applied_eq : s'.core.raftApply.lastApplied =
    es.foldl (fun m e => max m e.index) s.core.raftApply.lastApplied

/-- `last_applied` never goes back. -/
theorem advanceLastApplied_eq (a : RaftApply) (i : Nat) :
    a.advanceLastApplied i = { a with lastApplied := max a.lastApplied i } := by
  unfold RaftApply.advanceLastApplied
  split
  · rw [max_eq_right (by omega)]
  · rw [max_eq_left (by omega)]

theorem stepDownIfBecomeNonMember_frame (c : RaftCore) :
    c.stepDownIfBecomeNonMember.raftLog = c.raftLog ∧
      c.stepDownIfBecomeNonMember.raftApply = c.raftApply := by
  unfold RaftCore.stepDownIfBecomeNonMember
  split <;> exact ⟨rfl, rfl⟩

/-- A config change that succeeds moves `last_applied` itself. -/
theorem applyConfigEntry_ok {c : RaftCore} (h : (c.applyConfigEntry e).1.fail = false) :
    (c.applyConfigEntry e).2.raftLog = c.raftLog ∧
      (c.applyConfigEntry e).2.raftApply =
        { c.raftApply with lastApplied := max c.raftApply.lastApplied e.index } := by
  unfold RaftCore.applyConfigEntry at h ⊢
  simp only at h ⊢
  split
  · next hf => rw [if_pos hf, hf] at h; cases h
  · obtain ⟨hlog, happly⟩ := stepDownIfBecomeNonMember_frame
      { c with membership := (RaftCore.applyMembershipChange c.membership e).2 }
    exact ⟨hlog, by rw [happly, advanceLastApplied_eq]⟩

/-- One entry. A config change goes to the membership first, and to the state machine as well. -/
theorem applyOneEntry_ok (h : (s.applyOneEntry e).1.fail = false) : Applied s [e] (s.applyOneEntry e).2 := by
  unfold ApplyState.applyOneEntry at h ⊢
  by_cases hcfg : e.opType.isConfigChangeOp = true
  · rw [if_pos hcfg] at h ⊢
    simp only at h ⊢
    by_cases hf : (s.core.applyConfigEntry e).1.fail = true
    · rw [if_pos hf, hf] at h
      cases h
    · rw [if_neg hf] at h ⊢
      obtain ⟨hlog, happly⟩ := applyConfigEntry_ok (Bool.eq_false_of_not_eq_true hf)
      refine ⟨hlog, ?_, rfl, ?_⟩
      · simp [ApplyState.pass, happly]
      · simp [ApplyState.pass, happly]
  · rw [if_neg hcfg] at h ⊢
    simp only at h ⊢
    by_cases hf : (s.pass e).1.fail = true
    · rw [if_pos hf, hf] at h
      cases h
    · rw [if_neg hf]
      refine ⟨rfl, ?_, rfl, ?_⟩
      · simp [ApplyState.pass, RaftCore.advanceLastApplied, advanceLastApplied_eq]
      · simp [ApplyState.pass, RaftCore.advanceLastApplied, advanceLastApplied_eq]

/-- A batch stops at the first failure, so after a success all of it is applied. -/
theorem applyBatch_ok (h : (s.applyBatch es).1.fail = false) : Applied s es (s.applyBatch es).2 := by
  induction es generalizing s with
  | nil => exact ⟨rfl, rfl, by simp [ApplyState.applyBatch], rfl⟩
  | cons e es ih =>
    simp only [ApplyState.applyBatch] at h ⊢
    by_cases hf : (s.applyOneEntry e).1.fail = true
    · rw [if_pos hf, hf] at h
      cases h
    · rw [if_neg hf] at h ⊢
      have h1 := applyOneEntry_ok (Bool.eq_false_of_not_eq_true hf)
      have h2 := ih h
      refine ⟨h2.raftLog_eq.trans h1.raftLog_eq, h2.commit_eq.trans h1.commit_eq, ?_, ?_⟩
      · rw [h2.passed_eq, h1.passed_eq, List.append_assoc, List.singleton_append]
      · rw [h2.applied_eq, h1.applied_eq]
        rfl

/-- A nonempty batch of outstanding entries moves `last_applied` forward, never past the commit
index. -/
theorem foldl_max_bounds {lo hi : Nat} (h : ∀ e ∈ es, lo < e.index ∧ e.index ≤ hi) {m : Nat} (hm : lo ≤ m)
    (hm' : m ≤ hi) :
    m ≤ es.foldl (fun m e => max m e.index) m ∧ es.foldl (fun m e => max m e.index) m ≤ hi ∧
      (es ≠ [] → lo < es.foldl (fun m e => max m e.index) m) := by
  induction es generalizing m with
  | nil => simpa using hm'
  | cons e es ih =>
    have he := h e (by simp)
    obtain ⟨h1, h2, -⟩ := ih (fun x hx => h x (by simp [hx])) (m := max m e.index)
      (by omega) (by omega)
    refine ⟨by simp only [List.foldl_cons]; omega, h2, fun _ => ?_⟩
    simp only [List.foldl_cons]
    omega

/-- Consecutive entries end where they should. -/
theorem foldl_max_consecutive {m : Nat} (h : ConsecutiveFrom m es) :
    es.foldl (fun m e => max m e.index) m = m + es.length := by
  induction es generalizing m with
  | nil => rfl
  | cons e es ih =>
    obtain ⟨he, hes⟩ := ConsecutiveFrom.cons_iff.mp h
    rw [List.foldl_cons, he, max_eq_right (by omega), ih hes, List.length_cons]
    omega

/-- The next round starts from a core that may apply again. -/
theorem Applied.applicable (ha : Applied s es s') (h : Applicable s.core)
    (hmem : ∀ e ∈ es, e ∈ outstanding s.core) : Applicable s'.core := by
  obtain ⟨h1, h2, -⟩ := foldl_max_bounds (fun e he => outstanding_index h (hmem e he)) le_rfl
    h.applied_le
  refine ⟨by rw [Consecutive, ha.raftLog_eq]; exact h.consecutive, ?_, ?_, ?_⟩
  · rw [ha.raftLog_eq, ha.applied_eq]
    exact h.snapshot_le.trans h1
  · rw [ha.applied_eq, ha.commit_eq]
    exact h2
  · rw [ha.commit_eq, ha.raftLog_eq]
    exact h.commit_le

/-- Applying a first part of the outstanding entries leaves the rest outstanding. -/
theorem Applied.outstanding_eq (ha : Applied s pre s') (h : Applicable s.core)
    (hsplit : outstanding s.core = pre ++ rest) :
    outstanding s'.core = rest := by
  have hcons := outstanding_consecutive h
  rw [hsplit] at hcons
  have happ := ha.applied_eq
  rw [foldl_max_consecutive (ConsecutiveFrom.append_iff.mp hcons).1] at happ
  have h1 := h.snapshot_le
  calc outstanding s'.core
      = (outstanding s.core).drop pre.length := by
        simp only [outstanding, ha.raftLog_eq, ha.commit_eq, happ, List.drop_take, List.drop_drop]
        congr 1
        · omega
        · congr 1
          omega
    _ = rest := by rw [hsplit]; simp

/-! ## The whole loop -/

/-- The batch a round of the loop extracts. -/
def roundBatch (s : ApplyState) : List LogEntry × Bool :=
  s.core.raftApply.extractCommittedEntries s.core.raftLog replicaInlineApplyBatchSize 0

theorem applyRounds_succ (fuel : Nat) (s : ApplyState) :
    ApplyState.applyRounds (fuel + 1) s =
      if (roundBatch s).1 = [] then some (.OK, s)
      else if (s.applyBatch (roundBatch s).1).1.fail then some (s.applyBatch (roundBatch s).1)
      else if !(roundBatch s).2 then some (.OK, (s.applyBatch (roundBatch s).1).2)
      else ApplyState.applyRounds fuel (s.applyBatch (roundBatch s).1).2 := rfl

/-- The loop ends: every round that goes on has applied an entry. -/
theorem applyRounds_total (h : Applicable s.core)
    (hfuel : s.core.raftApply.commitIndex - s.core.raftApply.lastApplied < fuel) :
    ∃ r, ApplyState.applyRounds fuel s = some r := by
  induction fuel generalizing s with
  | zero => omega
  | succ fuel ih =>
    rw [applyRounds_succ]
    by_cases hnil : (roundBatch s).1 = []
    · exact ⟨_, if_pos hnil⟩
    rw [if_neg hnil]
    by_cases hf : (s.applyBatch (roundBatch s).1).1.fail = true
    · exact ⟨_, if_pos hf⟩
    rw [if_neg hf]
    by_cases hm : (!(roundBatch s).2) = true
    · exact ⟨_, if_pos hm⟩
    rw [if_neg hm]
    have ha := applyBatch_ok (Bool.eq_false_of_not_eq_true hf)
    have hmem : ∀ e ∈ (roundBatch s).1, e ∈ outstanding s.core := fun e he => extract_mem h he
    obtain ⟨-, h2, h3⟩ := foldl_max_bounds (fun e he => outstanding_index h (hmem e he)) le_rfl
      h.applied_le
    refine ih (ha.applicable h hmem) ?_
    -- the distance to the commit index shrinks
    rw [ha.commit_eq, ha.applied_eq]
    have := h3 hnil
    omega

/-- What has been passed to the state machine stays passed. -/
theorem applyRounds_passed {st : Status} (h : ApplyState.applyRounds fuel s = some (st, s'))
    (hok : st.fail = false) :
    s.passed <+: s'.passed := by
  induction fuel generalizing s with
  | zero => cases h
  | succ fuel ih =>
    rw [applyRounds_succ] at h
    split at h
    · cases h; exact List.prefix_rfl
    split at h
    · next hf =>
        rw [Option.some.inj h] at hf
        rw [hok] at hf
        cases hf
    · next hf =>
        have ha := applyBatch_ok (Bool.eq_false_of_not_eq_true hf)
        have hpre : s.passed <+: (s.applyBatch (roundBatch s).1).2.passed := by
          rw [ha.passed_eq]; exact List.prefix_append _ _
        split at h
        · cases h; exact hpre
        · exact hpre.trans (ih h)

/-- No config entry sits right behind an entry that overflows a round: one preceded by a positive
multiple of the budget. -/
def NoConfigBehindOverflow (budget : Nat) (es : List LogEntry) : Prop :=
  ∀ a x y b, es = a ++ x :: y :: b → countsAgainstBudget x = true →
    countsAgainstBudget y = false → ¬(0 < kvCount a ∧ budget ∣ kvCount a)

/-- A single round does not overflow. -/
theorem noConfigBehindOverflow_of_le {budget : Nat} (h : kvCount es ≤ budget) :
    NoConfigBehindOverflow budget es := by
  rintro a x y b rfl hx hy ⟨hpos, hdvd⟩
  rw [kvCount_append, kvCount_cons_of_kv hx] at h
  have := Nat.le_of_dvd hpos hdvd
  omega

/-- Cutting off a full round in front of an overflowing entry changes nothing, when that entry is not
followed by a config entry. -/
theorem noConfigBehindOverflow_append {budget : Nat} {x : LogEntry} (hpre : kvCount pre = budget)
    (hx : countsAgainstBudget x = true) (hrest : rest.takeWhile (fun e => !countsAgainstBudget e) = []) :
    NoConfigBehindOverflow budget (pre ++ x :: rest) ↔
      NoConfigBehindOverflow budget (x :: rest) := by
  constructor
  · rintro h a u v b hab hu hv ⟨hpos, hdvd⟩
    refine h (pre ++ a) u v b (by rw [hab, List.append_assoc]) hu hv ⟨?_, ?_⟩
    · rw [kvCount_append]; omega
    · rw [kvCount_append, hpre]; exact Nat.dvd_add (dvd_refl _) hdvd
  · rintro h a u v b hab hu hv ⟨hpos, hdvd⟩
    have hhead : ∀ w ws, rest = w :: ws → countsAgainstBudget w = true := by
      rintro w ws rfl
      by_contra hw
      simp [Bool.eq_false_of_not_eq_true hw] at hrest
    rcases List.append_eq_append_iff.mp hab with ⟨a', ha, hrest'⟩ | ⟨c, hc, hrest'⟩
    · -- the pair lies behind the cut
      rcases a' with _ | ⟨w, a'⟩
      · obtain ⟨-, hr⟩ := List.cons.inj hrest'
        rw [hhead v b hr] at hv
        cases hv
      · have hw : x = w := (List.cons.inj hrest').1
        subst hw
        refine h (x :: a') u v b hrest' hu hv ⟨?_, ?_⟩
        · rw [kvCount_cons_of_kv hx]; omega
        · rw [ha, kvCount_append, hpre] at hdvd
          exact (Nat.dvd_add_right (dvd_refl _)).mp hdvd
    · -- the pair starts before the cut, where fewer than a budget of entries were counted
      rcases c with _ | ⟨w, c⟩
      · obtain ⟨-, hr⟩ := List.cons.inj hrest'
        rw [hhead v b hr.symm] at hv
        cases hv
      · have hw : u = w := (List.cons.inj hrest').1
        subst hw
        rw [hc, kvCount_append, kvCount_cons_of_kv hu] at hpre
        have := Nat.le_of_dvd hpos hdvd
        omega

/-- **One run of the loop, exactly.** When it reports OK, the outstanding entries have been passed to
the state machine once each, in log order, and `last_applied` has reached the commit index, if and
only if no config entry sits behind a round's overflowing entry. -/
theorem applyRounds_in_order {st : Status} (h : Applicable s.core)
    (hrun : ApplyState.applyRounds fuel s = some (st, s')) (hok : st.fail = false) :
    (s'.passed = s.passed ++ outstanding s.core ∧
      s'.core.raftApply.lastApplied = s.core.raftApply.commitIndex) ↔
      NoConfigBehindOverflow replicaInlineApplyBatchSize (outstanding s.core) := by
  induction fuel generalizing s with
  | zero => cases hrun
  | succ fuel ih =>
    have hlen := outstanding_length h
    rw [applyRounds_succ] at hrun
    by_cases hnil : (roundBatch s).1 = []
    · -- nothing extracted: nothing is outstanding
      have hout : outstanding s.core = [] := by
        rcases extract_cases h replicaInlineApplyBatchSize with ⟨-, heq⟩ | ⟨pre, x, rest, -, -, hk, heq⟩
        · rw [roundBatch, heq] at hnil; exact hnil
        · rw [roundBatch, heq] at hnil
          rw [(List.append_eq_nil_iff.mp hnil).1] at hk
          cases hk
      rw [if_pos hnil] at hrun
      obtain ⟨-, rfl⟩ := Prod.mk.inj (Option.some.inj hrun)
      have := h.applied_le
      rw [hout] at hlen ⊢
      refine iff_of_true ⟨by simp, by simp at hlen; omega⟩ (noConfigBehindOverflow_of_le ?_)
      simp [kvCount]
    rw [if_neg hnil] at hrun
    by_cases hf : (s.applyBatch (roundBatch s).1).1.fail = true
    · rw [if_pos hf] at hrun
      rw [Option.some.inj hrun, hok] at hf
      cases hf
    rw [if_neg hf] at hrun
    have ha := applyBatch_ok (Bool.eq_false_of_not_eq_true hf)
    have happ := ha.applicable h fun e he => extract_mem h he
    rcases extract_cases h replicaInlineApplyBatchSize with
      ⟨hk, heq⟩ | ⟨pre, x, rest, hsplit, hx, hk, heq⟩
    · -- the round takes everything that is left
      have hbatch : roundBatch s = (outstanding s.core, false) := heq
      rw [hbatch] at ha hrun
      simp only [Bool.not_false, if_true] at hrun
      obtain ⟨-, rfl⟩ := Prod.mk.inj (Option.some.inj hrun)
      refine iff_of_true ⟨ha.passed_eq, ?_⟩ (noConfigBehindOverflow_of_le hk)
      rw [ha.applied_eq, foldl_max_consecutive (outstanding_consecutive h), hlen]
      have := h.applied_le
      omega
    · have hbatch : roundBatch s = (pre ++ rest.takeWhile fun e => !countsAgainstBudget e, true) := heq
      rw [hbatch] at ha happ hrun
      simp only [Bool.not_true, Bool.false_eq_true, if_false] at hrun
      rcases hcfg : rest.takeWhile (fun e => !countsAgainstBudget e) with _ | ⟨y, cfgs⟩
      · -- no config entry behind the overflowing entry: the next round starts with it
        rw [hcfg, List.append_nil] at ha happ hrun
        rw [hsplit, noConfigBehindOverflow_append hk hx hcfg,
          ← ha.outstanding_eq h hsplit, ← ih happ hrun, ha.commit_eq, ha.passed_eq,
          ha.outstanding_eq h hsplit, List.append_assoc]
      · -- a config entry jumps the queue: the overflowing entry is never passed
        rw [hcfg] at ha hrun
        have hy : countsAgainstBudget y = false := by
          have : y ∈ rest.takeWhile (fun e => !countsAgainstBudget e) := by rw [hcfg]; simp
          simpa using List.mem_takeWhile_imp this
        have hrest : ∃ b, rest = y :: b := by
          rcases rest with _ | ⟨w, ws⟩
          · cases hcfg
          · rw [List.takeWhile_cons] at hcfg
            split at hcfg
            · exact ⟨ws, by rw [(List.cons.inj hcfg).1]⟩
            · cases hcfg
        obtain ⟨b, rfl⟩ := hrest
        refine iff_of_false ?_ ?_
        · rintro ⟨hpassed, -⟩
          have hpre := applyRounds_passed hrun hok
          rw [ha.passed_eq, hpassed, hsplit, List.prefix_append_right_inj,
            List.prefix_append_right_inj, List.cons_prefix_cons] at hpre
          rw [← hpre.1, hy] at hx
          cases hx
        · intro hno
          exact hno pre x y b hsplit hx hy ⟨by rw [hk]; decide, by rw [hk]⟩

/-- **Apply exactly once, in order.** The loop always ends. When it reports OK, every entry in
`(last_applied, commit_index]` has been passed to the state machine once, in increasing index order,
and `last_applied` equals the commit index, exactly when no config entry directly follows an entry
that is preceded by a positive multiple of 256 outstanding non-config entries. -/
theorem applyCommittedEntriesInline_in_order {s : ApplyState} (h : Applicable s.core) :
    ∃ st s', s.applyCommittedEntriesInline = some (st, s') ∧
      (st.fail = false →
        ((s'.passed = s.passed ++ outstanding s.core ∧
          s'.core.raftApply.lastApplied = s.core.raftApply.commitIndex) ↔
          NoConfigBehindOverflow replicaInlineApplyBatchSize (outstanding s.core))) := by
  obtain ⟨⟨st, s'⟩, hrun⟩ := applyRounds_total h
    (Nat.lt_succ_self (s.core.raftApply.commitIndex - s.core.raftApply.lastApplied))
  exact ⟨st, s', hrun, fun hok => applyRounds_in_order h hrun hok⟩

/-! ## A config entry that jumps the queue -/

/-- `n` no-op entries of term 1. -/
def noopLog (n : Nat) : List LogEntry :=
  (List.range n).map fun i => { term := 1, index := i + 1 }

/-- A single-voter replica whose whole log is committed and not yet applied. -/
def committedReplica (es : List LogEntry) : ApplyState :=
  { core :=
      { selfId := ⟨1, 0, 1⟩
        election := { selfId := ⟨1, 0, 1⟩, currentTerm := 1, role := .leader }
        raftLog := { logEntries := es }
        raftApply := { commitIndex := es.length }
        membership := RaftMembership.resetVoters [{ replicaId := ⟨1, 0, 1⟩ }] }
    stateMachine := {} }

/-- The replica may apply its log. -/
theorem committedReplica_applicable (h : ConsecutiveFrom 0 es) :
    Applicable (committedReplica es).core := by
  have hcons : (committedReplica es).core.raftLog.Consecutive := h
  refine ⟨hcons, le_rfl, Nat.zero_le _, ?_⟩
  rw [lastLogIndex_eq hcons]
  simp [committedReplica]

theorem noopLog_consecutive (n : Nat) : ConsecutiveFrom 0 (noopLog n) := by
  intro k e hk
  simp only [noopLog, List.getElem?_map, Option.map_eq_some_iff] at hk
  obtain ⟨i, hi, rfl⟩ := hk
  obtain ⟨-, rfl⟩ := List.getElem?_eq_some_iff.mp hi
  simp

/-- 257 no-op entries, then one ADD_LEARNER. -/
def queueJumpLog : List LogEntry :=
  noopLog 257 ++
    [{ term := 1, index := 258, opType := .addLearner, configMember := { replicaId := ⟨1, 0, 2⟩ } }]

theorem queueJumpLog_consecutive : ConsecutiveFrom 0 queueJumpLog := by
  refine ConsecutiveFrom.append_iff.mpr ⟨noopLog_consecutive 257, ?_⟩
  exact ConsecutiveFrom.cons_iff.mpr ⟨by simp [noopLog], ConsecutiveFrom.nil _⟩

/-- Three committed no-op entries: the loop passes them all. -/
theorem in_order_three_noops :
    ∃ st s', (committedReplica (noopLog 3)).applyCommittedEntriesInline = some (st, s') ∧
      (st.fail = false →
        ((s'.passed = [] ++ outstanding (committedReplica (noopLog 3)).core ∧
          s'.core.raftApply.lastApplied = 3) ↔
          NoConfigBehindOverflow replicaInlineApplyBatchSize
            (outstanding (committedReplica (noopLog 3)).core))) :=
  applyCommittedEntriesInline_in_order (committedReplica_applicable (noopLog_consecutive 3))

/-- The loop reports OK and `last_applied` reaches the commit index 258, but entry 257 was never passed
to the state machine. -/
theorem config_entry_jumps_queue :
    Applicable (committedReplica queueJumpLog).core ∧
    (committedReplica queueJumpLog).core.raftApply.commitIndex = 258 ∧
    ((committedReplica queueJumpLog).applyCommittedEntriesInline.map fun r =>
        (r.1, r.2.core.raftApply.lastApplied, r.2.passed.map LogEntry.index)) =
      some (.OK, 258, List.range' 1 256 ++ [258]) :=
  ⟨committedReplica_applicable queueJumpLog_consecutive, by decide +kernel, by decide +kernel⟩

end AdvisKV
