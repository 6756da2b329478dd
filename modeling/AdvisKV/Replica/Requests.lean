import AdvisKV.Raft.CoreShape
import AdvisKV.Replica.ApplyMoves
import AdvisKV.Replica.ApplyInOrder

/-!
# AdvisKV — requests in the log and in the state machine

A write is recognised by its request id in two places: the request index of the log names the first
retained entry that carries the id, and the state machine keeps a record of every id it has applied. The
lemmas here say what the two lookups find, how a handler may change the log above the commit index, and
that an entry applied in order leaves the record of its own request behind.

Main results:

* `RaftLog.findRequest_eq` — the request index finds the first retained write with the id.
* `CoreEvent.step_grows` — a handler other than AppendEntries and install only appends.
* `KvStateMachine.applyAll_findRequest` — the record the first entry of a request leaves behind.
-/

namespace AdvisKV

/-! ## The request index -/

namespace RaftLog

/-- A write with this request id. -/
def isRequest (r : Bytes) (e : LogEntry) : Bool := e.requestId == r && e.opType.isKvWriteOp

/-- The request index names the first retained entry of every request. -/
def Indexed (l : RaftLog) : Prop :=
  ∀ r, r ≠ [] → l.requestIndex.lookup r = (l.logEntries.find? (isRequest r)).map LogEntry.index

/-- `emplace` does not replace what is there. -/
theorem lookup_emplace (m : List (Bytes × Nat)) (k : Bytes) (v : Nat) (r : Bytes) :
    (emplace m k v).lookup r = (m.lookup r).or (if r = k then some v else none) := by
  unfold emplace
  by_cases hk : r = k
  · subst hk
    split
    · next h =>
      obtain ⟨i, hi⟩ := Option.isSome_iff_exists.mp h
      rw [hi]
      rfl
    · simp [List.lookup_append]
  · have hne : (r == k) = false := by simpa using hk
    rw [if_neg hk, Option.or_none]
    split
    · rfl
    · simp [List.lookup_append, List.lookup_cons, hne]

variable {r : Bytes} {l : RaftLog}

/-- One more entry in the index counts only for its own request, and only if that is new. -/
theorem lookup_indexRequestId (m : List (Bytes × Nat)) (e : LogEntry) (hr : r ≠ []) :
    (indexRequestId m e).lookup r =
      (m.lookup r).or (if isRequest r e then some e.index else none) := by
  unfold indexRequestId
  split
  · next hnil =>
    have hno : isRequest r e = false := by
      simp only [isRequest, hnil, Bool.and_eq_false_iff, beq_eq_false_iff_ne]
      exact Or.inl hr.symm
    simp [hno]
  split
  · next hop =>
    have hno : isRequest r e = false := by simp_all [isRequest]
    simp [hno]
  · next hop =>
    have hop' : e.opType.isKvWriteOp = true := by simpa using hop
    rw [lookup_emplace]
    simp only [isRequest, hop', Bool.and_true, beq_iff_eq]
    by_cases hid : r = e.requestId
    · simp [hid]
    · simp [hid, Ne.symm hid]

theorem lookup_foldl_indexRequestId (es : List LogEntry) (m : List (Bytes × Nat)) (hr : r ≠ []) :
    (es.foldl indexRequestId m).lookup r =
      (m.lookup r).or ((es.find? (isRequest r)).map LogEntry.index) := by
  induction es generalizing m with
  | nil => simp
  | cons e es ih =>
    rw [List.foldl_cons, ih, lookup_indexRequestId m e hr, List.find?_cons]
    cases isRequest r e
    · simp
    · simp

/-- A rebuilt index is exact, whatever the old one was. -/
theorem updateEntries_indexed (l : RaftLog) (es : List LogEntry) : (l.updateEntries es).Indexed := by
  intro r hr
  show (es.foldl indexRequestId []).lookup r = _
  rw [lookup_foldl_indexRequestId es [] hr]
  rfl

theorem installSnapshot_indexed (l : RaftLog) (S t : Nat) : (l.installSnapshot S t).Indexed :=
  updateEntries_indexed { l with snapshotIndex := S, snapshotTerm := t } _

/-- A new entry behind the others is found only where none of them is. -/
theorem appendNewEntry_indexed (h : l.Indexed) (term : Nat) (param : ProposeParam) :
    (l.appendNewEntry term param).Indexed := by
  intro r hr
  show (indexRequestId l.requestIndex _).lookup r = ((l.logEntries ++ [_]).find? _).map _
  rw [lookup_indexRequestId _ _ hr, h r hr, List.find?_append]
  rcases l.logEntries.find? (isRequest r) with _ | x
  · simp only [Option.map_none, Option.none_or, List.find?_cons, List.find?_nil]
    cases isRequest r (newEntry term (l.lastLogIndex + 1) param) <;> rfl
  · rfl

theorem appendEntriesFromLeader_indexed {l' : RaftLog} (h : l.Indexed) {es : List LogEntry}
    {r : LogAppendResult} (hmerge : l.appendEntriesFromLeader es = .ok (l', r)) : l'.Indexed := by
  -- a merge that pushed something rebuilds the index, every other one keeps the log
  unfold appendEntriesFromLeader at hmerge
  split at hmerge
  · cases hmerge
    exact h
  split at hmerge
  · cases hmerge
  split at hmerge
  · cases hmerge
    exact h
  · cases hmerge
    exact updateEntries_indexed l _

/-- An entry of the log is found under its own index. -/
theorem entryAt_of_mem (hl : l.Consecutive) {x : LogEntry} (hx : x ∈ l.logEntries) :
    l.entryAt x.index = some x ∧ l.snapshotIndex < x.index := by
  obtain ⟨k, hk, rfl⟩ := List.getElem_of_mem hx
  have hidx := hl k _ (List.getElem?_eq_getElem hk)
  refine ⟨?_, by omega⟩
  rw [entryAt, if_neg (by omega), show l.logEntries[k].index - l.snapshotIndex - 1 = k by omega]
  exact List.getElem?_eq_getElem hk

/-- **The request index.** -/
theorem findRequest_eq (hl : l.Consecutive) (hindexed : l.Indexed) (hr : r ≠ []) :
    l.findRequest r = l.logEntries.find? (isRequest r) := by
  simp only [findRequest, if_neg hr, hindexed r hr]
  -- the index gives a number, and the entry with that number is the one found
  rcases hfind : l.logEntries.find? (isRequest r) with _ | x
  · rfl
  · exact (entryAt_of_mem hl (List.mem_of_find?_eq_some hfind)).1

end RaftLog

variable {e : CoreEvent} {c : RaftCore}

/-- A move keeps the index exact. -/
theorem Micro.indexed {s s' : CoreState} (h : Micro e s s') (hs : s.core.raftLog.Indexed) :
    s'.core.raftLog.Indexed := by
  cases h with
  | follow term hle =>
    rw [CoreState.becomeFollower_raftLog]
    exact hs
  | lead => exact RaftLog.appendNewEntry_indexed hs _ _
  | append param => exact RaftLog.appendNewEntry_indexed hs _ _
  | accept param log r event role term member prev merged =>
    rw [(CoreState.acceptAppend_core (s.storeMerge log r) param.leaderCommit).1]
    exact RaftLog.appendEntriesFromLeader_indexed hs merged
  | install header event =>
    simp only [CoreState.installSnapshot, RaftCore.installSnapshotIntoLog_raftLog]
    exact RaftLog.installSnapshot_indexed _ _ _
  | _ => exact hs

theorem CoreEvent.step_indexed (e : CoreEvent) (h : c.raftLog.Indexed) :
    (e.step { core := c }).core.raftLog.Indexed :=
  CoreEvent.step_induction (P := fun s => s.core.raftLog.Indexed) (fun _ _ => Micro.indexed) h

/-! ## Handlers that only append -/

/-- The log has only got longer and the commit index has only moved up, within the log. -/
structure RaftCore.Grows (c c' : RaftCore) : Prop where
  snapshotIndex : c'.raftLog.snapshotIndex = c.raftLog.snapshotIndex
  snapshotTerm : c'.raftLog.snapshotTerm = c.raftLog.snapshotTerm
  entries : c.raftLog.logEntries <+: c'.raftLog.logEntries
  applied : c'.raftApply.lastApplied = c.raftApply.lastApplied
  commit_ge : c.raftApply.commitIndex ≤ c'.raftApply.commitIndex
  commit_le : c'.raftApply.commitIndex ≤ c'.raftLog.lastLogIndex

theorem RaftCore.Grows.refl (h : c.raftApply.commitIndex ≤ c.raftLog.lastLogIndex) :
    Grows c c :=
  ⟨rfl, rfl, List.prefix_rfl, rfl, le_rfl, h⟩

/-- An event whose handler neither merges entries nor installs a snapshot. -/
def CoreEvent.OnlyAppends (e : CoreEvent) : Prop :=
  (∀ param, e ≠ .appendEntries param) ∧ e.KeepsSnapshot

/-- Adding one entry is growing. -/
theorem RaftCore.Grows.appended {c' : RaftCore} (hg : c.Grows c') (hc : c'.raftLog.Consecutive)
    {c'' : RaftCore} {term : Nat} {param : ProposeParam}
    (hlog : c''.raftLog = c'.raftLog.appendNewEntry term param) (happly : c''.raftApply = c'.raftApply) :
    c.Grows c'' := by
  refine ⟨by rw [hlog]; exact hg.1, by rw [hlog]; exact hg.2, ?_, by rw [happly]; exact hg.4,
    by rw [happly]; exact hg.5, ?_⟩
  · rw [hlog]
    exact hg.3.trans (List.prefix_append _ _)
  · rw [hlog, happly, RaftLog.lastLogIndex_appendNewEntry hc]
    exact Nat.le_succ_of_le hg.6

/-- A move of such an event appends, commits, or leaves both alone. -/
theorem Micro.grows {s s' : CoreState} (h : Micro e s s') (he : e.OnlyAppends) (hs : s.core.Shaped)
    (hg : c.Grows s.core) : c.Grows s'.core := by
  cases h with
  | follow term hle =>
    rw [CoreState.becomeFollower_core]
    exact ⟨hg.1, hg.2, hg.3, hg.4, hg.5, hg.6⟩
  | lead => exact hg.appended hs.consecutive rfl rfl
  | append param => exact hg.appended hs.consecutive rfl rfl
  | leaderCommit new ready role later held =>
    exact ⟨hg.1, hg.2, hg.3, hg.4, hg.5.trans later.le, held⟩
  | accept param log r event => exact absurd event (he.1 param)
  | install header event => exact absurd event (he.2 header)
  | _ => exact ⟨hg.1, hg.2, hg.3, hg.4, hg.5, hg.6⟩

/-- **Only appending.** -/
theorem CoreEvent.step_grows (he : e.OnlyAppends) (hc : c.Shaped)
    (hcommit : c.raftApply.commitIndex ≤ c.raftLog.lastLogIndex) :
    c.Grows (e.step { core := c }).core :=
  (CoreEvent.step_induction (P := fun s => s.core.Shaped ∧ c.Grows s.core)
    (fun _ _ hm h => ⟨hm.shaped h.1, hm.grows he h.1 h.2⟩) ⟨hc, .refl hcommit⟩).2

/-! ## Merging above an index -/

namespace RaftLog

variable {l : RaftLog} {n : Nat} {st st' : MergeState} {es : List LogEntry} {r : LogAppendResult}

/-- One iteration cuts only at an entry that is not held. -/
theorem MergeStep.take (hl : l.Consecutive) (hn : n ≤ l.lastLogIndex) {e : LogEntry}
    (he : l.holds e = true ∨ n < e.index)
    (hst : st.updatedEntries.take (n - l.snapshotIndex) = l.logEntries.take (n - l.snapshotIndex))
    (h : MergeStep l e st st') :
    st'.updatedEntries.take (n - l.snapshotIndex) = l.logEntries.take (n - l.snapshotIndex) := by
  have hlen : n - l.snapshotIndex ≤ st.updatedEntries.length := by
    have := congrArg List.length hst
    rw [lastLogIndex_eq hl] at hn
    simp only [List.length_take] at this
    omega
  cases h with
  | skip => exact hst
  | push next => exact (List.take_append_of_le_length hlen).trans hst
  | cut low high differs =>
    have hidx : n < e.index := by
      by_contra hle
      have hholds := he.resolve_right hle
      -- below `n` the entries built so far and the log have the same terms
      have hget : st.updatedEntries[e.index - l.snapshotIndex - 1]? =
          l.logEntries[e.index - l.snapshotIndex - 1]? := by
        have := congrArg (fun es : List LogEntry => es[e.index - l.snapshotIndex - 1]?) hst
        simpa only [List.getElem?_take_of_lt (show e.index - l.snapshotIndex - 1 < n - l.snapshotIndex by
          omega)] using this
      have hterm : ({ l with logEntries := st.updatedEntries } : RaftLog).termAt e.index =
          l.termAt e.index := by
        simp only [termAt, entryAt, hget]
      simp only [holds, Bool.or_eq_true, Bool.and_eq_true, decide_eq_true_eq] at hholds
      exact differs (hterm.trans (hholds.resolve_left (Nat.not_le.mpr low)).2)
    refine (List.take_append_of_le_length (by rw [List.length_take]; omega)).trans ?_
    rw [List.take_take, min_eq_left (by omega)]
    exact hst

variable {l' : RaftLog}

/-- **Merging above an index.** Entries that are held or lie above `n` leave the log up to `n` alone. -/
theorem appendEntriesFromLeader_take (hl : l.Consecutive) (hn : n ≤ l.lastLogIndex)
    (hes : ∀ e ∈ es, l.holds e = true ∨ n < e.index) (h : l.appendEntriesFromLeader es = .ok (l', r)) :
    l'.logEntries.take (n - l.snapshotIndex) = l.logEntries.take (n - l.snapshotIndex) := by
  obtain ⟨st, hmerge, hentries, -⟩ := appendEntriesFromLeader_merges hl h
  rw [hentries]
  exact mergeEntries_induction
    (P := fun st => st.updatedEntries.take (n - l.snapshotIndex) = l.logEntries.take (n - l.snapshotIndex))
    hmerge hl rfl fun he hP hone => hone.take hl hn (hes _ he) hP

/-- A merge of entries that all lie below `n` leaves the log alone or ends it below `n`. -/
theorem appendEntriesFromLeader_below (hl : l.Consecutive) (hes : ∀ e ∈ es, e.index < n)
    (h : l.appendEntriesFromLeader es = .ok (l', r)) :
    l'.logEntries = l.logEntries ∨ l'.lastLogIndex < n := by
  obtain ⟨hsnap, -, hcons, -⟩ := appendEntriesFromLeader_keeps hl h
  obtain ⟨st, hmerge, hentries, -⟩ := appendEntriesFromLeader_merges hl h
  rw [lastLogIndex_eq hcons, hsnap, hentries]
  refine mergeEntries_induction
    (P := fun st => st.updatedEntries = l.logEntries ∨ l.snapshotIndex + st.updatedEntries.length < n)
    hmerge hl (.inl rfl) fun {e st st'} he hP hone => ?_
  -- whatever is pushed, the entries end with it
  have hlow := hes e he
  cases hone with
  | skip => exact hP
  | cut low high differs =>
    right
    rw [List.length_append, List.length_take, List.length_singleton]
    omega
  | push next =>
    right
    rw [List.length_append, List.length_singleton]
    omega

end RaftLog

/-! ## Request records -/

namespace KvStateMachine

/-- An entry the state machine accepts: only a write may carry a request id. -/
def accepts (e : LogEntry) : Bool := e.requestId == [] || e.opType.isKvWriteOp

variable {sm : KvStateMachine} {es : List LogEntry}

/-- The check in front of `apply` is the negation. -/
theorem refused_eq (e : LogEntry) :
    (decide (e.requestId ≠ []) && !e.opType.isKvWriteOp) = !accepts e := by
  by_cases hid : e.requestId = [] <;> simp [accepts, hid]

/-- An entry that `apply` does not report an error for is an accepted one. -/
theorem apply_fail_eq_false {e : LogEntry} (h : (sm.apply e).1.fail = false) :
    accepts e = true := by
  unfold apply at h
  rw [refused_eq] at h
  split at h
  · cases h
  · next hno => simpa using hno

/-- What one entry does to the record of a request: a record that exists stays, and the first entry of a
request leaves one with its own payload. -/
theorem apply_findRequest {sm : KvStateMachine} {e : LogEntry} (haccepts : accepts e = true) {r : Bytes}
    (hr : r ≠ []) :
    (∀ record, sm.findRequest r = some record → (sm.apply e).2.findRequest r = some record) ∧
    (sm.findRequest r = none → e.requestId ≠ r → (sm.apply e).2.findRequest r = none) ∧
    (sm.findRequest r = none → e.requestId = r → ∃ record,
      (sm.apply e).2.findRequest r = some record ∧
      record.payloadHash = requestPayloadHash e.opType e.key e.value e.expected) := by
  unfold apply
  rw [refused_eq, haccepts, if_neg (by simp)]
  split
  · next hfound =>
    refine ⟨fun record h => h, fun h _ => h, fun hnone hid => ?_⟩
    subst hid
    rw [hnone] at hfound
    cases hfound
  · next hnew =>
    have hnew' : sm.findRequest e.requestId = none := by simpa using hnew
    by_cases hwrite : (decide (e.requestId ≠ []) && e.opType.isKvWriteOp) = true
    · -- a new record behind the old ones
      have hrecord : ∀ st, sm.record e st = sm.requestRecords ++
          [{ requestId := e.requestId, op := e.opType, applyStatus := st
             payloadHash := requestPayloadHash e.opType e.key e.value e.expected }] := by
        intro st
        simp only [record, hnew', Option.isSome_none, Bool.false_eq_true, if_false]
      simp only [hwrite, if_true, hrecord]
      simp only [findRequest, if_neg hr, List.find?_append, List.find?_cons, List.find?_nil]
      refine ⟨fun record h => by rw [h]; rfl, fun h hne => ?_, fun h heq => ?_⟩
      · have : (e.requestId == r) = false := by simpa using hne
        simp [h, this]
      · subst heq
        simp [h]
    · simp only [hwrite, Bool.false_eq_true, if_false]
      refine ⟨fun record h => h, fun h _ => h, fun _ heq => ?_⟩
      -- an entry without a request id is not one of `r`
      simp only [accepts, Bool.or_eq_true, beq_iff_eq] at haccepts
      subst heq
      rcases haccepts with hnil | hop
      · exact absurd hnil hr
      · exact absurd (by simp [hr, hop]) hwrite

/-- Apply a list of entries in order. -/
def applyAll (sm : KvStateMachine) (es : List LogEntry) : KvStateMachine :=
  es.foldl (fun sm e => (sm.apply e).2) sm

/-- A record stays whatever is applied. -/
theorem applyAll_findRequest_some (haccepts : ∀ e ∈ es, accepts e = true) {r : Bytes} (hr : r ≠ [])
    {record : RequestRecord} (h : sm.findRequest r = some record) :
    (sm.applyAll es).findRequest r = some record := by
  induction es generalizing sm with
  | nil => exact h
  | cons e es ih =>
    refine ih (fun x hx => haccepts x (List.mem_cons_of_mem _ hx)) ?_
    exact (apply_findRequest (haccepts e List.mem_cons_self) hr).1 record h

/-- **Applying in order.** The first write of a request leaves the record of its own payload; without one
there is still no record. -/
theorem applyAll_findRequest (haccepts : ∀ e ∈ es, accepts e = true) {r : Bytes} (hr : r ≠ [])
    (h : sm.findRequest r = none) :
    (es.find? (RaftLog.isRequest r) = none → (sm.applyAll es).findRequest r = none) ∧
    (∀ x, es.find? (RaftLog.isRequest r) = some x → ∃ record,
      (sm.applyAll es).findRequest r = some record ∧
      record.payloadHash = requestPayloadHash x.opType x.key x.value x.expected) := by
  induction es generalizing sm with
  | nil => exact ⟨fun _ => h, fun x hx => by cases hx⟩
  | cons e es ih =>
    have he := haccepts e List.mem_cons_self
    have hes : ∀ x ∈ es, accepts x = true := fun x hx => haccepts x (List.mem_cons_of_mem _ hx)
    have hone := @apply_findRequest sm e he r hr
    obtain ⟨-, hother, hown⟩ := hone
    have hrequest : RaftLog.isRequest r e = true ↔ e.requestId = r := by
      simp only [RaftLog.isRequest, Bool.and_eq_true, beq_iff_eq, and_iff_left_iff_imp]
      intro hid
      simp only [accepts, Bool.or_eq_true, beq_iff_eq] at he
      exact he.resolve_left (hid ▸ hr)
    by_cases hid : e.requestId = r
    · obtain ⟨record, hfound, hhash⟩ := hown h hid
      refine ⟨fun hnone => ?_, fun x hx => ?_⟩
      · rw [List.find?_cons_of_pos (hrequest.mpr hid)] at hnone
        cases hnone
      · rw [List.find?_cons_of_pos (hrequest.mpr hid)] at hx
        cases hx
        exact ⟨record, applyAll_findRequest_some hes hr hfound, hhash⟩
    · have hneg : ¬ RaftLog.isRequest r e = true := fun h => hid (hrequest.mp h)
      rw [List.find?_cons_of_neg hneg]
      exact ih hes (hother h hid)

end KvStateMachine

/-! ## What the apply loop hands over -/

/-- The state machine is the old one after the entries passed, in order. -/
theorem ApplyMove.trace_star {s s' : ApplyState} (h : Relation.ReflTransGen ApplyMove s s') :
    ∃ es, s'.passed = s.passed ++ es ∧ s'.stateMachine = s.stateMachine.applyAll es := by
  induction h with
  | refl => exact ⟨[], (List.append_nil _).symm, rfl⟩
  | tail _ hm ih =>
    obtain ⟨es, hpassed, hsm⟩ := ih
    cases hm with
    | pass e committed =>
      refine ⟨es ++ [e], ?_, ?_⟩
      · simp only [ApplyState.pass, hpassed, List.append_assoc]
      · simp only [ApplyState.pass, hsm, KvStateMachine.applyAll, List.foldl_append, List.foldl_cons,
          List.foldl_nil]
    | advance e committed plain => exact ⟨es, hpassed, hsm⟩
    | config e committed change ok => exact ⟨es, hpassed, hsm⟩

namespace ApplyState

/-- The state machine accepts every entry passed so far. -/
abbrev AllAccepted (s : ApplyState) : Prop := ∀ e ∈ s.passed, KvStateMachine.accepts e = true

variable {s s' : ApplyState} {e : LogEntry}

theorem AllAccepted.pass (hs : s.AllAccepted) (hok : (s.pass e).1.fail = false) : (s.pass e).2.AllAccepted := by
  intro x hx
  rcases List.mem_append.mp hx with hx | hx
  · exact hs x hx
  · cases List.mem_singleton.mp hx
    exact KvStateMachine.apply_fail_eq_false hok

/-- A config entry goes to the core first, any other entry to the state machine. -/
theorem AllAccepted.applyOneEntry (hs : s.AllAccepted) (hok : (s.applyOneEntry e).1.fail = false) :
    (s.applyOneEntry e).2.AllAccepted := by
  simp only [ApplyState.applyOneEntry] at hok ⊢
  split at hok
  · next hcfg =>
    rw [if_pos hcfg]
    split at hok
    · next hf =>
      rw [hf] at hok
      cases hok
    · next hf =>
      rw [if_neg hf]
      exact pass hs hok
  · next hcfg =>
    rw [if_neg hcfg]
    split at hok
    · next hf =>
      rw [hf] at hok
      cases hok
    · next hf =>
      rw [if_neg hf]
      exact pass hs (by simpa using hf)

theorem AllAccepted.applyBatch {es : List LogEntry} (hs : s.AllAccepted)
    (hok : (s.applyBatch es).1.fail = false) : (s.applyBatch es).2.AllAccepted := by
  induction es generalizing s with
  | nil => exact hs
  | cons e es ih =>
    simp only [ApplyState.applyBatch] at hok ⊢
    split at hok
    · next hf =>
      rw [hf] at hok
      cases hok
    · next hf =>
      rw [if_neg hf]
      exact ih (hs.applyOneEntry (by simpa using hf)) hok

/-- **When the loop reports OK** the state machine has accepted every entry passed. -/
theorem applyRounds_accepts {fuel : Nat} {st : Status} (h : applyRounds fuel s = some (st, s'))
    (hok : st.fail = false) (hs : s.AllAccepted) : s'.AllAccepted := by
  induction fuel generalizing s with
  | zero => cases h
  | succ fuel ih =>
    rw [applyRounds_succ] at h
    split at h
    · cases h
      exact hs
    split at h
    · -- a batch that fails ends the loop with its status
      next hf =>
      have hst := congrArg Prod.fst (Option.some.inj h)
      rw [hst, hok] at hf
      cases hf
    next hf =>
    have hround := hs.applyBatch (by simpa using hf)
    split at h
    · cases h
      exact hround
    · exact ih h hround

end ApplyState

end AdvisKV
