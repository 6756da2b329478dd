import AdvisKV.Replica.Acknowledge

/-!
# AdvisKV — acknowledgements and the handlers

What the apply loop and the handlers that go to a tracker do to the tracked requests. An apply loop that
reports OK leaves a record for every committed request; a batch of proposals leaves every request it does not
answer in the log, at the index the tracker remembers.

Main results:

* `CaughtUp.ackState`, `CaughtUp.resolved` — what an apply loop that reports OK leaves behind.
* `ReplicaLoop.submitBatch_cases` — what a batch of proposals does.
* `AckInv.handle` — the handler of any event that meets `EventSafe`.
-/

namespace AdvisKV

open Completions ProposalTracker

/-! ## Applying -/

namespace KvStateMachine

/-- An accepted entry leaves its index and its term behind. -/
theorem apply_position {sm : KvStateMachine} {e : LogEntry} (haccepts : accepts e = true) :
    (sm.apply e).2.applyIndex = e.index ∧ (sm.apply e).2.applyTerm = e.term := by
  unfold apply
  rw [refused_eq, haccepts, if_neg (by simp)]
  split <;> exact ⟨rfl, rfl⟩

theorem applyAll_position {sm : KvStateMachine} {es : List LogEntry} {e : LogEntry}
    (haccepts : accepts e = true) :
    (sm.applyAll (es ++ [e])).applyIndex = e.index ∧ (sm.applyAll (es ++ [e])).applyTerm = e.term := by
  rw [applyAll, List.foldl_append]
  exact apply_position haccepts

end KvStateMachine

/-- The apply loop has reported OK and has passed every outstanding entry. -/
structure CaughtUp (c : RaftCore) (sm : KvStateMachine) (c' : RaftCore) (sm' : KvStateMachine) :
    Prop where
  frame : ApplyFrame c c'
  applied : c'.raftApply.lastApplied = c.raftApply.commitIndex
  machine : sm' = sm.applyAll (outstanding c)
  accepts : ∀ e ∈ outstanding c, KvStateMachine.accepts e = true

section CaughtUp

variable {c c' : RaftCore} {sm sm' : KvStateMachine}

/-- An OK of the loop means that it has passed all of them, if no config entry jumps the queue. -/
theorem caughtUp_of_ok (hc : Applicable c)
    (horder : NoConfigBehindOverflow replicaInlineApplyBatchSize (outstanding c)) {st : Status}
    {a : ApplyState}
    (h : ApplyState.applyCommittedEntriesInline { core := c, stateMachine := sm } = some (st, a))
    (hok : st.fail = false) : CaughtUp c sm a.core a.stateMachine := by
  have hmoves := ApplyState.applyCommittedEntriesInline_moves h
  obtain ⟨hpassed, happlied⟩ := (applyRounds_in_order hc h hok).mpr horder
  obtain ⟨es, hes, hsm⟩ := ApplyMove.trace_star hmoves
  have hall : es = outstanding c := by
    rw [hpassed] at hes
    exact (List.append_cancel_left hes).symm
  subst hall
  refine ⟨ApplyMove.frame_star hmoves, happlied, hsm, fun e he => ?_⟩
  refine ApplyState.applyRounds_accepts h hok (List.forall_mem_nil _) e ?_
  rw [hpassed]
  exact he

variable {x : LogEntry} {p : LogEntry → Bool} {kv : Bytes × TrackedProposal}

/-- The outstanding entries are those between `last_applied` and the commit index. -/
theorem mem_outstanding (hc : Applicable c) (hx : x ∈ c.raftLog.logEntries)
    (hlow : c.raftApply.lastApplied < x.index) (hhigh : x.index ≤ c.raftApply.commitIndex) :
    x ∈ outstanding c := by
  obtain ⟨k, hk, rfl⟩ := List.getElem_of_mem hx
  have hidx := hc.consecutive k _ (List.getElem?_eq_getElem hk)
  have h1 := hc.snapshot_le
  refine List.mem_of_getElem? (i := k - (c.raftApply.lastApplied - c.raftLog.snapshotIndex)) ?_
  rw [outstanding, List.getElem?_take_of_lt (by omega), List.getElem?_drop,
    show c.raftApply.lastApplied - c.raftLog.snapshotIndex +
      (k - (c.raftApply.lastApplied - c.raftLog.snapshotIndex)) = k by omega]
  exact List.getElem?_eq_getElem hk

/-- The first entry of a request that is about to be applied is the first among the outstanding ones. -/
theorem find?_outstanding (hc : Applicable c) (hx : c.raftLog.logEntries.find? p = some x)
    (hlow : c.raftApply.lastApplied < x.index) (hhigh : x.index ≤ c.raftApply.commitIndex) :
    (outstanding c).find? p = some x := by
  have hmem := List.mem_of_find?_eq_some hx
  have hdrop := find?_drop (k := c.raftApply.lastApplied - c.raftLog.snapshotIndex) hx fun htake =>
    absurd ((RaftLog.mem_take_iff hc.consecutive hmem _).mp htake) (Nat.not_le.mpr hlow)
  exact find?_of_take_eq (List.take_take.trans (by rw [min_self])) hdrop
    (mem_outstanding hc hmem hlow hhigh)

/-- A request above the commit index is not applied this time. -/
theorem find?_outstanding_none (hc : Applicable c) (hx : c.raftLog.logEntries.find? p = some x)
    (hlow : c.raftApply.commitIndex < x.index) :
    (outstanding c).find? p = none := by
  refine List.find?_eq_none.mpr fun y hy hpy => ?_
  have hmem : y ∈ c.raftLog.logEntries := List.mem_of_mem_drop (List.mem_of_mem_take hy)
  have hfirst := hc.consecutive.find?_first hx hmem hpy
  have hindex := (outstanding_index hc hy).2
  omega

/-- A record stays. -/
theorem CaughtUp.findRequest (h : CaughtUp c sm c' sm') {r : Bytes} (hr : r ≠ [])
    {record : RequestRecord} (hrecord : sm.findRequest r = some record) :
    sm'.findRequest r = some record := by
  rw [h.machine]
  exact KvStateMachine.applyAll_findRequest_some h.accepts hr hrecord

/-- The loop may run again. -/
theorem CaughtUp.applicable (h : CaughtUp c sm c' sm') (hc : Applicable c) : Applicable c' where
  consecutive := by
    rw [h.frame.raftLog]
    exact hc.consecutive
  snapshot_le := by
    rw [h.frame.raftLog]
    exact hc.snapshot_le.trans h.frame.applied
  applied_le := by rw [h.applied, h.frame.commit]
  commit_le := by
    rw [h.frame.commit, h.frame.raftLog]
    exact hc.commit_le

/-- The last entry applied is the one at the commit index. -/
theorem CaughtUp.position (h : CaughtUp c sm c' sm') (hs : AckState c sm) :
    sm'.applyIndex = c'.raftApply.lastApplied ∧
      (c.raftLog.snapshotIndex < sm'.applyIndex →
        c.raftLog.termAt sm'.applyIndex = sm'.applyTerm) := by
  have hc := hs.applicable
  have hlen := outstanding_length hc
  -- nothing was outstanding, or the last outstanding entry decides
  rcases List.eq_nil_or_concat (outstanding c) with hnil | ⟨es, e, hsplit⟩
  · have hsm : sm' = sm := by
      rw [h.machine, hnil]
      rfl
    rw [hnil] at hlen
    have h1 := hc.applied_le
    have happlied := h.applied
    simp only [List.length_nil] at hlen
    rw [hsm, hs.machine]
    exact ⟨by omega, fun hlow => hs.machine ▸ hs.machineTerm (hs.machine ▸ hlow)⟩
  · rw [List.concat_eq_append] at hsplit
    have he : e ∈ outstanding c := by
      rw [hsplit]
      exact List.mem_append_right _ (List.mem_singleton.mpr rfl)
    have hposition : (sm.applyAll (es ++ [e])).applyIndex = e.index ∧
        (sm.applyAll (es ++ [e])).applyTerm = e.term :=
      KvStateMachine.applyAll_position (h.accepts e he)
    rw [← hsplit, ← h.machine] at hposition
    obtain ⟨hindex, hterm⟩ := hposition
    have hlast := outstanding_consecutive hc (outstanding c).length.pred e (by
      rw [hsplit]
      simp)
    rw [hsplit] at hlast hlen
    simp only [List.length_append, List.length_singleton, Nat.pred_eq_sub_one] at hlast hlen
    have happlied := h.applied
    have hentry := (RaftLog.entryAt_of_mem hc.consecutive
      (List.mem_of_mem_drop (List.mem_of_mem_take he)))
    refine ⟨by omega, fun _ => ?_⟩
    rw [hindex, hterm]
    exact RaftLog.termAt_of_entryAt hentry.1

/-- Log and state machine belong together again. -/
theorem CaughtUp.ackState (h : CaughtUp c sm c' sm') (hs : AckState c sm) : AckState c' sm' where
  applicable := h.applicable hs.applicable
  indexed := by
    rw [h.frame.raftLog]
    exact hs.indexed
  records := by
    intro x hx hle hop hid
    rw [h.frame.raftLog] at hx
    rw [h.applied] at hle
    by_cases hold : x.index ≤ c.raftApply.lastApplied
    · obtain ⟨record, hrecord⟩ := Option.ne_none_iff_exists'.mp (hs.records x hx hold hop hid)
      rw [h.findRequest hid hrecord]
      exact Option.some_ne_none _
    · have hmem := mem_outstanding hs.applicable hx (Nat.lt_of_not_le hold) hle
      rcases hfound : sm.findRequest x.requestId with _ | record
      · -- the first of the outstanding entries with this id has left the record
        have happly := KvStateMachine.applyAll_findRequest h.accepts hid hfound
        have hrequest : RaftLog.isRequest x.requestId x = true := by simp [RaftLog.isRequest, hop]
        rcases hfind : (outstanding c).find? (RaftLog.isRequest x.requestId) with _ | y
        · exact absurd hrequest (List.find?_eq_none.mp hfind x hmem)
        · obtain ⟨record, hrecord, -⟩ := happly.2 y hfind
          rw [h.machine, hrecord]
          exact Option.some_ne_none _
      · rw [h.findRequest hid hfound]
        exact Option.some_ne_none _
  machine := (h.position hs).1
  machineTerm := by
    rw [h.frame.raftLog]
    exact (h.position hs).2

theorem CaughtUp.covered (h : CaughtUp c sm c' sm') {d : SnapshotData} (hd : Covered c d) :
    Covered c' d := by
  refine ⟨hd.1.trans h.frame.applied, ?_⟩
  rw [h.frame.raftLog]
  exact hd.2

/-- A request the log holds above the commit index is still waiting. -/
theorem CaughtUp.anchored (h : CaughtUp c sm c' sm') (hc : Applicable c) (hr : kv.1 ≠ [])
    (hkv : Anchored c sm kv) (hindex : c.raftApply.commitIndex < kv.2.index) : Anchored c' sm' kv := by
  obtain ⟨x, hx, hxi, hxh⟩ := hkv.logged
  refine ⟨hkv.uncommitted, ?_, ⟨x, by rw [h.frame.raftLog]; exact hx, hxi, hxh⟩, h.applied ▸ hindex⟩
  rw [h.machine]
  exact (KvStateMachine.applyAll_findRequest h.accepts hr hkv.unrecorded).1
    (find?_outstanding_none hc hx (hxi ▸ hindex))

/-- Every tracked request is not committed yet, or has its record now. -/
theorem CaughtUp.resolved (h : CaughtUp c sm c' sm') (hc : Applicable c) (hr : kv.1 ≠ [])
    (hkv : Hangs c sm kv) : Resolved c' sm' kv := by
  refine ⟨hkv.uncommitted, ?_⟩
  rw [h.frame.commit]
  rcases hkv.rest with hanchored | ⟨-, hlow | ⟨-, record, hrecord, hhash⟩⟩
  · rcases Nat.lt_or_ge c.raftApply.commitIndex kv.2.index with hlow | hle
    · exact Or.inl hlow
    · obtain ⟨x, hx, hxi, hxh⟩ := hanchored.logged
      have hfind := find?_outstanding hc hx (hxi ▸ hanchored.unapplied) (hxi ▸ hle)
      obtain ⟨record, hrecord, hhash⟩ :=
        (KvStateMachine.applyAll_findRequest h.accepts hr hanchored.unrecorded).2 x hfind
      rw [← h.machine] at hrecord
      exact Or.inr ⟨record, hrecord, hhash.trans hxh⟩
  · exact Or.inl hlow
  · exact Or.inr ⟨record, h.findRequest hr hrecord, hhash⟩

end CaughtUp

/-! ## Handlers of the trackers -/

section Serving

variable {submitted : Submitted} {next : Nat}

/-- New calls get new completions, so a tracked request goes on serving the old ones. -/
theorem ProposalTracker.Serves.extend {kv : Bytes × TrackedProposal} (h : Serves submitted next kv)
    {new : Submitted} (hnew : ∀ x ∈ new, next ≤ x.1) {next' : Nat} (hnext : next ≤ next') :
    Serves (submitted ++ new) next' kv where
  id_ne := h.id_ne
  bounded := fun id hid => (h.bounded id hid).trans_le hnext
  waiting := by
    intro id hid p hp
    rcases List.mem_append.mp hp with hp | hp
    · exact h.waiting id hid p hp
    · exact absurd (hnew _ hp) (Nat.not_le.mpr (h.bounded id hid))

end Serving

/-- What the handler of an event leaves behind: the trackers are in order, and whatever has been answered
the records justify. -/
structure HandledAcks (l l' : ReplicaLoop) : Prop where
  mid : AckMid l'
  answered : Answered (Justified l'.submitted l'.state.stateMachine) l.completions l'.completions

section Handle

variable {codec : SnapshotCodec} {l : ReplicaLoop}

/-- A handler that goes to no tracker. -/
theorem AckInv.handle_plain (h : AckInv l) {ev : LoopEvent} (hev : ¬ ReplicaLoop.ForTrackers ev)
    (hsafe : EventSafe codec l ev) : HandledAcks l (l.handle codec ev).loop := by
  have hsame := ReplicaLoop.handle_sameTrackers codec l hev
  obtain ⟨hwriting, hwritten⟩ := ReplicaLoop.handle_worker codec l ev
  have hstate := h.change hev (fun d hd => h.mid.queue d (Or.inr hd)) hsafe
    (ReplicaLoop.handle_change codec l ev)
  refine ⟨⟨hstate.state, fun d hd => hstate.covered d (h.mid.queue d ?_), fun kv hkv => ?_, ?_, ?_⟩, ?_⟩
  · rw [hwriting, hwritten] at hd
    exact hd.imp id fun hd => ReplicaLoop.queueAfter_subset ev _ hd
  · rw [hsame.proposals] at hkv
    rw [hsame.submitted, hsame.nextCompletion]
    exact ⟨(h.mid.tracked kv hkv).1, hstate.tracked kv hkv⟩
  · rw [hsame.submitted, hsame.nextCompletion]
    exact h.mid.ids
  · rw [hsame.reads, hsame.submitted, hsame.nextCompletion]
    exact h.mid.reads
  · rw [hsame.completions]
    exact .refl _

/-- A read is put on the list, or it is not; nothing else is touched. -/
theorem ReadTracker.establish_pending (t : ReadTracker) (core : RaftCore) (cs : Completions) (key : Key)
    (completion : Nat) {kv : Nat × PendingRead}
    (h : kv ∈ (t.establish core cs key completion).2.1.pendingReads) :
    kv ∈ t.pendingReads ∨ kv.2.completion = completion := by
  simp only [establish] at h
  split at h
  · exact Or.inl h
  split at h
  · exact Or.inl h
  · rcases List.mem_append.mp h with h | h
    · exact Or.inl h
    · cases List.mem_singleton.mp h
      exact Or.inr rfl

/-- A read takes the next completion id, which no write has. -/
theorem AckInv.handle_submitRead (h : AckInv l) (key : Key) :
    HandledAcks l (l.handle codec (.submitRead key)).loop := by
  refine ⟨⟨h.mid.state, h.mid.queue, fun kv hkv => ?_, fun x hx => ?_, fun kv hkv => ?_⟩, .refl _⟩
  · obtain ⟨hserves, hhangs⟩ := h.mid.tracked kv hkv
    have hext : Serves (l.submitted ++ []) (l.nextCompletion + 1) kv :=
      hserves.extend (List.forall_mem_nil _) (Nat.le_succ _)
    rw [List.append_nil] at hext
    exact ⟨hext, hhangs⟩
  · exact (h.mid.ids x hx).trans (Nat.lt_succ_self _)
  · rcases l.reads.establish_pending _ _ _ _ hkv with hold | hnew
    · obtain ⟨hlt, hno⟩ := h.mid.reads kv hold
      exact ⟨hlt.trans (Nat.lt_succ_self _), hno⟩
    · rw [hnew]
      exact ⟨Nat.lt_succ_self _, fun p hp => lt_irrefl _ (h.mid.ids _ hp)⟩

/-- A confirmation is counted. -/
theorem AckInv.handle_readQuorumResponse (h : AckInv l) (sender : ReplicaID)
    (readSeq responseTerm : Nat) :
    HandledAcks l (l.handle codec (.readQuorumResponse sender readSeq responseTerm)).loop := by
  refine ⟨⟨h.mid.state, h.mid.queue, h.mid.tracked, h.mid.ids, fun kv hkv => ?_⟩, .refl _⟩
  obtain ⟨kv₀, hkv₀, rfl⟩ := List.mem_map.mp hkv
  have hsame : (if kv₀.1 = readSeq then
      (kv₀.1, ReadTracker.confirm l.completions sender responseTerm kv₀.2) else kv₀).2.completion =
      kv₀.2.completion := by
    split
    · simp only [ReadTracker.confirm]
      repeat' split
      all_goals rfl
    · rfl
  rw [hsame]
  exact h.mid.reads kv₀ hkv₀

end Handle

/-! ## A batch of proposals -/

/-- The calls of a batch, each with a completion of its own. -/
def batchCalls (first : Nat) (params : List ProposeParam) : List ProposeCall :=
  params.zipIdx.map fun p => ⟨p.1, first + p.2⟩

/-- The calls of a batch are numbered through. -/
theorem mem_batchCalls {first : Nat} {params : List ProposeParam} {call : ProposeCall}
    (h : call ∈ batchCalls first params) :
    first ≤ call.completion ∧ call.completion < first + params.length ∧
      params[call.completion - first]? = some call.param := by
  obtain ⟨⟨p, i⟩, hp, rfl⟩ := List.mem_map.mp h
  have hget := List.mem_zipIdx_iff_getElem?.mp hp
  obtain ⟨hi, -⟩ := List.getElem?_eq_some_iff.mp hget
  dsimp only at hget hi ⊢
  exact ⟨Nat.le_add_right _ _, by omega, by rwa [Nat.add_sub_cancel_left]⟩

namespace ReplicaLoop

/-- The submitted writes once a batch has been taken in. -/
def submittedWith (l : ReplicaLoop) (params : List ProposeParam) : Submitted :=
  l.submitted ++ (batchCalls l.nextCompletion params).map fun c => (c.completion, c.param)

/-- The locals of `submit_batch` at the end of its loop. -/
def submission (l : ReplicaLoop) (params : List ProposeParam) : Submission :=
  (batchCalls l.nextCompletion params).foldl (submitOne l.state.core l.state.stateMachine)
    { entries := l.proposals.entries, completions := l.completions }

/-- The loop once a batch has been taken in, with the replica and the tracker it leaves. -/
def withBatch (l : ReplicaLoop) (params : List ProposeParam) (s : ReplicaState) (t : Tracking) :
    ReplicaLoop :=
  { l with
    state := s
    nextCompletion := l.nextCompletion + params.length
    submitted := l.submittedWith params
    proposals := ⟨t.entries⟩
    completions := t.completions }

end ReplicaLoop

/-- What the executor reports of a batch is harmless. -/
theorem ReplicaState.executeEvent_proposeBatch_harmless (s : ReplicaState) (params : List ProposeParam)
    (h : (s.executeEvent (.proposeBatch params)).1.fail = true) :
    (s.executeEvent (.proposeBatch params)).1.Harmless := by
  simp only [executeEvent, execute, CoreEvent.status, PersistEngine.persistEffects] at h ⊢
  by_cases hboth : (((CoreEvent.proposeBatch params).step { core := s.core }).effects.entriesToRewrite.isSome
      && ((CoreEvent.proposeBatch params).step { core := s.core }).effects.entriesToAppend ≠ []) = true
  · rw [if_pos hboth]
    refine ⟨?_, ?_, ?_⟩ <;> simp [Status.fail]
  · rw [if_neg hboth] at h
    simp at h

section Batch

variable {codec : SnapshotCodec} {l : ReplicaLoop} {params : List ProposeParam}

/-- **Batches.** Nothing is new, or the new writes are proposed and each one settled with a result: its own,
or one failure for all. -/
theorem ReplicaLoop.submitBatch_cases (l : ReplicaLoop) (params : List ProposeParam) :
    ((l.submission params).params = [] ∧ (l.submitBatch params).loop = l.withBatch params l.state
      ⟨(l.submission params).entries, (l.submission params).completions⟩) ∨
    ∃ results, (results = (CoreState.proposeBatch { core := l.state.core } (l.submission params).params).1 ∨
        ∃ status : Status, status.Harmless ∧
          results = (l.submission params).candidateIds.map fun _ => .error status) ∧
      (l.submitBatch params).loop = l.withBatch params
        (l.state.executeEvent (.proposeBatch (l.submission params).params)).2.1
        (settleAll ⟨(l.submission params).entries, (l.submission params).completions⟩
          ((l.submission params).candidateIds.zip results)) := by
  have hzip : ∀ (ids : List Bytes) (status : Status),
      (ids.map fun id => (id, (.error status : Except Status Nat))) =
        ids.zip (ids.map fun _ => .error status) := by
    intro ids status
    induction ids with
    | nil => rfl
    | cons id ids ih => rw [List.map_cons, List.map_cons, List.zip_cons_cons, ih]
  simp only [submitBatch]
  split
  · next hnil => exact Or.inl ⟨hnil, rfl⟩
  refine Or.inr ?_
  dsimp only
  split
  · -- the batch could not be stored, or the core gave back too few results
    next status hfail =>
    have hharmless : status.Harmless := by
      split at hfail
      · next hrefused =>
        rw [← Option.some.inj hfail]
        exact l.state.executeEvent_proposeBatch_harmless _ hrefused
      · split at hfail
        · rw [← Option.some.inj hfail]
          refine ⟨?_, ?_, ?_⟩ <;> simp
        · cases hfail
    refine ⟨_, Or.inr ⟨status, hharmless, rfl⟩, ?_⟩
    rw [← hzip]
    rfl
  · exact ⟨_, Or.inl rfl, rfl⟩

/-- All ids handed out so far lie below the next one. -/
theorem AckInv.submitted_lt (h : AckInv l) : ∀ x ∈ l.submittedWith params,
    x.1 < l.nextCompletion + params.length := by
  intro x hx
  rcases List.mem_append.mp hx with hx | hx
  · exact (h.mid.ids x hx).trans_le (Nat.le_add_right _ _)
  · obtain ⟨call, hcall, rfl⟩ := List.mem_map.mp hx
    exact (mem_batchCalls hcall).2.1

/-- A batch hands out only new completions. -/
theorem submittedWith_new {x : Nat × ProposeParam}
    (hx : x ∈ (batchCalls l.nextCompletion params).map fun c => (c.completion, c.param)) :
    l.nextCompletion ≤ x.1 := by
  obtain ⟨call, hcall, rfl⟩ := List.mem_map.mp hx
  exact (mem_batchCalls hcall).1

/-- The completion of a call was made for that call alone. -/
theorem AckInv.submitted_own (h : AckInv l) {call : ProposeCall}
    (hcall : call ∈ batchCalls l.nextCompletion params) {p : ProposeParam}
    (hp : (call.completion, p) ∈ l.submittedWith params) : p = call.param := by
  obtain ⟨hlow, -, hget⟩ := mem_batchCalls hcall
  rcases List.mem_append.mp hp with hp | hp
  · exact absurd (h.mid.ids _ hp) (Nat.not_lt.mpr hlow)
  · obtain ⟨call', hcall', heq⟩ := List.mem_map.mp hp
    obtain ⟨hid, rfl⟩ := Prod.mk.inj heq
    have hget' := (mem_batchCalls hcall').2.2
    rw [hid, hget] at hget'
    exact (Option.some.inj hget').symm

/-- `submit_batch` up to the proposals it queues. -/
theorem AckInv.submission (h : AckInv l) (hsafe : Distinguishes l.proposals.entries params) :
    (∃ ws, SubmissionInv (l.submittedWith params) (l.nextCompletion + params.length) l.state.core
      l.state.stateMachine ws (l.submission params)) ∧
    Answered (Justified (l.submittedWith params) l.state.stateMachine) l.completions
      (l.submission params).completions := by
  have hready : Ready l.state.core l.state.stateMachine :=
    ⟨h.mid.state.applicable.consecutive, h.mid.state.indexed, h.mid.state.records⟩
  have hstart : SubmissionInv (l.submittedWith params) (l.nextCompletion + params.length) l.state.core
      l.state.stateMachine [] { entries := l.proposals.entries, completions := l.completions } := by
    refine ⟨rfl, rfl, List.nodup_nil, List.forall_mem_nil _, fun kv hkv => ?_⟩
    exact ⟨(h.mid.tracked kv hkv).1.extend (fun x hx => submittedWith_new hx) (Nat.le_add_right _ _),
      Or.inl (h.anchored kv hkv)⟩
  exact submit_spec hready hstart (fun call hcall => (mem_batchCalls hcall).2.1)
    (fun call hcall p hp => h.submitted_own hcall hp)
    ((ReplicaLoop.batch_params params l.nextCompletion).symm ▸ hsafe)

/-- The invariant of a loop whose tracker was brought in order by a batch. -/
theorem AckInv.withBatch (h : AckInv l) {s : ReplicaState} {t : Tracking} (hacks : StateAcks l s)
    (hsm : s.stateMachine = l.state.stateMachine)
    (ht : ∀ kv ∈ t.entries, Serves (l.submittedWith params) (l.nextCompletion + params.length) kv ∧
      Anchored s.core l.state.stateMachine kv)
    (hanswered : Answered (Justified (l.submittedWith params) l.state.stateMachine) l.completions
      t.completions) : HandledAcks l (l.withBatch params s t) := by
  rw [← hsm] at ht hanswered
  refine ⟨⟨hacks.state, fun d hd => hacks.covered d (h.mid.queue d hd), fun kv hkv => ?_,
    h.submitted_lt, fun kv hkv => ?_⟩, hanswered⟩
  · exact ⟨(ht kv hkv).1, (ht kv hkv).2.hangs⟩
  · obtain ⟨hlt, hno⟩ := h.mid.reads kv hkv
    refine ⟨hlt.trans_le (Nat.le_add_right _ _), fun p hp => ?_⟩
    rcases List.mem_append.mp hp with hp | hp
    · exact hno p hp
    · exact absurd (submittedWith_new hp) (Nat.not_le.mpr hlt)

/-- The result of a proposal, read off the log it was appended to. -/
theorem CoreState.Outcome.settled {c c' : RaftCore} {new : List LogEntry} (hc : Applicable c)
    (hlog : c'.raftLog.logEntries = c.raftLog.logEntries ++ new)
    (happlied : c'.raftApply.lastApplied = c.raftApply.lastApplied) {w : WriteProposal}
    (hfresh : c.raftLog.logEntries.find? (RaftLog.isRequest w.requestId) = none)
    {result : Except Status Nat} (h : CoreState.Outcome new c.raftLog.lastLogIndex w result) :
    Settled c' w result := by
  rcases result with st | i
  · exact h
  · obtain ⟨x, hx, hxi, hlast, hxh⟩ := h
    have h1 := hc.applied_le
    have h2 := hc.commit_le
    refine ⟨x, ?_, hxi, by omega, hxh⟩
    rw [hlog, List.find?_append, hfresh, hx]
    rfl

/-- **A batch of proposals.** -/
theorem AckInv.handle_propose (h : AckInv l) (hsafe : EventSafe codec l (.propose params)) :
    HandledAcks l (l.handle codec (.propose params)).loop := by
  obtain ⟨⟨ws, hws⟩, hanswered⟩ := h.submission hsafe
  show HandledAcks l (l.submitBatch params).loop
  rcases l.submitBatch_cases params with ⟨hnil, heq⟩ | ⟨results, hresults, heq⟩
  · -- nothing is new: every request is tracked already or has been answered
    have hnone : ws = [] := List.map_eq_nil_iff.mp (hws.params ▸ hnil)
    rw [heq]
    refine h.withBatch ⟨h.mid.state, fun _ hd => hd, fun kv hkv => (h.anchored kv hkv).hangs⟩ rfl
      (fun kv hkv => ?_) hanswered
    obtain ⟨hserves, hanchored | ⟨w, hw, -⟩⟩ := hws.tracked kv hkv
    · exact ⟨hserves, hanchored⟩
    · rw [hnone] at hw
      cases hw
  · have hc := h.mid.state.applicable
    obtain ⟨hacks, hg⟩ := h.grows (e := .proposeBatch (l.submission params).params)
      ⟨by simp, by simp [CoreEvent.KeepsSnapshot]⟩
    obtain ⟨new, hlog, hout⟩ := CoreState.proposeBatch_spec hc.consecutive hws.distinct
    rw [← hws.params] at hlog hout
    have hsettled : List.Forall₂
        (Settled (l.state.executeEvent (.proposeBatch (l.submission params).params)).2.1.core)
        ws results := by
      rw [ReplicaState.executeEvent_core] at hg ⊢
      rcases hresults with rfl | ⟨status, hharmless, rfl⟩
      · refine List.forall₂_iff_zip.mpr ⟨hout.length_eq, fun {w result} hmem => ?_⟩
        have hw := (List.of_mem_zip hmem).1
        have hone := (List.forall₂_iff_zip.mp hout).2 hmem
        exact hone.settled hc hlog hg.applied (hws.fresh w hw).2.2.1
      · rw [hws.candidateIds, List.map_map, List.forall₂_map_right_iff]
        exact List.forall₂_same.mpr fun _ _ => hharmless
    have htracked : ∀ kv ∈ (l.submission params).entries,
        Serves (l.submittedWith params) (l.nextCompletion + params.length) kv ∧
        (Anchored (l.state.executeEvent (.proposeBatch (l.submission params).params)).2.1.core
          l.state.stateMachine kv ∨ ∃ w ∈ ws, Candidate w kv) := fun kv hkv =>
      ⟨(hws.tracked kv hkv).1, (hws.tracked kv hkv).2.imp (fun hanchored => hanchored.grows hg) id⟩
    obtain ⟨hentries, hcs⟩ := settleAll_spec
      (t := ⟨(l.submission params).entries, (l.submission params).completions⟩) hsettled hws.distinct
      (fun w hw => (hws.fresh w hw).2.1) htracked
    rw [← hws.candidateIds] at hentries hcs
    rw [heq]
    exact h.withBatch hacks (ReplicaState.executeEvent_stateMachine _ _) hentries
      (hanswered.trans hcs)

/-- **Handlers.** -/
theorem AckInv.handle (h : AckInv l) {ev : LoopEvent} (hsafe : EventSafe codec l ev) :
    HandledAcks l (l.handle codec ev).loop := by
  cases ev with
  | propose params => exact h.handle_propose hsafe
  | submitRead key => exact h.handle_submitRead key
  | readQuorumResponse sender readSeq responseTerm =>
    exact h.handle_readQuorumResponse sender readSeq responseTerm
  | _ => exact h.handle_plain id hsafe

end Batch

end AdvisKV
