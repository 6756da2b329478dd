import AdvisKV.Replica.Answers

/-!
# AdvisKV — acknowledgements along a run

The end of a dispatch, when the trackers answer, and whole runs. A dispatch that meets `AckSafe` starts and
ends in a state where every tracked request is in the log at its index, and whatever it answers the records
justify. Without the condition a client can be told OK for a write that is gone.

Main results:

* `ReplicaLoop.iterate_acks` — one dispatch.
* `acknowledged_writes_recorded` — in every run of dispatches that meet `AckSafe`, a write is reported done
  only if its record exists, a CAS only with the recorded outcome, and no completion is answered twice.
* `replaced_write_acknowledged` — a run whose last dispatch does not.
-/

namespace AdvisKV

open Completions ProposalTracker

/-! ## Pending reads -/

section Reads

variable {J : Nat → Status → Prop} {t : ReadTracker}

/-- The trackers answer reads, and keep those that have to wait. -/
theorem ReadTracker.advance_spec (core : RaftCore) (sm : KvStateMachine) (cs : Completions)
    (hJ : ∀ kv ∈ t.pendingReads, ∀ st, J kv.2.completion st) :
    Answered J cs (t.advance core sm cs).2 ∧
      ∀ kv ∈ (t.advance core sm cs).1.pendingReads, kv ∈ t.pendingReads := by
  have hfold : ∀ (pending kept : List (Nat × PendingRead)) (cs : Completions),
      (∀ kv ∈ pending, ∀ st, J kv.2.completion st) →
      Answered J cs (pending.foldl (advanceRead core sm) (kept, cs)).2 ∧
        ∀ kv ∈ (pending.foldl (advanceRead core sm) (kept, cs)).1, kv ∈ kept ∨ kv ∈ pending := by
    intro pending
    induction pending with
    | nil => exact fun kept cs _ => ⟨.refl cs, fun kv hkv => Or.inl hkv⟩
    | cons read pending ih =>
      intro kept cs hJ
      have hrest := fun kv hkv => hJ kv (List.mem_cons_of_mem _ hkv)
      rw [List.foldl_cons]
      simp only [advanceRead]
      split
      · obtain ⟨hcs, hkept⟩ := ih kept cs hrest
        exact ⟨hcs, fun kv hkv => (hkept kv hkv).imp id (List.mem_cons_of_mem _)⟩
      · obtain ⟨hcs, hkept⟩ := ih (kept ++ [read]) cs hrest
        refine ⟨hcs, fun kv hkv => ?_⟩
        rcases hkept kv hkv with hkv | hkv
        · rcases List.mem_append.mp hkv with hkv | hkv
          · exact Or.inl hkv
          · cases List.mem_singleton.mp hkv
            exact Or.inr List.mem_cons_self
        · exact Or.inr (List.mem_cons_of_mem _ hkv)
      · next st value _ =>
        obtain ⟨hcs, hkept⟩ := ih kept (cs.resolve read.2.completion st value) hrest
        have hone := answered_resolve (J := J) (hJ read List.mem_cons_self st) cs value
        exact ⟨hone.trans hcs, fun kv hkv => (hkept kv hkv).imp id (List.mem_cons_of_mem _)⟩
  obtain ⟨hcs, hkept⟩ := hfold t.pendingReads [] cs hJ
  exact ⟨hcs, fun kv hkv => (hkept kv hkv).resolve_left List.not_mem_nil⟩

/-- A replica that no longer leads gives up its reads. -/
theorem ReadTracker.failAll_answered (cs : Completions) (status : Status)
    (hJ : ∀ kv ∈ t.pendingReads, ∀ st, J kv.2.completion st) :
    Answered J cs (t.failAll cs status).2 := by
  have hfold : ∀ (pending : List (Nat × PendingRead)) (cs : Completions),
      (∀ kv ∈ pending, ∀ st, J kv.2.completion st) →
      Answered J cs (pending.foldl (fun cs kv => cs.resolve kv.2.completion status none) cs) := by
    intro pending
    induction pending with
    | nil => exact fun cs _ => .refl cs
    | cons read pending ih =>
      intro cs hJ
      have hone := answered_resolve (J := J) (hJ read List.mem_cons_self status) cs none
      exact hone.trans (ih _ fun kv hkv => hJ kv (List.mem_cons_of_mem _ hkv))
  exact hfold t.pendingReads cs hJ

end Reads

/-! ## The end of a dispatch -/

variable {sm : KvStateMachine} {l : ReplicaLoop}

/-- A record stays, whether the entry is accepted or refused. -/
theorem KvStateMachine.applyAll_keeps {r : Bytes} {record : RequestRecord} (es : List LogEntry)
    (h : sm.findRequest r = some record) :
    (sm.applyAll es).findRequest r = some record := by
  have hr : r ≠ [] := by
    rintro rfl
    simp [findRequest] at h
  induction es generalizing sm with
  | nil => exact h
  | cons e es ih =>
    refine ih ?_
    by_cases haccepts : accepts e = true
    · exact (apply_findRequest haccepts hr).1 record h
    · show (sm.apply e).2.findRequest r = some record
      unfold apply
      rw [refused_eq, if_pos (by simpa using haccepts)]
      exact h

/-- Records are never lost, so an answer stays justified. -/
theorem Justified.applyAll {submitted : Submitted} {id : Nat} {st : Status} (h : Justified submitted sm id st)
    (es : List LogEntry) :
    Justified submitted (sm.applyAll es) id st := by
  intro w hw
  refine (h w hw).imp (fun hharmless => hharmless) fun ⟨record, hrecord, hrest⟩ => ?_
  exact ⟨record, KvStateMachine.applyAll_keeps es hrecord, hrest⟩

/-- What a dispatch leaves behind: a faulted loop or the invariant, and only justified answers. -/
structure DispatchAcks (l l' : ReplicaLoop) : Prop where
  inv : l'.faulted = true ∨ AckInv l'
  answered : Answered (Justified l'.submitted l'.state.stateMachine) l.completions l'.completions

section Finish

variable {l : ReplicaLoop}

variable {sm : KvStateMachine} {l' : ReplicaLoop}

/-- Nobody but a write waits on a completion with a justification to give. -/
theorem AckMid.justified_read (h : AckMid l) : ∀ kv ∈ l.reads.pendingReads,
    ∀ st, Justified l.submitted sm kv.2.completion st := by
  intro kv hkv st w hw
  exact absurd hw ((h.reads kv hkv).2 _)

/-- The loop that gives up answers everybody with a failure. -/
theorem ReplicaLoop.failAllPending_answered {status : Status}
    (hreads : ∀ kv ∈ l.reads.pendingReads, ∀ st, Justified l.submitted sm kv.2.completion st)
    (hstatus : status.Harmless) :
    Answered (Justified l.submitted sm) l.completions (l.failAllPending status).completions :=
  (ReadTracker.failAll_answered l.completions status hreads).trans (failAll_spec _ hstatus)

/-- A snapshot of the state machine as it is covers the applied log. -/
theorem AckState.covered_captured {s : ReplicaState} (h : AckState s.core s.stateMachine) :
    Covered s.core (ReplicaLoop.captured s) :=
  ⟨h.machine.le, h.machineTerm⟩

/-- Handing the worker a copy. -/
theorem AckInv.advanceSnapshot (h : AckInv l) : AckInv l.advanceSnapshot := by
  unfold ReplicaLoop.advanceSnapshot
  dsimp only
  split
  · exact h
  split
  · exact h
  · refine ⟨⟨h.mid.state, fun d hd => ?_, h.mid.tracked, h.mid.ids, h.mid.reads⟩, h.caughtUp, h.anchored,
      h.leads⟩
    rcases hd with hd | hd
    · cases hd
      exact h.mid.state.covered_captured
    · exact h.mid.queue d (Or.inr hd)

/-- A leader has not lost a tracked entry. -/
theorem CaughtUp.anchored_of_leader {c c' : RaftCore} {sm' : KvStateMachine} (h : CaughtUp c sm c' sm')
    (hc : Applicable c) {kv : Bytes × TrackedProposal} (hr : kv.1 ≠ []) (hkv : Hangs c sm kv)
    (hleader : c'.isLeader = true) (hindex : c'.raftApply.commitIndex < kv.2.index) : Anchored c' sm' kv := by
  have hrole' : c'.election.role = .leader := by
    simpa [RaftCore.isLeader, RaftElection.isLeader] using hleader
  have hrole : c.election.role = .leader := by
    rcases h.frame.role with heq | hfollower
    · exact heq ▸ hrole'
    · rw [hrole'] at hfollower
      cases hfollower
  exact h.anchored hc hr (hkv.rest.resolve_right fun hlost => hlost.1 hrole) (h.frame.commit ▸ hindex)

/-- **Trackers.** With everything committed applied, the trackers keep what is still in the log and
answer from the records. -/
theorem AckMid.advanceTrackers (h : AckMid l)
    (hup : CaughtUp l.state.core l.state.stateMachine l'.state.core l'.state.stateMachine)
    (hqueue : ∀ d, d ∈ l'.writing ∨ d ∈ l'.written → d ∈ l.writing ∨ d ∈ l.written)
    (hsame : ReplicaLoop.SameTrackers l { l' with completions := l.completions }) :
    AckInv l'.advanceTrackers ∧ Answered (Justified l'.submitted l'.state.stateMachine) l'.completions
      l'.advanceTrackers.completions := by
  have hproposals : l'.proposals = l.proposals := hsame.proposals
  have hreads : l'.reads = l.reads := hsame.reads
  have hnext : l'.nextCompletion = l.nextCompletion := hsame.nextCompletion
  have hsubmitted : l'.submitted = l.submitted := hsame.submitted
  have hstate := hup.ackState h.state
  have hcaught : l'.state.core.raftApply.lastApplied = l'.state.core.raftApply.commitIndex := by
    rw [hup.applied, hup.frame.commit]
  have htracked : ∀ kv ∈ l'.proposals.entries, Serves l'.submitted l'.nextCompletion kv ∧
      Hangs l.state.core l.state.stateMachine kv := by
    rw [hproposals, hsubmitted, hnext]
    exact h.tracked
  have hpending : ∀ kv ∈ l'.reads.pendingReads, kv.2.completion < l'.nextCompletion ∧
      ∀ p, (kv.2.completion, p) ∉ l'.submitted := by
    rw [hreads, hsubmitted, hnext]
    exact h.reads
  obtain ⟨hanswered, hkept⟩ := ProposalTracker.advance_spec hcaught
    (t := ⟨l'.proposals.entries, l'.completions⟩) fun kv hkv =>
      ⟨(htracked kv hkv).1,
        hup.resolved h.state.applicable (htracked kv hkv).1.id_ne (htracked kv hkv).2,
        (htracked kv hkv).2.index_pos⟩
  obtain ⟨hanswered', hkept'⟩ := ReadTracker.advance_spec (t := l'.reads)
    (J := Justified l'.submitted l'.state.stateMachine) l'.state.core l'.state.stateMachine
    (ProposalTracker.advance l'.state.core l'.state.stateMachine
      ⟨l'.proposals.entries, l'.completions⟩).completions
    fun kv hkv st w hw => absurd hw ((hpending kv hkv).2 _)
  have hanchored : ∀ kv ∈ (ProposalTracker.advance l'.state.core l'.state.stateMachine
      ⟨l'.proposals.entries, l'.completions⟩).entries,
      Anchored l'.state.core l'.state.stateMachine kv := by
    intro kv hkv
    obtain ⟨hmem, hleader, hindex⟩ := hkept kv hkv
    exact hup.anchored_of_leader h.state.applicable (htracked kv hmem).1.id_ne (htracked kv hmem).2
      hleader hindex
  -- the copy for the worker is taken after the trackers have had their turn
  refine ⟨AckInv.advanceSnapshot ⟨⟨hstate, ?_, ?_, ?_, ?_⟩, hcaught.ge, hanchored, ?_⟩, ?_⟩
  · exact fun d hd => hup.covered (h.queue d (hqueue d hd))
  · exact fun kv hkv => ⟨(htracked kv (hkept kv hkv).1).1, (hanchored kv hkv).hangs⟩
  · rw [hsubmitted, hnext]
    exact h.ids
  · exact fun kv hkv => hpending kv (hkept' kv hkv)
  · intro hne
    obtain ⟨kv, hkv⟩ := List.exists_mem_of_ne_nil _ hne
    exact (hkept kv hkv).2.1
  · have hcompletions : l'.advanceTrackers.completions =
        (l'.reads.advance l'.state.core l'.state.stateMachine
          (ProposalTracker.advance l'.state.core l'.state.stateMachine
            ⟨l'.proposals.entries, l'.completions⟩).completions).2 := by
      simp only [ReplicaLoop.advanceTrackers, ReplicaLoop.advanceSnapshot]
      repeat' split
      all_goals rfl
    rw [hcompletions]
    exact hanswered.trans hanswered'

/-- The apply loop runs unless the handler has reported a fault. -/
theorem ReplicaLoop.finishDispatch_cases (hc : Applicable l.state.core) (status : Status) :
    (l.faulted = true ∧ (l.finishDispatch status).2 = l) ∨
    ∃ applied a, ApplyState.applyCommittedEntriesInline
        { core := l.state.core, stateMachine := l.state.stateMachine } = some (applied, a) ∧
      (l.finishDispatch status).2 = { l with
        state := { l.state with core := a.core, stateMachine := a.stateMachine }
        faulted := applied.fail } := by
  unfold finishDispatch
  split
  · next hf => exact Or.inl ⟨hf, rfl⟩
  · obtain ⟨applied, a, happly, -⟩ := applyCommittedEntriesInline_in_order
      (s := { core := l.state.core, stateMachine := l.state.stateMachine }) hc
    simp only [happly]
    exact Or.inr ⟨applied, a, rfl, rfl⟩

theorem ReplicaLoop.endIteration_submitted (l : ReplicaLoop) : l.endIteration.submitted = l.submitted := by
  unfold endIteration
  split
  · rfl
  · simp only [advanceTrackers, advanceSnapshot]
    repeat' split
    all_goals rfl

/-- Answering a read touches its completion only. -/
theorem ReplicaLoop.answerRead_eq (ev : LoopEvent) (id : Nat) (status : Status) (l : ReplicaLoop) :
    answerRead ev id status l = { l with completions := (answerRead ev id status l).completions } := by
  unfold answerRead
  repeat' split
  all_goals rfl

/-- The read of a failed dispatch is not a write. -/
theorem ReplicaLoop.answerRead_answered {J : Nat → Status → Prop} (ev : LoopEvent) (id : Nat)
    (status : Status) (l : ReplicaLoop) (hJ : ∀ key, ev = .submitRead key → ∀ st, J id st) :
    Answered J l.completions (answerRead ev id status l).completions := by
  unfold answerRead
  split
  · next key =>
    split
    · exact answered_resolve (hJ key rfl status) _ _
    · exact .refl _
  · exact .refl _

/-- A faulted loop gives up; its answers are failures. -/
theorem AckMid.endIteration_faulted (h : AckMid l) (hf : l'.faulted = true)
    (hsame : ReplicaLoop.SameTrackers l { l' with completions := l.completions }) :
    DispatchAcks l' l'.endIteration := by
  have hreads : l'.reads = l.reads := hsame.reads
  have hsubmitted : l'.submitted = l.submitted := hsame.submitted
  have hend : l'.endIteration = l'.failAllPending ⟨.isFaulted, "replica is faulted"⟩ := by
    rw [ReplicaLoop.endIteration, if_pos hf]
  rw [hend]
  refine ⟨Or.inl hf, ReplicaLoop.failAllPending_answered ?_ ?_⟩
  · rw [hreads, hsubmitted]
    exact h.justified_read
  · refine ⟨?_, ?_, ?_⟩ <;> simp

/-- A loop without a fault lets the trackers answer. -/
theorem AckMid.endIteration_caughtUp (h : AckMid l) (hf : l'.faulted = false)
    (hup : CaughtUp l.state.core l.state.stateMachine l'.state.core l'.state.stateMachine)
    (hqueue : ∀ d, d ∈ l'.writing ∨ d ∈ l'.written → d ∈ l.writing ∨ d ∈ l.written)
    (hsame : ReplicaLoop.SameTrackers l { l' with completions := l.completions }) :
    DispatchAcks l' l'.endIteration := by
  obtain ⟨hinv, hanswered⟩ := h.advanceTrackers hup hqueue hsame
  have hend : l'.endIteration = l'.advanceTrackers := by
    rw [ReplicaLoop.endIteration, hf]
    rfl
  refine ⟨Or.inr (hend ▸ hinv), ?_⟩
  rw [ReplicaLoop.endIteration_submitted, ReplicaLoop.endIteration_state, hend]
  exact hanswered

/-- **One dispatch.** -/
theorem ReplicaLoop.iterate_acks {codec : SnapshotCodec} {ev : LoopEvent} (h : AckInv l)
    (hf : l.faulted = false) (hsafe : AckSafe codec l ev) :
    DispatchAcks l (l.iterate codec ev).loop := by
  obtain ⟨hmid, hanswered⟩ := h.handle hsafe.1
  have hread : ∀ key, ev = .submitRead key → ∀ sm st,
      Justified (l.handle codec ev).loop.submitted sm l.nextCompletion st := by
    rintro key rfl sm st w hw
    exact absurd (h.mid.ids _ hw) (lt_irrefl _)
  have hloop : (l.iterate codec ev).loop = (answerRead ev l.nextCompletion
      ((l.handle codec ev).loop.finishDispatch (l.handle codec ev).status).1
      ((l.handle codec ev).loop.finishDispatch (l.handle codec ev).status).2).endIteration := by
    simp only [iterate, hf, Bool.false_eq_true, if_false]
  rw [hloop]
  generalize hl₁ : (l.handle codec ev).loop = l₁ at *
  generalize hstatus : (l₁.finishDispatch (l.handle codec ev).status).1 = status
  -- what has been answered so far stays justified while the trackers get their turn
  have hchain : ∀ {l₂ : ReplicaLoop} {cs : Completions} (es : List LogEntry),
      l₂.submitted = l₁.submitted → l₂.state.stateMachine = l₁.state.stateMachine.applyAll es →
      (∀ J : Nat → Status → Prop, (∀ key, ev = .submitRead key → ∀ st, J l.nextCompletion st) →
        Answered J l₁.completions cs) →
      DispatchAcks { l₂ with completions := cs } ({ l₂ with completions := cs } : ReplicaLoop).endIteration →
      DispatchAcks l ({ l₂ with completions := cs } : ReplicaLoop).endIteration := by
    intro l₂ cs es hsub hsm hcs hend
    have hsub' : ({ l₂ with completions := cs } : ReplicaLoop).endIteration.submitted = l₁.submitted := by
      rw [← hsub]
      exact endIteration_submitted _
    refine ⟨hend.inv, ?_⟩
    have h₃ := hend.answered
    rw [hsub', endIteration_state] at h₃ ⊢
    dsimp only at h₃ ⊢
    rw [hsm] at h₃ ⊢
    have h₁ := hanswered.mono fun id st hj => hj.applyAll es
    have h₂ := hcs (Justified l₁.submitted (l₁.state.stateMachine.applyAll es))
      fun key hev st => hread key hev _ st
    exact (h₁.trans h₂).trans h₃
  have hanswer : ∀ (l₂ : ReplicaLoop), l₂.completions = l₁.completions → ∀ J : Nat → Status → Prop,
      (∀ key, ev = .submitRead key → ∀ st, J l.nextCompletion st) →
      Answered J l₁.completions (answerRead ev l.nextCompletion status l₂).completions :=
    fun l₂ hcs J hJ => hcs ▸ answerRead_answered ev l.nextCompletion status l₂ hJ
  rcases finishDispatch_cases hmid.state.applicable (l.handle codec ev).status with
    ⟨hfault, heq⟩ | ⟨applied, a, happly, heq⟩
  · rw [heq, answerRead_eq]
    refine hchain [] rfl rfl (hanswer l₁ rfl) (hmid.endIteration_faulted hfault ?_)
    exact ⟨rfl, rfl, rfl, rfl, rfl⟩
  · obtain ⟨es, -, hes⟩ := ApplyMove.trace_star (ApplyState.applyCommittedEntriesInline_moves happly)
    rw [heq, answerRead_eq]
    refine hchain es rfl hes (hanswer _ rfl) ?_
    -- the loop has applied everything, or it stops here
    cases hok : applied.fail
    · have hup := caughtUp_of_ok hmid.state.applicable (hl₁ ▸ hsafe.2) happly hok
      exact hmid.endIteration_caughtUp rfl hup (fun d hd => hd) ⟨rfl, rfl, rfl, rfl, rfl⟩
    · exact hmid.endIteration_faulted rfl ⟨rfl, rfl, rfl, rfl, rfl⟩

end Finish

/-! ## Runs -/

/-- A replica process: its loop, and whether the loop has been stopped. -/
structure LoopProcess where
  loop : ReplicaLoop
  stopped : Bool := false

/-- What may happen to a replica process: a dispatch, the two moves of the snapshot worker, a waiter whose
time is up, and `ReplicaLoop::stop`. -/
inductive LoopAction where
  | dispatch (ev : LoopEvent)
  | workerPost
  | workerClear
  | giveUp (id : Nat)
  | stop

namespace LoopAction

def step (codec : SnapshotCodec) : LoopAction → LoopProcess → Option LoopProcess
  | .dispatch ev, p => if p.stopped then none else some { p with loop := (p.loop.iterate codec ev).loop }
  | .workerPost, p => some { p with loop := p.loop.workerPost }
  | .workerClear, p => some { p with loop := p.loop.workerClear }
  | .giveUp id, p =>
    if p.loop.nextCompletion ≤ id then none
    else some { p with loop := { p.loop with
      completions := Function.update p.loop.completions id (p.loop.completions id).timeOut } }
  | .stop, p =>
    if p.stopped || p.loop.faulted then none
    else some { loop := p.loop.failAllPending ⟨.error, "raft loop is stopped"⟩, stopped := true }

/-- Only a dispatch of a loop that still runs has a condition to meet. -/
def Safe (codec : SnapshotCodec) (p : LoopProcess) : LoopAction → Prop
  | .dispatch ev => p.loop.faulted = false → AckSafe codec p.loop ev
  | _ => True

end LoopAction

/-- As long as a loop runs, its trackers are in order. -/
structure LoopProcess.InOrder (p : LoopProcess) : Prop where
  running : p.loop.faulted = false → p.stopped = false → AckInv p.loop

/-- The worker's thread touches no tracker. -/
theorem AckInv.worker {l' : ReplicaLoop} (h : AckInv l) (hstep : l.WorkerStep l') : AckInv l' := by
  have hmid := h.mid
  rw [hstep.same]
  exact ⟨⟨hmid.state, fun d hd => hmid.queue d (hstep.held d hd), hmid.tracked, hmid.ids, hmid.reads⟩,
    h.caughtUp, h.anchored, h.leads⟩

/-- What one action does to a completion: nothing, or it gives a waiting one up or an answer the records
justify. -/
def Resolves (p p' : LoopProcess) (id : Nat) : Prop :=
  p'.loop.completions id = p.loop.completions id ∨
    (p.loop.completions id = .pending ∧ (p'.loop.completions id = .timedOut ∨
      ∃ st v, p'.loop.completions id = .completed st v ∧ ∀ w, (id, .write w) ∈ p'.loop.submitted →
        st.Harmless ∨ p'.loop.state.stateMachine.Recorded w st))

theorem Completions.Answered.resolves {p p' : LoopProcess}
    (h : Answered (Justified p'.loop.submitted p'.loop.state.stateMachine) p.loop.completions
      p'.loop.completions) (id : Nat) : Resolves p p' id :=
  (h id).imp (fun hsame => hsame) fun ⟨hpending, st, v, hdone, hjustified⟩ =>
    ⟨hpending, Or.inr ⟨st, v, hdone, hjustified⟩⟩

/-- Nor does it answer anybody. -/
theorem LoopProcess.InOrder.worker {p : LoopProcess} {l : ReplicaLoop} (h : p.InOrder)
    (hstep : p.loop.WorkerStep l) :
    LoopProcess.InOrder { p with loop := l } ∧ ∀ id, Resolves p { p with loop := l } id := by
  have hsame : l.faulted = p.loop.faulted ∧ l.completions = p.loop.completions := by
    rw [hstep.same]
    exact ⟨rfl, rfl⟩
  exact ⟨⟨fun hf hs => (h.running (hsame.1 ▸ hf) hs).worker hstep⟩, fun id => Or.inl (by rw [hsame.2])⟩

/-- **Steps.** -/
theorem LoopProcess.InOrder.step {codec : SnapshotCodec} {p p' : LoopProcess} {a : LoopAction}
    (h : p.InOrder) (hsafe : a.Safe codec p) (hstep : a.step codec p = some p') :
    p'.InOrder ∧ ∀ id, Resolves p p' id := by
  cases a with
  | dispatch ev =>
    simp only [LoopAction.step] at hstep
    split at hstep
    · cases hstep
    next hrunning =>
    obtain rfl := Option.some.inj hstep
    cases hf : p.loop.faulted
    · have hacks := ReplicaLoop.iterate_acks (h.running hf (by simpa using hrunning)) hf (hsafe hf)
      refine ⟨⟨fun hf' _ => hacks.inv.resolve_left ?_⟩, hacks.answered.resolves⟩
      rw [hf']
      simp
    · rw [ReplicaLoop.iterate_of_faulted codec hf]
      exact ⟨⟨fun hf' => absurd (hf.symm.trans hf') (by simp)⟩, fun id => Or.inl rfl⟩
  | workerPost =>
    obtain rfl := Option.some.inj hstep
    exact h.worker (ReplicaLoop.workerPost_step _)
  | workerClear =>
    obtain rfl := Option.some.inj hstep
    exact h.worker (ReplicaLoop.workerClear_step _)
  -- a caller who gives up changes one completion, which no invariant of the loop reads
  | giveUp id =>
    simp only [LoopAction.step] at hstep
    split at hstep
    · cases hstep
    obtain rfl := Option.some.inj hstep
    refine ⟨⟨fun hf hs => ?_⟩, fun x => ?_⟩
    · obtain ⟨hmid, hcaught, hanchored, hleads⟩ := h.running hf hs
      exact ⟨⟨hmid.state, hmid.queue, hmid.tracked, hmid.ids, hmid.reads⟩, hcaught, hanchored, hleads⟩
    · by_cases hx : x = id
      · subst hx
        simp only [Resolves, Function.update_self]
        cases p.loop.completions x with
        | pending => exact Or.inr ⟨rfl, Or.inl rfl⟩
        | completed st v => exact Or.inl rfl
        | timedOut => exact Or.inl rfl
      · exact Or.inl (Function.update_of_ne hx _ _)
  -- every waiting call is told that the loop has ended, which promises nothing
  | stop =>
    simp only [LoopAction.step] at hstep
    split at hstep
    · cases hstep
    next hrunning =>
    obtain rfl := Option.some.inj hstep
    simp only [Bool.or_eq_true, not_or, Bool.not_eq_true] at hrunning
    have hmid := (h.running hrunning.2 hrunning.1).mid
    refine ⟨⟨fun _ hs => by cases hs⟩, Completions.Answered.resolves ?_⟩
    exact ReplicaLoop.failAllPending_answered hmid.justified_read (by refine ⟨?_, ?_, ?_⟩ <;> simp)

/-- A process that has just started tracks nothing. -/
theorem LoopProcess.inOrder_boot {selfId : ReplicaID} {members : List PeerMember} {limits : Nat → Nat}
    {snapshotLimit : Nat} {disk : PersistEngine}
    (hboot : ReplicaLoop.boot selfId members limits snapshotLimit disk = .ok l) :
    LoopProcess.InOrder { loop := l } := by
  have hfrom := ReplicaLoop.boot_ok hboot
  have hcons := hfrom.core.shaped.consecutive
  have hsnap : l.state.core.raftLog.snapshotIndex = disk.header.applyIndex := by
    rw [hfrom.core.raftLog]
  have happlied : l.state.core.raftApply.lastApplied = disk.header.applyIndex := by
    rw [hfrom.core.raftApply]
  have hcommit : l.state.core.raftApply.commitIndex = disk.header.applyIndex := by
    rw [hfrom.core.raftApply]
  have hmachine := PersistEngine.restored_applyIndex hfrom.stateMachine
  have hstate : AckState l.state.core l.state.stateMachine := by
    refine ⟨⟨hcons, by omega, by omega, ?_⟩, ?_, fun x hx hle => ?_, by omega, fun hlow => ?_⟩
    · have := RaftLog.snapshotIndex_le_lastLogIndex hcons
      omega
    · rw [hfrom.core.raftLog]
      exact RaftLog.updateEntries_indexed
        { snapshotIndex := disk.header.applyIndex, snapshotTerm := disk.header.applyTerm } _
    · -- everything behind the snapshot is unapplied
      have hlow := (RaftLog.entryAt_of_mem hcons hx).2
      omega
    · omega
  refine ⟨fun _ _ => ?_⟩
  rw [hfrom.rest]
  refine AckInv.advanceSnapshot ⟨⟨hstate, fun d hd => ?_, ?_, ?_, ?_⟩, ?_, ?_, fun hne => ?_⟩
  · rcases hd with hd | hd <;> cases hd
  · exact List.forall_mem_nil _
  · exact List.forall_mem_nil _
  · exact List.forall_mem_nil _
  · show l.state.core.raftApply.commitIndex ≤ l.state.core.raftApply.lastApplied
    omega
  · exact List.forall_mem_nil _
  · exact absurd rfl hne

/-- **Acknowledgements.** A replica process starts on whatever files it finds and takes any events, each of
which meets `AckSafe`. Then a step changes a completion only while it waits, and the status it gets for a
write is a failure that reports no outcome, or the state machine holds the record of that request with that
payload, for a CAS with that outcome. -/
theorem acknowledged_writes_recorded {codec : SnapshotCodec} {selfId : ReplicaID}
    {members : List PeerMember} {limits : Nat → Nat} {snapshotLimit : Nat} {disk : PersistEngine}
    {l : ReplicaLoop} {p p' : LoopProcess} {a : LoopAction}
    (hboot : ReplicaLoop.boot selfId members limits snapshotLimit disk = .ok l)
    (hrun : Machine.GuardedRun (LoopAction.step codec) (fun p a => a.Safe codec p) { loop := l } p)
    (hsafe : a.Safe codec p) (hstep : a.step codec p = some p') (id : Nat) : Resolves p p' id := by
  have horder : p.InOrder := hrun.invariant
    (fun _ _ _ h hsafe hstep => (LoopProcess.InOrder.step h hsafe hstep).1)
    (LoopProcess.inOrder_boot hboot)
  exact (horder.step hsafe hstep).2 id

/-! ## Two replicas with one write -/

def ackMember (seq : Int) : PeerMember := { replicaId := ⟨1, 0, seq⟩ }

/-- The client's write. -/
def ackWrite : WriteProposal := { op := .put, key := [107], value := [118], requestId := [114] }

/-- A single voter elects itself and commits the write at once. -/
theorem lone_leader_acknowledges : ∃ l p p',
    ReplicaLoop.boot ⟨1, 0, 1⟩ [ackMember 1] (fun _ => 1) 100 {} = .ok l ∧
    Machine.GuardedRun (LoopAction.step (sampleCodec {})) (fun p a => a.Safe (sampleCodec {}) p)
      { loop := l } p ∧
    LoopAction.step (sampleCodec {}) (.dispatch (.propose [.write ackWrite])) p = some p' ∧
    p.loop.completions 0 = .pending ∧ p'.loop.completions 0 = .completed .OK none ∧
    p'.loop.state.stateMachine.Recorded ackWrite .OK := by
  obtain ⟨l, p, p', hboot, htick, hfew, hstep, hfew', hnone, hpending, hdone, hsubmitted⟩ : ∃ l p p',
      ReplicaLoop.boot ⟨1, 0, 1⟩ [ackMember 1] (fun _ => 1) 100 {} = .ok l ∧
      LoopAction.step (sampleCodec {}) (.dispatch .tick) { loop := l } = some p ∧
      kvCount (outstanding (l.handle (sampleCodec {}) .tick).loop.state.core) = 1 ∧
      LoopAction.step (sampleCodec {}) (.dispatch (.propose [.write ackWrite])) p = some p' ∧
      kvCount (outstanding
        (p.loop.handle (sampleCodec {}) (.propose [.write ackWrite])).loop.state.core) = 1 ∧
      p.loop.proposals.entries = [] ∧ p.loop.completions 0 = .pending ∧
      p'.loop.completions 0 = .completed .OK none ∧ p'.loop.submitted = [(0, .write ackWrite)] :=
    ⟨_, _, _, rfl, rfl, rfl, rfl, rfl, rfl, rfl, rfl, rfl⟩
  have hbudget : (1 : Nat) ≤ replicaInlineApplyBatchSize := by decide
  have hsafe : LoopAction.Safe (sampleCodec {}) { loop := l } (.dispatch .tick) := fun _ =>
    ⟨trivial, noConfigBehindOverflow_of_le (hfew.trans_le hbudget)⟩
  have hsafe' : LoopAction.Safe (sampleCodec {}) p (.dispatch (.propose [.write ackWrite])) := by
    refine fun _ => ⟨⟨?_, ?_⟩, noConfigBehindOverflow_of_le (hfew'.trans_le hbudget)⟩
    · rw [hnone]
      exact fun _ _ => List.forall_mem_nil _
    · intro w w' hw hw' _ _
      obtain ⟨⟩ := List.mem_singleton.mp hw
      obtain ⟨⟩ := List.mem_singleton.mp hw'
      exact Iff.rfl
  have hrun : Machine.GuardedRun (LoopAction.step (sampleCodec {}))
      (fun p a => a.Safe (sampleCodec {}) p) { loop := l } p := .single ⟨_, hsafe, htick⟩
  refine ⟨l, p, p', hboot, hrun, hstep, hpending, hdone, ?_⟩
  rcases acknowledged_writes_recorded hboot hrun hsafe' hstep 0 with
    hsame | ⟨-, hlate | ⟨st, v, hst, hrecorded⟩⟩
  · rw [hpending, hdone] at hsame
    cases hsame
  · rw [hdone] at hlate
    cases hlate
  · rw [hdone] at hst
    obtain ⟨⟩ := hst
    refine (hrecorded ackWrite (by rw [hsubmitted]; exact List.mem_singleton.mpr rfl)).resolve_left ?_
    exact fun hharmless => hharmless.1 rfl

/-- The other voter of the pair has become leader of term 2 and has committed two entries of its own. -/
def deposing : AppendEntriesParam :=
  { fromReplicaId := ⟨1, 0, 2⟩, toReplicaId := ⟨1, 0, 1⟩, term := 2, leaderCommit := 2
    entries := [{ term := 2, index := 1 }, { term := 2, index := 2 }] }

/-- The leader of term 1 has the write at index 2 and the other voter has not seen it. -/
def electedWithWrite : List LoopAction :=
  [.dispatch .tick,
   .dispatch (.preVoteResponse ⟨1, 0, 2⟩ { term := 0, voteGranted := true }),
   .dispatch (.voteResponse ⟨1, 0, 2⟩ { term := 1, voteGranted := true }),
   .dispatch (.propose [.write ackWrite])]

/-- One AppendEntries of the next leader replaces the write and commits the index; the client is told OK,
and neither the log nor the records know the request. -/
theorem replaced_write_acknowledged : ∃ l p p',
    ReplicaLoop.boot ⟨1, 0, 1⟩ [ackMember 1, ackMember 2] (fun _ => 1) 100 {} = .ok l ∧
    Machine.run (LoopAction.step (sampleCodec {})) electedWithWrite { loop := l } = some p ∧
    LoopAction.step (sampleCodec {}) (.dispatch (.appendEntries deposing)) p = some p' ∧
    p.loop.completions 0 = .pending ∧ p'.loop.completions 0 = .completed .OK none ∧
    (0, .write ackWrite) ∈ p'.loop.submitted ∧
    p'.loop.state.stateMachine.findRequest ackWrite.requestId = none ∧
    ∀ x ∈ p'.loop.state.core.raftLog.logEntries, x.requestId ≠ ackWrite.requestId :=
  ⟨_, _, _, rfl, rfl, rfl, rfl, rfl, List.mem_singleton.mpr rfl, rfl, by decide⟩

end AdvisKV
