import AdvisKV.Model.ReplicaLoop
import AdvisKV.Raft.Broadcast
import AdvisKV.Replica.Requests

/-!
# AdvisKV — what the proposal tracker answers

Every table operation of `ProposalTracker` changes completions in one way only: a waiting completion gets
a result. `Completions.Answered` says so and carries a justification for each result. The justification
this development is after is `Recorded`: a write is reported done only if the state machine holds the
record of that request with that payload.

Main results:

* `ProposalTracker.submit_spec` — submitting a batch.
* `CoreState.proposeBatch_spec` — the indexes a batch is given.
* `ProposalTracker.settleAll_spec` — the tracker after the batch has been proposed.
* `ProposalTracker.advance_spec` — what `advance` answers and what it keeps.
-/

namespace AdvisKV

/-! ## Completions -/

namespace Completions

/-- Some waiting completions have got a result `J` allows; nothing else has changed. -/
def Answered (J : Nat → Status → Prop) (cs cs' : Completions) : Prop :=
  ∀ id, cs' id = cs id ∨ (cs id = .pending ∧ ∃ st v, cs' id = .completed st v ∧ J id st)

variable {J : Nat → Status → Prop} {cs cs' cs'' : Completions}

theorem Answered.refl (cs : Completions) : Answered J cs cs := fun _ => Or.inl rfl

/-- A completion is answered once: what has a result keeps it. -/
theorem Answered.trans (h : Answered J cs cs') (h' : Answered J cs' cs'') : Answered J cs cs'' := by
  intro id
  rcases h' id with hsame | ⟨hpending, st, v, hdone, hJ⟩
  · rw [hsame]
    exact h id
  · refine Or.inr ⟨?_, st, v, hdone, hJ⟩
    rcases h id with hsame | ⟨-, _, _, hdone', -⟩
    · exact hsame ▸ hpending
    · rw [hpending] at hdone'
      cases hdone'

/-- A weaker justification. -/
theorem Answered.mono {J' : Nat → Status → Prop} (hJ : ∀ id st, J id st → J' id st)
    (h : Answered J cs cs') : Answered J' cs cs' := by
  intro id
  rcases h id with hsame | ⟨hpending, st, v, hdone, hj⟩
  · exact Or.inl hsame
  · exact Or.inr ⟨hpending, st, v, hdone, hJ id st hj⟩

/-- Resolving one completion. -/
theorem answered_resolve {id : Nat} {st : Status} (hJ : J id st) (cs : Completions)
    (v : Option Value) : Answered J cs (cs.resolve id st v) := by
  intro x
  by_cases hx : x = id
  · subst hx
    rw [resolve, Function.update_self]
    cases hc : cs x with
    | pending => exact Or.inr ⟨rfl, st, v, rfl, hJ⟩
    | completed st' v' => exact Or.inl rfl
    | timedOut => exact Or.inl rfl
  · rw [resolve, Function.update_of_ne hx]
    exact Or.inl rfl

end Completions

open Completions

/-- Resolving the completions of one request. -/
theorem ProposalTracker.answered_finishCompletions {J : Nat → Status → Prop} {ids : List Nat}
    {st : Status} (hJ : ∀ id ∈ ids, J id st) (cs : Completions) :
    Answered J cs (finishCompletions cs ids st) := by
  induction ids generalizing cs with
  | nil => exact .refl cs
  | cons id ids ih =>
    have hone := answered_resolve (J := J) (hJ id List.mem_cons_self) cs none
    exact hone.trans (ih (fun x hx => hJ x (List.mem_cons_of_mem _ hx)) _)

/-! ## Justified answers -/

def WriteProposal.hash (w : WriteProposal) : UInt64 :=
  requestPayloadHash w.op w.key w.value w.expected

def LogEntry.hash (e : LogEntry) : UInt64 := requestPayloadHash e.opType e.key e.value e.expected

/-- A status that does not report the outcome of a write. -/
def Status.Harmless (st : Status) : Prop :=
  st.code ≠ .ok ∧ st.code ≠ .conditionNotMet ∧ st.code ≠ .keyNotFound

/-- The state machine holds the record of this write, for a CAS with this outcome. -/
def KvStateMachine.Recorded (sm : KvStateMachine) (w : WriteProposal) (st : Status) : Prop :=
  ∃ record, sm.findRequest w.requestId = some record ∧ record.payloadHash = w.hash ∧
    (w.op = .cas → record.applyStatus = st)

/-- The table of the writes submitted so far, by completion. -/
abbrev Submitted := List (Nat × ProposeParam)

/-- A result of completion `id` that is harmless or that the records justify. -/
def Justified (submitted : Submitted) (sm : KvStateMachine) (id : Nat) (st : Status) : Prop :=
  ∀ w, (id, .write w) ∈ submitted → st.Harmless ∨ sm.Recorded w st

theorem Justified.of_harmless {submitted : Submitted} {sm : KvStateMachine} {id : Nat} {st : Status}
    (h : st.Harmless) : Justified submitted sm id st := fun _ _ => Or.inl h

namespace ProposalTracker

/-- The completions that wait for a tracked request were handed out before and were made for it. -/
structure Serves (submitted : Submitted) (next : Nat) (kv : Bytes × TrackedProposal) : Prop where
  id_ne : kv.1 ≠ []
  bounded : ∀ id ∈ kv.2.completions, id < next
  waiting : ∀ id ∈ kv.2.completions, ∀ p, (id, p) ∈ submitted →
    ∃ w, p = .write w ∧ w.requestId = kv.1 ∧ w.hash = kv.2.payloadHash ∧
      (w.op = .cas ↔ kv.2.op = .cas)

/-- A tracked request whose entry is in the log, not applied, and the first of its request. -/
structure Anchored (c : RaftCore) (sm : KvStateMachine) (kv : Bytes × TrackedProposal) : Prop where
  uncommitted : kv.2.committed = false
  unrecorded : sm.findRequest kv.1 = none
  logged : ∃ x, c.raftLog.logEntries.find? (RaftLog.isRequest kv.1) = some x ∧
    x.index = kv.2.index ∧ x.hash = kv.2.payloadHash
  unapplied : c.raftApply.lastApplied < kv.2.index

/-! ## Submitting -/

/-- A tracked request that waits to be proposed. -/
structure Candidate (w : WriteProposal) (kv : Bytes × TrackedProposal) : Prop where
  id_eq : w.requestId = kv.1
  hash_eq : w.hash = kv.2.payloadHash
  uncommitted : kv.2.committed = false

/-- The locals of `submit_batch`: `ws` are the writes queued for proposing. Neither the records nor the
log know them. -/
structure SubmissionInv (submitted : Submitted) (next : Nat) (c : RaftCore) (sm : KvStateMachine)
    (ws : List WriteProposal) (st : Submission) : Prop where
  params : st.params = ws.map .write
  candidateIds : st.candidateIds = ws.map WriteProposal.requestId
  distinct : (ws.map WriteProposal.requestId).Nodup
  fresh : ∀ w ∈ ws, w.requestId ≠ [] ∧ sm.findRequest w.requestId = none ∧
    c.raftLog.logEntries.find? (RaftLog.isRequest w.requestId) = none ∧
    w.requestId ∈ st.entries.map Prod.fst
  tracked : ∀ kv ∈ st.entries, Serves submitted next kv ∧
    (Anchored c sm kv ∨ ∃ w ∈ ws, Candidate w kv)

/-- A CAS and another write are never taken for one write: no call of the batch agrees in request id and
payload hash with a tracked request, or with another call, and differs in that. -/
structure Distinguishes (entries : List (Bytes × TrackedProposal)) (params : List ProposeParam) :
    Prop where
  tracked : ∀ w, .write w ∈ params → ∀ kv ∈ entries, kv.1 = w.requestId →
    kv.2.payloadHash = w.hash → (w.op = .cas ↔ kv.2.op = .cas)
  batch : ∀ w w', .write w ∈ params → .write w' ∈ params → w.requestId = w'.requestId →
    w.hash = w'.hash → (w.op = .cas ↔ w'.op = .cas)

/-- Where the tracked requests of a later state come from. -/
def From (entries : List (Bytes × TrackedProposal)) (param : ProposeParam)
    (kv : Bytes × TrackedProposal) : Prop :=
  (∃ kv₀ ∈ entries, kv.1 = kv₀.1 ∧ kv.2.payloadHash = kv₀.2.payloadHash ∧ kv.2.op = kv₀.2.op) ∨
    ∃ w, param = .write w ∧ kv.1 = w.requestId ∧ kv.2.payloadHash = w.hash ∧ kv.2.op = w.op

/-- What a call adds to the table agrees with the rest of the batch. -/
theorem Distinguishes.step {entries entries' : List (Bytes × TrackedProposal)} {param : ProposeParam}
    {params : List ProposeParam} (h : Distinguishes entries (param :: params))
    (hfrom : ∀ kv ∈ entries', From entries param kv) : Distinguishes entries' params where
  tracked := by
    intro w hw kv hkv hid hhash
    rcases hfrom kv hkv with ⟨kv₀, hkv₀, hid₀, hhash₀, hop₀⟩ | ⟨w₀, hparam, hid₀, hhash₀, hop₀⟩
    · rw [hop₀]
      exact h.tracked w (List.mem_cons_of_mem _ hw) kv₀ hkv₀ (hid₀ ▸ hid) (hhash₀ ▸ hhash)
    · rw [hop₀]
      refine h.batch w w₀ (List.mem_cons_of_mem _ hw) ?_ (hid.symm.trans hid₀) (hhash.symm.trans hhash₀)
      rw [← hparam]
      exact List.mem_cons_self
  batch := fun w w' hw hw' =>
    h.batch w w' (List.mem_cons_of_mem _ hw) (List.mem_cons_of_mem _ hw')

section Submit

variable {submitted : Submitted} {next : Nat} {c : RaftCore} {sm : KvStateMachine}

theorem reusedStatus_harmless : reusedStatus.Harmless := by
  refine ⟨?_, ?_, ?_⟩ <;> decide

variable {w : WriteProposal} {kv kv' : Bytes × TrackedProposal} {ws : List WriteProposal} {st : Submission}

/-- The answer from a record is justified by that record. -/
theorem recordStatus_justified {id : Nat} {record : RequestRecord}
    (hid : ∀ p, (id, p) ∈ submitted → p = .write w) (hrecord : sm.findRequest w.requestId = some record) :
    Justified submitted sm id (recordStatus record w.hash) := by
  intro w' hw'
  cases hid _ hw'
  unfold recordStatus
  split
  · next hhash => exact Or.inr ⟨record, hrecord, hhash, fun _ => rfl⟩
  · exact Or.inl reusedStatus_harmless

/-- One more completion for the request `id`. -/
def attach (id : Bytes) (completion : Nat) (kv : Bytes × TrackedProposal) : Bytes × TrackedProposal :=
  if kv.1 = id then (kv.1, { kv.2 with completions := kv.2.completions ++ [completion] }) else kv

theorem attach_fst (id : Bytes) (completion : Nat) (kv : Bytes × TrackedProposal) :
    (attach id completion kv).1 = kv.1 := by
  unfold attach
  split <;> rfl

/-- Attaching changes nothing but the completions. -/
theorem attach_snd (id : Bytes) (completion : Nat) (kv : Bytes × TrackedProposal) :
    (attach id completion kv).2.op = kv.2.op ∧
      (attach id completion kv).2.payloadHash = kv.2.payloadHash ∧
      (attach id completion kv).2.index = kv.2.index ∧
      (attach id completion kv).2.committed = kv.2.committed := by
  unfold attach
  split <;> exact ⟨rfl, rfl, rfl, rfl⟩

/-- The new completion of a call is made for the request it is attached to. -/
theorem Serves.attach (h : Serves submitted next kv) {completion : Nat} (hnext : completion < next)
    (hcall : ∀ p, (completion, p) ∈ submitted → p = .write w)
    (hsame : kv.1 = w.requestId → kv.2.payloadHash = w.hash ∧ (w.op = .cas ↔ kv.2.op = .cas)) :
    Serves submitted next (ProposalTracker.attach w.requestId completion kv) := by
  unfold ProposalTracker.attach
  split
  · next hid =>
    obtain ⟨hhash, hop⟩ := hsame hid
    refine ⟨h.id_ne, fun id hmem => ?_, fun id hmem p hp => ?_⟩
    · rcases List.mem_append.mp hmem with hmem | hmem
      · exact h.bounded id hmem
      · exact List.mem_singleton.mp hmem ▸ hnext
    · rcases List.mem_append.mp hmem with hmem | hmem
      · exact h.waiting id hmem p hp
      · cases List.mem_singleton.mp hmem
        exact ⟨w, hcall p hp, hid.symm, hhash.symm, hop⟩
  · exact h

/-- Being anchored depends on these four values only. -/
theorem Anchored.congr (h : Anchored c sm kv) (hid : kv'.1 = kv.1)
    (hhash : kv'.2.payloadHash = kv.2.payloadHash) (hindex : kv'.2.index = kv.2.index)
    (hcommitted : kv'.2.committed = kv.2.committed) : Anchored c sm kv' where
  uncommitted := hcommitted.trans h.uncommitted
  unrecorded := hid ▸ h.unrecorded
  logged := by
    obtain ⟨x, hx, hxi, hxh⟩ := h.logged
    exact ⟨x, hid ▸ hx, hxi.trans hindex.symm, hxh.trans hhash.symm⟩
  unapplied := hindex ▸ h.unapplied

/-- The answer of a call changes nothing that is tracked. -/
theorem SubmissionInv.answer (h : SubmissionInv submitted next c sm ws st) (cs : Completions) :
    SubmissionInv submitted next c sm ws { st with completions := cs } :=
  ⟨h.params, h.candidateIds, h.distinct, h.fresh, h.tracked⟩

/-- Tracked requests with one id have one payload: the log or the batch decides it. -/
theorem SubmissionInv.hash_unique (h : SubmissionInv submitted next c sm ws st) (hkv : kv ∈ st.entries)
    (hkv' : kv' ∈ st.entries) (hid : kv.1 = kv'.1) :
    kv.2.payloadHash = kv'.2.payloadHash := by
  -- a request the log knows is not one that waits to be proposed
  have hexclusive : ∀ {x y : Bytes × TrackedProposal}, x.1 = y.1 → Anchored c sm x →
      (∃ w ∈ ws, Candidate w y) → False := by
    rintro x y hxy hx ⟨w, hw, hcand⟩
    obtain ⟨e, he, -⟩ := hx.logged
    rw [hxy, ← hcand.id_eq, (h.fresh w hw).2.2.1] at he
    cases he
  rcases (h.tracked kv hkv).2 with ha | hc
  · rcases (h.tracked kv' hkv').2 with ha' | hc'
    · obtain ⟨x, hx, -, hxh⟩ := ha.logged
      obtain ⟨y, hy, -, hyh⟩ := ha'.logged
      rw [hid, hy] at hx
      cases hx
      exact hxh.symm.trans hyh
    · exact (hexclusive hid ha hc').elim
  · rcases (h.tracked kv' hkv').2 with ha' | hc'
    · exact (hexclusive hid.symm ha' hc).elim
    · obtain ⟨w, hw, hcand⟩ := hc
      obtain ⟨w', hw', hcand'⟩ := hc'
      have heq : w = w' := List.inj_on_of_nodup_map h.distinct hw hw'
        (hcand.id_eq.trans (hid.trans hcand'.id_eq.symm))
      rw [← hcand.hash_eq, ← hcand'.hash_eq, heq]

/-- What is assumed about the replica a batch is submitted to: applied writes have records, and the log
finds its requests. -/
structure Ready (c : RaftCore) (sm : KvStateMachine) : Prop where
  consecutive : c.raftLog.Consecutive
  indexed : c.raftLog.Indexed
  records : ∀ x ∈ c.raftLog.logEntries, x.index ≤ c.raftApply.lastApplied →
    x.opType.isKvWriteOp = true → x.requestId ≠ [] → sm.findRequest x.requestId ≠ none

/-- Another call of a request that is tracked already. -/
theorem SubmissionInv.attach (h : SubmissionInv submitted next c sm ws st) {completion : Nat}
    (hnext : completion < next) (hcall : ∀ p, (completion, p) ∈ submitted → p = .write w)
    (hsame : ∀ kv ∈ st.entries, kv.1 = w.requestId →
      kv.2.payloadHash = w.hash ∧ (w.op = .cas ↔ kv.2.op = .cas)) :
    SubmissionInv submitted next c sm ws
      { st with entries := st.entries.map (ProposalTracker.attach w.requestId completion) } := by
  have hkeys : (st.entries.map (ProposalTracker.attach w.requestId completion)).map Prod.fst =
      st.entries.map Prod.fst := by
    rw [List.map_map]
    exact List.map_congr_left fun kv _ => attach_fst _ _ kv
  refine ⟨h.params, h.candidateIds, h.distinct, fun x hx => ?_, fun kv hkv => ?_⟩
  · simp only [hkeys]
    exact h.fresh x hx
  · obtain ⟨kv₀, hkv₀, rfl⟩ := List.mem_map.mp hkv
    obtain ⟨hserves, hrest⟩ := h.tracked kv₀ hkv₀
    obtain ⟨-, hhash, hindex, hcommitted⟩ := attach_snd w.requestId completion kv₀
    have hid := attach_fst w.requestId completion kv₀
    refine ⟨hserves.attach hnext hcall (hsame kv₀ hkv₀), ?_⟩
    rcases hrest with hanchored | ⟨x, hx, hcand⟩
    · exact Or.inl (hanchored.congr hid hhash hindex hcommitted)
    · exact Or.inr ⟨x, hx, hid ▸ hcand.id_eq, hhash ▸ hcand.hash_eq,
        hcommitted.trans hcand.uncommitted⟩

/-- A new tracked request at the end of the list. -/
theorem SubmissionInv.push (h : SubmissionInv submitted next c sm ws st) (ws' : List WriteProposal)
    (hserves : Serves submitted next kv) (hkv : Anchored c sm kv ∨ ∃ w ∈ ws', Candidate w kv)
    (hsub : ws ⊆ ws') (hdistinct : (ws'.map WriteProposal.requestId).Nodup)
    (hfresh : ∀ w ∈ ws', w ∈ ws ∨ (w.requestId = kv.1 ∧ sm.findRequest w.requestId = none ∧
      c.raftLog.logEntries.find? (RaftLog.isRequest w.requestId) = none)) :
    SubmissionInv submitted next c sm ws'
      { entries := st.entries ++ [kv]
        completions := st.completions
        params := ws'.map .write
        candidateIds := ws'.map WriteProposal.requestId } := by
  refine ⟨rfl, rfl, hdistinct, fun w hw => ?_, fun x hx => ?_⟩
  · rcases hfresh w hw with hold | ⟨hid, hsm, hlog⟩
    · obtain ⟨h1, h2, h3, h4⟩ := h.fresh w hold
      refine ⟨h1, h2, h3, ?_⟩
      rw [List.map_append]
      exact List.mem_append_left _ h4
    · refine ⟨hid ▸ hserves.id_ne, hsm, hlog, ?_⟩
      rw [List.map_append, hid]
      exact List.mem_append_right _ (List.mem_singleton.mpr rfl)
  · rcases List.mem_append.mp hx with hx | hx
    · obtain ⟨hserves', hrest⟩ := h.tracked x hx
      exact ⟨hserves', hrest.imp id fun ⟨w, hw, hcand⟩ => ⟨w, hsub hw, hcand⟩⟩
    · cases List.mem_singleton.mp hx
      exact ⟨hserves, hkv⟩

/-- **One call of a batch.** -/
theorem submitOne_spec (hready : Ready c sm) (h : SubmissionInv submitted next c sm ws st)
    {call : ProposeCall} (hnext : call.completion < next)
    (hcall : ∀ p, (call.completion, p) ∈ submitted → p = call.param)
    (hop : ∀ w, call.param = .write w → ∀ kv ∈ st.entries, kv.1 = w.requestId →
      kv.2.payloadHash = w.hash → (w.op = .cas ↔ kv.2.op = .cas)) :
    (∃ ws', SubmissionInv submitted next c sm ws' (submitOne c sm st call)) ∧
      Answered (Justified submitted sm) st.completions (submitOne c sm st call).completions ∧
      ∀ kv ∈ (submitOne c sm st call).entries, From st.entries call.param kv := by
  obtain ⟨param, completion⟩ := call
  have hkeep : ∀ kv ∈ st.entries, From st.entries param kv :=
    fun kv hkv => Or.inl ⟨kv, hkv, rfl, rfl, rfl⟩
  -- every early return answers the call and tracks nothing new
  have hfinish : ∀ status, Justified submitted sm completion status →
      (∃ ws', SubmissionInv submitted next c sm ws'
        { st with completions := st.completions.resolve completion status none }) ∧
      Answered (Justified submitted sm) st.completions
        (st.completions.resolve completion status none) ∧
      ∀ kv ∈ st.entries, From st.entries param kv :=
    fun status hJ => ⟨⟨ws, h.answer _⟩, answered_resolve hJ _ _, hkeep⟩
  have hrefuse : ∀ code msg, (⟨code, msg⟩ : Status).Harmless →
      Justified submitted sm completion ⟨code, msg⟩ := fun code msg hst => .of_harmless hst
  cases param with
  | noop => exact hfinish _ (hrefuse _ _ (by simp [Status.Harmless]))
  | configChange p => exact hfinish _ (hrefuse _ _ (by simp [Status.Harmless]))
  | write w =>
    simp only [submitOne]
    split
    · exact hfinish _ (hrefuse _ _ (by simp [Status.Harmless]))
    next hid =>
    split
    · next record hrecord => exact hfinish _ (recordStatus_justified hcall hrecord)
    next hunrecorded =>
    split
    · next tracked hlookup =>
      have hmem : (w.requestId, tracked) ∈ st.entries := by
        obtain ⟨l₁, l₂, heq, -⟩ := List.lookup_eq_some_iff.mp hlookup
        rw [heq]
        exact List.mem_append_right _ List.mem_cons_self
      split
      · exact hfinish _ (.of_harmless reusedStatus_harmless)
      next hhash =>
      split
      · next hcommitted =>
        have huncommitted : tracked.committed = false := by
          rcases (h.tracked _ hmem).2 with hanchored | ⟨_, _, hcand⟩
          · exact hanchored.uncommitted
          · exact hcand.uncommitted
        simp [huncommitted] at hcommitted
      · refine ⟨⟨ws, h.attach hnext hcall fun kv hkv hk => ?_⟩, .refl _, fun kv hkv => ?_⟩
        · have hpayload : kv.2.payloadHash = w.hash :=
            (h.hash_unique hkv hmem hk).trans (not_not.mp hhash)
          exact ⟨hpayload, hop w rfl kv hkv hk hpayload⟩
        · obtain ⟨kv₀, hkv₀, rfl⟩ := List.mem_map.mp hkv
          obtain ⟨h1, h2, -, -⟩ := attach_snd w.requestId completion kv₀
          exact Or.inl ⟨kv₀, hkv₀, attach_fst _ _ _, h2, h1⟩
    -- a request that is not tracked: the log may still hold it from an earlier leader
    next hlookup =>
    -- the new table entry waits for this call alone
    have hserves : ∀ index, Serves submitted next (w.requestId,
        { op := w.op, payloadHash := w.hash, index, completions := [completion] }) := by
      intro index
      refine ⟨hid, fun id hmem => ?_, fun id hmem p hp => ?_⟩
      · exact List.mem_singleton.mp hmem ▸ hnext
      · cases List.mem_singleton.mp hmem
        exact ⟨w, hcall p hp, rfl, rfl, Iff.rfl⟩
    have hnew : ∀ index, ∀ kv ∈ st.entries ++ [(w.requestId,
        ({ op := w.op, payloadHash := w.hash, index, completions := [completion] } :
          TrackedProposal))], From st.entries (.write w) kv := by
      intro index kv hkv
      rcases List.mem_append.mp hkv with hkv | hkv
      · exact hkeep kv hkv
      · cases List.mem_singleton.mp hkv
        exact Or.inr ⟨w, rfl, rfl, rfl, rfl⟩
    split
    · next logged hlogged =>
      rw [RaftLog.findRequest_eq hready.consecutive hready.indexed hid] at hlogged
      split
      · exact hfinish _ (.of_harmless reusedStatus_harmless)
      next hhash =>
      split
      · exact hfinish _ (hrefuse _ _ (by simp [Status.Harmless]))
      · have hrequest := List.find?_some hlogged
        simp only [RaftLog.isRequest, Bool.and_eq_true, beq_iff_eq] at hrequest
        -- an applied write would have a record
        have hunapplied : c.raftApply.lastApplied < logged.index := by
          by_contra hle
          refine hready.records logged (List.mem_of_find?_eq_some hlogged) (Nat.le_of_not_lt hle)
            hrequest.2 (hrequest.1 ▸ hid) ?_
          rw [hrequest.1]
          exact hunrecorded
        have hanchored : Anchored c sm (w.requestId,
            { op := w.op, payloadHash := w.hash, index := logged.index
              completions := [completion] }) :=
          ⟨rfl, hunrecorded, ⟨logged, hlogged, rfl, not_not.mp hhash⟩, hunapplied⟩
        have hpush := h.push ws (hserves logged.index) (Or.inl hanchored)
          (List.Subset.refl _) h.distinct fun x hx => Or.inl hx
        rw [← h.params, ← h.candidateIds] at hpush
        exact ⟨⟨ws, hpush⟩, .refl _, hnew logged.index⟩
    · next hlogged =>
      rw [RaftLog.findRequest_eq hready.consecutive hready.indexed hid] at hlogged
      have hnotin : w.requestId ∉ ws.map WriteProposal.requestId := by
        intro hmem
        obtain ⟨x, hx, hxid⟩ := List.mem_map.mp hmem
        obtain ⟨kv, hkv, hkey⟩ := List.mem_map.mp (h.fresh x hx).2.2.2
        have := List.lookup_eq_none_iff.mp hlookup kv hkv
        simp [hkey, hxid] at this
      have hpush := h.push (ws ++ [w]) (hserves 0)
        (Or.inr ⟨w, List.mem_append_right _ (List.mem_singleton.mpr rfl), rfl, rfl, rfl⟩)
        (List.subset_append_left _ _) (by
          rw [List.map_append, List.nodup_append]
          refine ⟨h.distinct, List.nodup_singleton _, ?_⟩
          intro a ha b hb hab
          cases List.mem_singleton.mp hb
          exact hnotin (hab ▸ ha)) fun x hx => by
            rcases List.mem_append.mp hx with hx | hx
            · exact Or.inl hx
            · cases List.mem_singleton.mp hx
              exact Or.inr ⟨rfl, hunrecorded, hlogged⟩
      refine ⟨⟨ws ++ [w], ?_⟩, .refl _, hnew 0⟩
      rw [List.map_append, List.map_append, ← h.params, ← h.candidateIds] at hpush
      exact hpush

/-- **Submitting a batch.** -/
theorem submit_spec (hready : Ready c sm) {calls : List ProposeCall}
    (h : SubmissionInv submitted next c sm ws st) (hnext : ∀ call ∈ calls, call.completion < next)
    (hcalls : ∀ call ∈ calls, ∀ p, (call.completion, p) ∈ submitted → p = call.param)
    (hop : Distinguishes st.entries (calls.map ProposeCall.param)) :
    (∃ ws', SubmissionInv submitted next c sm ws' (calls.foldl (submitOne c sm) st)) ∧
      Answered (Justified submitted sm) st.completions
        (calls.foldl (submitOne c sm) st).completions := by
  induction calls generalizing st ws with
  | nil => exact ⟨⟨ws, h⟩, .refl _⟩
  | cons call calls ih =>
    obtain ⟨⟨ws', h'⟩, hanswered, hfrom⟩ := submitOne_spec hready h
      (hnext call List.mem_cons_self) (hcalls call List.mem_cons_self)
      fun w hw kv hkv => hop.tracked w (hw ▸ List.mem_cons_self) kv hkv
    obtain ⟨hinv, hrest⟩ := ih h' (fun x hx => hnext x (List.mem_cons_of_mem _ hx))
      (fun x hx => hcalls x (List.mem_cons_of_mem _ hx)) (hop.step hfrom)
    exact ⟨hinv, hanswered.trans hrest⟩

end Submit

end ProposalTracker

/-! ## Proposing -/

namespace CoreState

/-- The result of proposing `w`, when `new` are the entries the batch appended behind index `last`. -/
def Outcome (new : List LogEntry) (last : Nat) (w : WriteProposal) : Except Status Nat → Prop
  | .error st => st.Harmless
  | .ok i => ∃ x, new.find? (RaftLog.isRequest w.requestId) = some x ∧ x.index = i ∧ last < i ∧
      x.hash = w.hash

/-- A refused proposal is answered with an error of its own. -/
theorem validateProposal_harmless {param : ProposeParam}
    (h : (RaftCore.validateProposal param).fail = true) :
    (RaftCore.validateProposal param).Harmless := by
  unfold RaftCore.validateProposal at h ⊢
  split
  · split
    · simp [Status.Harmless]
    · next hop => simp [hop] at h
  · cases h
  · split
    · simp [Status.Harmless]
    · next hop => simp [hop] at h

/-- So is a batch that reaches no writable leader. -/
theorem ensureWritableLeader_harmless {c : RaftCore} (h : c.ensureWritableLeader.fail = true) :
    c.ensureWritableLeader.Harmless := by
  by_cases hr : c.recovering = true
  · simp [Status.Harmless, RaftCore.ensureWritableLeader, RaftCore.ensureReady, hr, Status.fail]
  by_cases hl : c.election.isLeader = true
  · by_cases hv : c.membership.isVoter c.selfId = true
    · simp [RaftCore.ensureWritableLeader, RaftCore.ensureReady, hr, hl, hv] at h
    · simp [Status.Harmless, RaftCore.ensureWritableLeader, RaftCore.ensureReady, hr, hl, hv]
  · simp [Status.Harmless, RaftCore.ensureWritableLeader, RaftCore.ensureReady, hr, hl]

variable {ws : List WriteProposal}

/-- The loop of `propose_batch`, for writes with different request ids: the entries it appends carry
only these ids, and every result names the entry of its own write. -/
theorem proposeEach_spec {s : CoreState} (hs : s.core.raftLog.Consecutive)
    (hdistinct : (ws.map WriteProposal.requestId).Nodup) :
    ∃ new, (s.proposeEach (ws.map .write)).2.core.raftLog.logEntries =
        s.core.raftLog.logEntries ++ new ∧
      (∀ e ∈ new, e.requestId ∈ ws.map WriteProposal.requestId) ∧
      List.Forall₂ (Outcome new s.core.raftLog.lastLogIndex) ws
        (s.proposeEach (ws.map .write)).1 := by
  induction ws generalizing s with
  | nil => exact ⟨[], (List.append_nil _).symm, by simp, .nil⟩
  | cons w ws ih =>
    rw [List.map_cons, List.nodup_cons] at hdistinct
    obtain ⟨hnotin, hdistinct⟩ := hdistinct
    simp only [List.map_cons, proposeEach]
    split
    · next hinvalid =>
      obtain ⟨new, hlog, hids, hout⟩ := ih hs hdistinct
      refine ⟨new, hlog, fun e he => List.mem_cons_of_mem _ (hids e he), .cons ?_ hout⟩
      exact validateProposal_harmless hinvalid
    · next hvalid =>
      have hs' : (s.appendNewEntry (.write w)).core.raftLog.Consecutive :=
        RaftLog.appendNewEntry_consecutive hs _ _
      obtain ⟨new, hlog, hids, hout⟩ := ih hs' hdistinct
      -- the entry stands in front of all later ones, so its request is found there first
      set entry := RaftLog.newEntry s.core.election.currentTerm (s.core.raftLog.lastLogIndex + 1)
        (.write w) with hentry
      have hop : w.op.isKvWriteOp = true := by
        by_contra hcon
        have hno : w.op.isKvWriteOp = false := by simpa using hcon
        simp [RaftCore.validateProposal, hno, Status.fail] at hvalid
      have hrequest : RaftLog.isRequest w.requestId entry = true := by
        simp [RaftLog.isRequest, hentry, RaftLog.newEntry, hop]
      refine ⟨entry :: new, ?_, ?_, .cons ?_ ?_⟩
      · rw [hlog]
        show (s.core.raftLog.logEntries ++ [entry]) ++ new = _
        rw [List.append_assoc, List.singleton_append]
      · intro e he
        rcases List.mem_cons.mp he with rfl | he
        · exact List.mem_cons_self
        · exact List.mem_cons_of_mem _ (hids e he)
      · exact ⟨entry, List.find?_cons_of_pos hrequest, rfl, Nat.lt_succ_self _, rfl⟩
      · -- the entries of the later writes lie behind this one and carry other ids
        have hlast : (s.appendNewEntry (.write w)).core.raftLog.lastLogIndex =
            s.core.raftLog.lastLogIndex + 1 := by
          rw [RaftLog.lastLogIndex_eq hs', RaftLog.lastLogIndex_eq hs]
          simp [appendNewEntry, RaftLog.appendNewEntry, Nat.add_assoc]
        have hlater : ∀ w' ∈ ws, ∀ res, Outcome new (s.core.raftLog.lastLogIndex + 1) w' res →
            Outcome (entry :: new) s.core.raftLog.lastLogIndex w' res := by
          intro w' hw' res hres
          cases res with
          | error st => exact hres
          | ok i =>
            obtain ⟨x, hx, hxi, hlt, hhash⟩ := hres
            refine ⟨x, ?_, hxi, by omega, hhash⟩
            have hne : ¬ RaftLog.isRequest w'.requestId entry = true := by
              intro hreq
              simp only [RaftLog.isRequest, Bool.and_eq_true, beq_iff_eq] at hreq
              have hid : w.requestId = w'.requestId := hreq.1
              exact hnotin (hid ▸ List.mem_map_of_mem hw')
            rw [List.find?_cons_of_neg hne]
            exact hx
        rw [hlast] at hout
        exact ((List.forall₂_and_left _ _).mpr ⟨hlater, hout⟩).imp fun w' res h => h.1 res h.2

/-- **Proposing a batch** of writes with different request ids. -/
theorem proposeBatch_spec {c : RaftCore} (hc : c.raftLog.Consecutive)
    (hdistinct : (ws.map WriteProposal.requestId).Nodup) :
    ∃ new, (proposeBatch { core := c } (ws.map .write)).2.core.raftLog.logEntries =
        c.raftLog.logEntries ++ new ∧
      List.Forall₂ (Outcome new c.raftLog.lastLogIndex) ws
        (proposeBatch { core := c } (ws.map .write)).1 := by
  simp only [proposeBatch]
  split
  · next hnil =>
    have hws : ws = [] := List.map_eq_nil_iff.mp hnil
    subst hws
    exact ⟨[], (List.append_nil _).symm, .nil⟩
  split
  · next hrefused =>
    refine ⟨[], (List.append_nil _).symm, ?_⟩
    rw [List.map_map, List.forall₂_map_right_iff]
    exact List.forall₂_same.mpr fun _ _ => ensureWritableLeader_harmless hrefused
  · obtain ⟨new, hlog, -, hout⟩ := proposeEach_spec (s := { core := c }) hc hdistinct
    refine ⟨new, ?_, hout⟩
    split
    · rw [(broadcastAndCommit_attends _).2, hlog]
    · exact hlog

end CoreState

/-! ## Settling -/

namespace ProposalTracker

section Settle

variable {submitted : Submitted} {next : Nat} {c : RaftCore} {sm : KvStateMachine}

/-- The outcome of a proposal, read off the log after it. -/
def Settled (c : RaftCore) (w : WriteProposal) : Except Status Nat → Prop
  | .error st => st.Harmless
  | .ok i => ∃ x, c.raftLog.logEntries.find? (RaftLog.isRequest w.requestId) = some x ∧
      x.index = i ∧ c.raftApply.lastApplied < i ∧ x.hash = w.hash

/-- A failed request is answered and forgotten. -/
theorem failRequest_spec (t : Tracking) (id : Bytes) {st : Status} (hst : st.Harmless) :
    Answered (Justified submitted sm) t.completions (failRequest t id st).completions ∧
      ∀ kv ∈ (failRequest t id st).entries, kv ∈ t.entries ∧ kv.1 ≠ id := by
  unfold failRequest
  split
  · next hnone =>
    refine ⟨.refl _, fun kv hkv => ⟨hkv, fun hid => ?_⟩⟩
    have := List.lookup_eq_none_iff.mp hnone kv hkv
    simp [hid] at this
  · next e hsome =>
    refine ⟨answered_finishCompletions (fun _ _ => .of_harmless hst) _, fun kv hkv => ?_⟩
    obtain ⟨hmem, hne⟩ := List.mem_filter.mp hkv
    exact ⟨hmem, by simpa using hne⟩

variable {w : WriteProposal} {ws : List WriteProposal}

/-- One result of the batch: its request is anchored or dropped, the others are left as they are. -/
theorem settle_spec {res : Except Status Nat} (hres : Settled c w res) (hfresh : sm.findRequest w.requestId = none)
    (hnotin : w.requestId ∉ ws.map WriteProposal.requestId) {t : Tracking}
    (ht : ∀ kv ∈ t.entries, Serves submitted next kv ∧ (Anchored c sm kv ∨ ∃ x ∈ w :: ws, Candidate x kv)) :
    (∀ kv ∈ (settle t w.requestId res).entries, Serves submitted next kv ∧
        (Anchored c sm kv ∨ ∃ x ∈ ws, Candidate x kv)) ∧
      Answered (Justified submitted sm) t.completions (settle t w.requestId res).completions := by
  -- a request of another id is no candidate for this result
  have hother : ∀ {kv : Bytes × TrackedProposal}, kv.1 ≠ w.requestId → (∃ x ∈ w :: ws, Candidate x kv) →
      ∃ x ∈ ws, Candidate x kv := by
    rintro kv hne ⟨x, hx, hcand⟩
    rcases List.mem_cons.mp hx with rfl | hx
    · exact absurd hcand.id_eq.symm hne
    · exact ⟨x, hx, hcand⟩
  cases res with
  | error st =>
    have hspec : Answered (Justified submitted sm) _ _ ∧ _ := failRequest_spec t w.requestId hres
    obtain ⟨hanswered, hkeep⟩ := hspec
    refine ⟨fun kv hkv => ?_, hanswered⟩
    obtain ⟨hmem, hne⟩ := hkeep kv hkv
    obtain ⟨hserves, hrest⟩ := ht kv hmem
    exact ⟨hserves, hrest.imp id (hother hne)⟩
  | ok i =>
    obtain ⟨x, hx, hxi, hlt, hhash⟩ := hres
    simp only [settle]
    rw [if_neg (by omega)]
    refine ⟨fun kv hkv => ?_, .refl _⟩
    obtain ⟨kv₀, hkv₀, rfl⟩ := List.mem_map.mp hkv
    obtain ⟨hserves, hrest⟩ := ht kv₀ hkv₀
    split
    · next hid =>
      -- whether it was just proposed or found before, the log decides where it is
      refine ⟨⟨hserves.id_ne, hserves.bounded, hserves.waiting⟩, Or.inl ?_⟩
      have hpayload : kv₀.2.committed = false ∧ x.hash = kv₀.2.payloadHash := by
        rcases hrest with hanchored | ⟨y, hy, hcand⟩
        · obtain ⟨z, hz, -, hzh⟩ := hanchored.logged
          rw [hid, hx] at hz
          cases hz
          exact ⟨hanchored.uncommitted, hzh⟩
        · rcases List.mem_cons.mp hy with rfl | hy
          · exact ⟨hcand.uncommitted, hhash.trans hcand.hash_eq⟩
          · have hmem : y.requestId ∈ ws.map WriteProposal.requestId := List.mem_map_of_mem hy
            rw [hcand.id_eq, hid] at hmem
            exact absurd hmem hnotin
      exact ⟨hpayload.1, hid ▸ hfresh, ⟨x, hid ▸ hx, hxi, hpayload.2⟩, hlt⟩
    · next hne => exact ⟨hserves, hrest.imp id (hother hne)⟩

/-- **Settling a batch.** Every request that is still tracked is anchored in the log. -/
theorem settleAll_spec {results : List (Except Status Nat)} (hout : List.Forall₂ (Settled c) ws results)
    (hdistinct : (ws.map WriteProposal.requestId).Nodup)
    (hfresh : ∀ w ∈ ws, sm.findRequest w.requestId = none) {t : Tracking}
    (ht : ∀ kv ∈ t.entries, Serves submitted next kv ∧ (Anchored c sm kv ∨ ∃ w ∈ ws, Candidate w kv)) :
    (∀ kv ∈ (settleAll t ((ws.map WriteProposal.requestId).zip results)).entries,
        Serves submitted next kv ∧ Anchored c sm kv) ∧
      Answered (Justified submitted sm) t.completions
        (settleAll t ((ws.map WriteProposal.requestId).zip results)).completions := by
  induction hout generalizing t with
  | nil =>
    refine ⟨fun kv hkv => ?_, .refl _⟩
    obtain ⟨hserves, hanchored | ⟨w, hw, -⟩⟩ := ht kv hkv
    · exact ⟨hserves, hanchored⟩
    · cases hw
  | cons hres _ ih =>
    rw [List.map_cons, List.nodup_cons] at hdistinct
    obtain ⟨hsettled, hone⟩ := settle_spec hres (hfresh _ List.mem_cons_self) hdistinct.1 ht
    obtain ⟨hinv, hrest⟩ := ih hdistinct.2 (fun x hx => hfresh x (List.mem_cons_of_mem _ hx)) hsettled
    exact ⟨hinv, hone.trans hrest⟩

end Settle

/-! ## Advancing -/

section Advance

variable {submitted : Submitted} {next : Nat} {core : RaftCore} {sm : KvStateMachine}

/-- A tracked request after everything committed has been applied: it is not committed yet, or its record
is there. -/
def Resolved (core : RaftCore) (sm : KvStateMachine) (kv : Bytes × TrackedProposal) : Prop :=
  kv.2.committed = false ∧ (core.raftApply.commitIndex < kv.2.index ∨
    ∃ record, sm.findRequest kv.1 = some record ∧ record.payloadHash = kv.2.payloadHash)

/-- One tracked request: answered from its record when its index is committed, kept otherwise. -/
theorem advanceEntry_spec (happlied : core.raftApply.lastApplied = core.raftApply.commitIndex)
    (t : Tracking) {kv : Bytes × TrackedProposal} (hserves : Serves submitted next kv)
    (hresolved : Resolved core sm kv) :
    Answered (Justified submitted sm) t.completions (advanceEntry core sm t kv).completions ∧
      ∀ x ∈ (advanceEntry core sm t kv).entries,
        x ∈ t.entries ∨ (x = kv ∧ (core.raftApply.commitIndex < kv.2.index ∨ kv.2.index = 0)) := by
  obtain ⟨huncommitted, hrest⟩ := hresolved
  by_cases hdue : 0 < kv.2.index ∧ kv.2.index ≤ core.raftApply.commitIndex
  · obtain ⟨record, hrecord, hhash⟩ := hrest.resolve_left (Nat.not_lt.mpr hdue.2)
    have happlied' : kv.2.index ≤ core.raftApply.lastApplied := happlied ▸ hdue.2
    -- what the waiting completions were made for
    have hwaiting : ∀ id ∈ kv.2.completions, ∀ st : Status,
        (kv.2.op = .cas → record.applyStatus = st) → Justified submitted sm id st := by
      intro id hid st hst w hw
      obtain ⟨w', hw', hrid, hwh, hop⟩ := hserves.waiting id hid _ hw
      cases hw'
      refine Or.inr ⟨record, hrid ▸ hrecord, hhash.trans hwh.symm, fun hcas => hst (hop.mp hcas)⟩
    -- only a CAS is answered with the outcome the record carries
    by_cases hcas : kv.2.op = .cas
    · have hstatus : casStatus sm kv.1 kv.2.payloadHash = record.applyStatus := by
        simp [casStatus, hrecord, recordStatus, hhash]
      have heq : advanceEntry core sm t kv =
          { entries := t.entries
            completions := finishCompletions t.completions kv.2.completions record.applyStatus } := by
        simp [advanceEntry, markCommitted, retireApplied, huncommitted, hdue, hcas, happlied', hstatus]
      rw [heq]
      exact ⟨answered_finishCompletions (fun id hid => hwaiting id hid _ fun _ => rfl) _,
        fun x hx => Or.inl hx⟩
    · have heq : advanceEntry core sm t kv =
          { entries := t.entries
            completions := finishCompletions t.completions kv.2.completions .OK } := by
        simp [advanceEntry, markCommitted, retireApplied, huncommitted, hdue, hcas, happlied']
      rw [heq]
      exact ⟨answered_finishCompletions (fun id hid => hwaiting id hid _ fun h => absurd h hcas) _,
        fun x hx => Or.inl hx⟩
  · have heq : advanceEntry core sm t kv =
        { entries := t.entries ++ [kv], completions := t.completions } := by
      have hmark : markCommitted core.raftApply.commitIndex kv.2 t.completions =
          (kv.2, t.completions) := by
        simp only [markCommitted, huncommitted]
        rw [if_neg (by simpa using hdue)]
      simp [advanceEntry, hmark, retireApplied, huncommitted]
    rw [heq]
    refine ⟨.refl _, fun x hx => ?_⟩
    rcases List.mem_append.mp hx with hx | hx
    · exact Or.inl hx
    · exact Or.inr ⟨List.mem_singleton.mp hx, by omega⟩

/-- A replica that does not lead answers everything with an error. -/
theorem failAll_spec (t : Tracking) {st : Status} (hst : st.Harmless) :
    Answered (Justified submitted sm) t.completions (failAll t st).completions := by
  have hfold : ∀ (entries : List (Bytes × TrackedProposal)) (cs : Completions),
      Answered (Justified submitted sm) cs
        (entries.foldl (fun cs kv => finishCompletions cs kv.2.completions st) cs) := by
    intro entries
    induction entries with
    | nil => exact fun cs => .refl cs
    | cons kv entries ih =>
      intro cs
      have hone : Answered (Justified submitted sm) cs (finishCompletions cs kv.2.completions st) :=
        answered_finishCompletions (fun _ _ => .of_harmless hst) cs
      exact hone.trans (ih _)
  exact hfold t.entries t.completions

/-- **Advancing.** Whatever is answered is justified by the records; a leader keeps what is not committed
yet, anyone else keeps nothing. -/
theorem advance_spec (happlied : core.raftApply.lastApplied = core.raftApply.commitIndex) {t : Tracking}
    (ht : ∀ kv ∈ t.entries, Serves submitted next kv ∧ Resolved core sm kv ∧ 0 < kv.2.index) :
    Answered (Justified submitted sm) t.completions (advance core sm t).completions ∧
      ∀ kv ∈ (advance core sm t).entries, kv ∈ t.entries ∧ core.isLeader = true ∧
        core.raftApply.commitIndex < kv.2.index := by
  have hfold : ∀ (entries : List (Bytes × TrackedProposal)) (t' : Tracking),
      (∀ kv ∈ entries, Serves submitted next kv ∧ Resolved core sm kv ∧ 0 < kv.2.index) →
      Answered (Justified submitted sm) t'.completions
          (entries.foldl (advanceEntry core sm) t').completions ∧
        ∀ x ∈ (entries.foldl (advanceEntry core sm) t').entries,
          x ∈ t'.entries ∨ (x ∈ entries ∧ core.raftApply.commitIndex < x.2.index) := by
    intro entries
    induction entries with
    | nil => exact fun t' _ => ⟨.refl _, fun x hx => Or.inl hx⟩
    | cons kv entries ih =>
      intro t' hentries
      obtain ⟨hserves, hresolved, hpos⟩ := hentries kv List.mem_cons_self
      obtain ⟨hone, hmem⟩ := advanceEntry_spec happlied t' hserves hresolved
      obtain ⟨hrest, hmem'⟩ := ih (advanceEntry core sm t' kv)
        fun x hx => hentries x (List.mem_cons_of_mem _ hx)
      refine ⟨hone.trans hrest, fun x hx => ?_⟩
      rcases hmem' x hx with hx | ⟨hx, hlt⟩
      · rcases hmem x hx with hx | ⟨rfl, hlt⟩
        · exact Or.inl hx
        · exact Or.inr ⟨List.mem_cons_self, by omega⟩
      · exact Or.inr ⟨List.mem_cons_of_mem _ hx, hlt⟩
  obtain ⟨hanswered, hmem⟩ := hfold t.entries { entries := [], completions := t.completions } ht
  simp only [advance]
  split
  · next hleader =>
    refine ⟨hanswered, fun kv hkv => ?_⟩
    rcases hmem kv hkv with hkv | ⟨hkv, hlt⟩
    · cases hkv
    · exact ⟨hkv, hleader, hlt⟩
  · refine ⟨hanswered.trans (failAll_spec _ (by simp [Status.Harmless])), fun kv hkv => ?_⟩
    cases hkv

end Advance

end ProposalTracker

end AdvisKV
