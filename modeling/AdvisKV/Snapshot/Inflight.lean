import AdvisKV.Lib.Machine
import AdvisKV.Model.SampleCodec
import AdvisKV.Recovery.Boot
import AdvisKV.Replica.LoopSteps

/-!
# AdvisKV — transfers in flight

A leader marks a peer when it asks for a snapshot transfer to it and asks for no second one while the mark
stands. The mark goes when the answer or the failure of the transfer is handled, and only if term and index are
those of the transfer; the leader's own snapshot may have moved on by then. Here the marks are compared with a list
that is kept outside of the core: the transfers that were handed to the dispatcher and whose event has not been
handled.

Main results:

* `CoreEvent.step_accounts` — a handler asks for a transfer exactly where it marks the peer.
* `ReplicaState.executeEvent_asked` — the executor drops no transfer that was marked.
* `RaftCore.Accounts.settle` — the event of a transfer takes the mark away.
* `inflight_marks_exact` — in every run the marks of a leader are the open transfers of its term.
-/

namespace AdvisKV

/-! ## Marks and open transfers -/

/-- The transfers a list of messages asks for. -/
def askedIn (messages : List RaftMessage) : List SnapshotAttempt :=
  messages.filterMap RaftMessage.snapshotAttempt

/-- The transfers a handler has asked for so far. -/
def CoreState.asked (s : CoreState) : List SnapshotAttempt := askedIn s.effects.messages

/-- The transfers to `id` among `attempts` that belong to `term`. -/
def openAttempts (term : Nat) (attempts : List SnapshotAttempt) (id : ReplicaID) : List SnapshotAttempt :=
  attempts.filter fun a => a.target = id ∧ a.sent.term = term

@[simp] theorem openAttempts_append (term : Nat) (as bs : List SnapshotAttempt) (id : ReplicaID) :
    openAttempts term (as ++ bs) id = openAttempts term as id ++ openAttempts term bs id :=
  List.filter_append as bs

variable {a : SnapshotAttempt} {as attempts pre post : List SnapshotAttempt} {e : CoreEvent} {c : RaftCore}

/-- A transfer to another peer, or of another term, does not count. -/
theorem openAttempts_cons_of_ne {term : Nat} {id : ReplicaID} (h : ¬ (a.target = id ∧ a.sent.term = term)) :
    openAttempts term (a :: as) id = openAttempts term as id :=
  List.filter_cons_of_neg (by simpa using h)

/-- No transfer belongs to a term that has just begun. -/
theorem openAttempts_eq_nil {term : Nat} (h : ∀ a ∈ as, a.sent.term < term) (id : ReplicaID) :
    openAttempts term as id = [] := by
  refine List.filter_eq_nil_iff.mpr fun a ha hopen => ?_
  have := h a ha
  simp only [decide_eq_true_eq] at hopen
  omega

namespace RaftCore

/-- The marks of a leader account for `attempts`, the transfers whose event has not been handled: a peer is marked
with the index of its one open transfer. A candidate has none of its own term yet. -/
structure Accounts (c : RaftCore) (attempts : List SnapshotAttempt) : Prop where
  ready : c.election.role = .leader → c.recovering = false
  past : ∀ a ∈ attempts, a.sent.term ≤ c.election.currentTerm
  standing : c.election.role = .candidate → ∀ a ∈ attempts, a.sent.term < c.election.currentTerm
  marks : c.election.role = .leader → ∀ id,
    (openAttempts c.election.currentTerm attempts id).map (fun a => a.sent.snapshotIndex) =
      if c.replication.inflightSnapshotIndex id = 0 then [] else [c.replication.inflightSnapshotIndex id]

namespace Accounts

variable {c c' : RaftCore} {attempts : List SnapshotAttempt}

/-- What neither touches the role and the term nor the marks. -/
theorem congr (h : c.Accounts attempts) (hrole : c'.election.role = c.election.role)
    (hterm : c'.election.currentTerm = c.election.currentTerm)
    (hready : c.recovering = false → c'.recovering = false)
    (hmarks : c'.replication.inflightSnapshotIndex = c.replication.inflightSnapshotIndex) :
    c'.Accounts attempts where
  ready hl := hready (h.ready (hrole ▸ hl))
  past a ha := hterm ▸ h.past a ha
  standing hc a ha := hterm ▸ h.standing (hrole ▸ hc) a ha
  marks hl id := by
    rw [hterm, hmarks]
    exact h.marks (hrole ▸ hl) id

/-- A follower and a pre-candidate have no marks to account for. -/
theorem of_bystander (hpast : ∀ a ∈ attempts, a.sent.term ≤ c.election.currentTerm)
    (hleader : c.election.role ≠ .leader) (hcandidate : c.election.role ≠ .candidate) :
    c.Accounts attempts :=
  ⟨fun h => absurd h hleader, hpast, fun h => absurd h hcandidate, fun h => absurd h hleader⟩

/-- Whoever follows has nothing to account for. -/
theorem follow (h : c.Accounts attempts) (hrole : c'.election.role = .follower)
    (hterm : c.election.currentTerm ≤ c'.election.currentTerm) : c'.Accounts attempts :=
  of_bystander (fun a ha => (h.past a ha).trans hterm) (by simp [hrole]) (by simp [hrole])

/-- A new leader starts without marks. -/
theorem lead (h : c.Accounts attempts) (hrole : c.election.role = .candidate)
    (hterm : c'.election.currentTerm = c.election.currentTerm) (hlead : c'.election.role = .leader)
    (hready : c'.recovering = false) (hmarks : ∀ id, c'.replication.inflightSnapshotIndex id = 0) :
    c'.Accounts attempts where
  ready _ := hready
  past a ha := hterm ▸ h.past a ha
  standing hc := by rw [hlead] at hc; cases hc
  marks _ id := by
    rw [hterm, openAttempts_eq_nil (h.standing hrole) id, hmarks id]
    rfl

variable {a : SnapshotAttempt}

/-- A transfer asked for where none is open. -/
theorem offer (h : c.Accounts attempts) (hterm : a.sent.term = c.election.currentTerm)
    (hrole : c.election.role = .leader) (hindex : 0 < a.sent.snapshotIndex)
    (hfree : c.replication.inflightSnapshotIndex a.target = 0) (helection : c'.election = c.election)
    (hready : c'.recovering = c.recovering) (hmarks : c'.replication.inflightSnapshotIndex =
      Function.update c.replication.inflightSnapshotIndex a.target a.sent.snapshotIndex) :
    c'.Accounts (attempts ++ [a]) where
  ready hl := hready.trans (h.ready (helection ▸ hl))
  past b hb := by
    rw [helection]
    rcases List.mem_append.mp hb with hb | hb
    · exact h.past b hb
    · rw [List.mem_singleton.mp hb, hterm]
  standing hc := by rw [helection, hrole] at hc; cases hc
  marks _ id := by
    have hbefore := h.marks hrole id
    rw [helection, hmarks, openAttempts_append, List.map_append, hbefore]
    by_cases hid : a.target = id
    · subst hid
      have hopen : openAttempts c.election.currentTerm [a] a.target = [a] := by
        simp [openAttempts, hterm]
      rw [hfree, hopen, Function.update_self, if_pos rfl, if_neg hindex.ne']
      rfl
    · rw [openAttempts_cons_of_ne (fun hopen => hid hopen.1), Function.update_of_ne (Ne.symm hid)]
      exact List.append_nil _

/-- The event of a transfer that is over takes away the mark of its peer, if it is a transfer of this term. -/
theorem settle {pre post : List SnapshotAttempt} (h : c.Accounts (pre ++ a :: post))
    (helection : c'.election = c.election) (hready : c'.recovering = c.recovering)
    (hmarks : c'.replication.inflightSnapshotIndex =
      if a.sent.term = c.election.currentTerm then
        (c.replication.clearSnapshotInflight a.target a.sent.snapshotIndex).inflightSnapshotIndex
      else c.replication.inflightSnapshotIndex) :
    c'.Accounts (pre ++ post) where
  ready hl := hready.trans (h.ready (helection ▸ hl))
  past b hb := by
    rw [helection]
    exact h.past b (by simp only [List.mem_append, List.mem_cons] at hb ⊢; tauto)
  standing hc b hb := by
    rw [helection] at hc ⊢
    exact h.standing hc b (by simp only [List.mem_append, List.mem_cons] at hb ⊢; tauto)
  marks hl id := by
    have hbefore := h.marks (helection ▸ hl) id
    rw [openAttempts_append] at hbefore
    rw [helection, openAttempts_append]
    by_cases hopen : a.target = id ∧ a.sent.term = c.election.currentTerm
    · -- the one open transfer of this peer: nothing is open beside it
      obtain ⟨rfl, hterm⟩ := hopen
      have hcons : openAttempts c.election.currentTerm (a :: post) a.target =
          a :: openAttempts c.election.currentTerm post a.target :=
        List.filter_cons_of_pos (by simpa using hterm)
      rw [hcons, List.map_append, List.map_cons] at hbefore
      split at hbefore
      · simp at hbefore
      next hmark =>
      obtain ⟨hpre, hindex, hpost⟩ := List.append_eq_singleton_iff.mp hbefore |>.resolve_right (by simp)
        |>.imp_right List.cons_eq_cons.mp
      have hcleared : c'.replication.inflightSnapshotIndex a.target = 0 := by
        rw [hmarks, if_pos hterm, RaftReplication.clearSnapshotInflight, if_pos hindex.symm]
        exact Function.update_self ..
      rw [hcleared, if_pos rfl, List.map_append, hpre, hpost]
      rfl
    · rw [openAttempts_cons_of_ne hopen] at hbefore
      have hmark : c'.replication.inflightSnapshotIndex id = c.replication.inflightSnapshotIndex id := by
        rw [hmarks]
        split
        · next hterm =>
          have hid : id ≠ a.target := fun hid => hopen ⟨hid.symm, hterm⟩
          unfold RaftReplication.clearSnapshotInflight
          split
          · exact Function.update_of_ne hid _ _
          · rfl
        · rfl
      rw [hmark, hbefore]

end Accounts

end RaftCore

/-! ## Handlers -/

@[simp] theorem CoreState.asked_becomeFollower (s : CoreState) (term : Nat) :
    (s.becomeFollower term).asked = s.asked := by
  simp only [becomeFollower]
  split <;> rfl

/-- Only a snapshot message asks for a transfer. -/
theorem CoreState.asked_send (s : CoreState) (m : RaftMessage) :
    (s.send m).asked = s.asked ++ m.snapshotAttempt.toList := by
  simp only [asked, askedIn, send, List.filterMap_append]
  rfl

/-- The event of a transfer that is over. -/
def CoreEvent.settlesTransfer : CoreEvent → Bool
  | .snapshotResponse _ _ _ | .snapshotSendFailed _ _ => true
  | _ => false

/-- **Moves keep the account.** -/
theorem Micro.accounts {s s' : CoreState} (h : Micro e s s') (he : e.settlesTransfer = false)
    (hs : s.core.Accounts (attempts ++ s.asked)) :
    s'.core.Accounts (attempts ++ s'.asked) := by
  cases h with
  | follow term hle =>
    rw [CoreState.asked_becomeFollower]
    refine hs.follow ?_ ?_ <;> rw [CoreState.becomeFollower_core]
    · exact CoreState.election_becomeFollower_role _ _
    · exact hle.trans_eq (CoreState.election_becomeFollower_currentTerm _ _).symm
  | preCandidate ready voter role =>
    exact RaftCore.Accounts.of_bystander hs.past (by simp [RaftElection.becomePreCandidate])
      (by simp [RaftElection.becomePreCandidate])
  -- a new term: every open transfer is of an earlier one
  | candidate ready voter role =>
    refine ⟨?_, fun a ha => (hs.past a ha).trans (Nat.le_succ _), fun _ a ha => ?_, ?_⟩
    · simp [CoreState.recordHardState, RaftElection.becomeCandidate]
    · exact Nat.lt_succ_of_le (hs.past a ha)
    · simp [CoreState.recordHardState, RaftElection.becomeCandidate]
  | lead ready voter role quorum => exact hs.lead role rfl rfl ready fun _ => rfl
  | send m built plain =>
    rw [CoreState.asked_send, plain, Option.toList_none, List.append_nil]
    exact hs
  -- the only move that marks a peer, and it sends the message in the same breath
  | offer target built free =>
    obtain ⟨role, -, -, hindex, -⟩ := built
    rw [CoreState.asked_send, ← List.append_assoc]
    exact hs.offer rfl role (Nat.zero_lt_of_lt hindex) free rfl rfl rfl
  | settle sender sent event =>
    rcases event with ⟨result, rfl⟩ | rfl <;> cases he
  | ackOk sender sent result =>
    refine hs.congr rfl rfl id ?_
    simp only [RaftReplication.handlePeerAppendOk]
    split <;> rfl
  | accept param log r event =>
    obtain ⟨-, -, helection, hready⟩ := CoreState.acceptAppend_core (s.storeMerge log r) param.leaderCommit
    have hasked : ((s.storeMerge log r).acceptAppend param.leaderCommit).asked = s.asked := by
      simp only [CoreState.asked, CoreState.acceptAppend, CoreState.storeMerge]
      split <;> rfl
    rw [hasked]
    refine hs.congr (by rw [helection]; rfl) (by rw [helection]; rfl) (fun _ => hready) ?_
    simp only [CoreState.acceptAppend, RaftCore.finishRecovering_eq, CoreState.storeMerge]
  | install header event =>
    refine hs.congr ?_ ?_ (fun _ => ?_) ?_ <;>
      simp only [CoreState.installSnapshot, RaftCore.installSnapshotIntoLog, RaftCore.finishRecovering_eq]
  | _ => exact hs.congr rfl rfl id rfl

/-- **Handlers keep the account.** -/
theorem CoreEvent.step_accounts (he : e.settlesTransfer = false) (h : c.Accounts attempts) :
    (e.step { core := c }).core.Accounts (attempts ++ (e.step { core := c }).asked) :=
  CoreEvent.step_induction (P := fun s => s.core.Accounts (attempts ++ s.asked))
    (fun _ _ hm hs => hm.accounts he hs) (by simpa [CoreState.asked, askedIn] using h)

/-! ## The executor -/

namespace CoreState

@[simp] theorem asked_followLeader (s : CoreState) (term : Nat) : (s.followLeader term).asked = s.asked := by
  have hkeep : ∀ s : CoreState, CoreState.asked { s with core := { s.core with
      electionTickTrigger := s.core.electionTickTrigger.clear
      recentLeaderActive := true } } = s.asked := fun _ => rfl
  simp only [followLeader, hkeep]
  split
  · exact asked_becomeFollower s term
  · rfl

/-- An AppendEntries asks for nothing. -/
theorem asked_handleAppendEntries (s : CoreState) (param : AppendEntriesParam) :
    (s.handleAppendEntries param).2.asked = s.asked := by
  have hstore : ∀ (s : CoreState) log r, (s.storeMerge log r).asked = s.asked := by
    intro s log r
    simp only [asked, storeMerge]
    split <;> rfl
  have haccept : ∀ (s : CoreState) commit, (s.acceptAppend commit).asked = s.asked := fun _ _ => rfl
  simp only [handleAppendEntries]
  split
  · rfl
  split
  · rfl
  split
  · exact asked_followLeader s param.term
  split
  · rw [haccept, asked_followLeader]
  split
  · exact asked_followLeader s param.term
  · rw [haccept, hstore, asked_followLeader]

/-- Nor does a chunk. -/
theorem asked_prepareInstallSnapshot (s : CoreState) (param : InstallSnapshotParam) :
    (s.prepareInstallSnapshot param).2.2.asked = s.asked := by
  simp only [prepareInstallSnapshot]
  split
  · rfl
  split
  · rfl
  split
  · exact asked_followLeader s param.term
  split <;> exact asked_followLeader s param.term

variable {s : CoreState}

/-- A proposal that is refused asks for nothing. -/
theorem propose_error {param : ProposeParam} {status : Status} (h : (s.propose param).1 = .error status) :
    (s.propose param).2 = s := by
  unfold propose at h ⊢
  split
  · rfl
  next hw =>
  rw [if_neg hw] at h
  split
  · rfl
  next hv =>
  rw [if_neg hv] at h
  cases h

/-- A change that is refused leaves the core alone. -/
theorem ensureAddLearner_failed {member : PeerMember} (h : (s.ensureAddLearner member).1.fail = true) :
    (s.ensureAddLearner member).2 = s := by
  unfold ensureAddLearner at h ⊢
  split
  · rfl
  next hw =>
  rw [if_neg hw] at h
  split
  · rfl
  next hc =>
  rw [if_neg hc] at h
  split
  · split <;> rfl
  next hnone =>
  simp only [hnone] at h ⊢
  split at h
  · cases h
  · next st hst => exact propose_error hst

theorem ensureRemoveMember_failed {id : ReplicaID} (h : (s.ensureRemoveMember id).1.fail = true) :
    (s.ensureRemoveMember id).2 = s := by
  unfold ensureRemoveMember at h ⊢
  split
  · rfl
  next hw =>
  rw [if_neg hw] at h
  split
  · rfl
  next hc =>
  rw [if_neg hc] at h
  split
  · split <;> rfl
  next hnone =>
  simp only [hnone] at h ⊢
  split at h
  · cases h
  · next st hst => exact propose_error hst

/-- A failed answer has asked for nothing: the sends come after the last check. -/
theorem asked_handleAppendResponse {sender : ReplicaID} {sent : AppendEntriesParam}
    {result : AppendEntriesResult} (h : (s.handleAppendResponse sender sent result).1.fail = true) :
    (s.handleAppendResponse sender sent result).2.asked = s.asked := by
  simp only [handleAppendResponse] at h ⊢
  split
  · rfl
  next hr =>
  rw [if_neg hr] at h
  split
  · exact asked_becomeFollower s result.term
  next ht =>
  rw [if_neg ht] at h
  split
  · rfl
  next hterm =>
  rw [if_neg hterm] at h
  split
  · rfl
  next hl =>
  rw [if_neg hl] at h
  split
  · rfl
  next hstale =>
  rw [if_neg hstale] at h
  split at h <;> cases h

end CoreState

/-- Only an AppendEntries and the install of a snapshot ask for a rewrite of the WAL. -/
theorem Micro.entriesToRewrite_eq {s s' : CoreState} (h : Micro e s s')
    (happend : ∀ param, e ≠ .appendEntries param) (hinstall : ∀ header, e ≠ .installSnapshot header) :
    s'.effects.entriesToRewrite = s.effects.entriesToRewrite := by
  cases h with
  | follow term hle =>
    simp only [CoreState.becomeFollower]
    split <;> rfl
  | accept param log r event => exact absurd event (happend param)
  | install header event => exact absurd event (hinstall header)
  | _ => rfl

/-- The storing of a dispatch can fail only where the WAL is rewritten. -/
theorem CoreEvent.step_asked_of_rewrite (h : (e.step { core := c }).effects.entriesToRewrite ≠ none) :
    (e.step { core := c }).asked = [] := by
  by_cases happend : ∃ param, e = .appendEntries param
  · obtain ⟨param, rfl⟩ := happend
    exact CoreState.asked_handleAppendEntries _ _
  by_cases hinstall : ∃ header, e = .installSnapshot header
  · obtain ⟨header, rfl⟩ := hinstall
    rfl
  refine absurd ?_ h
  exact CoreEvent.step_induction (P := fun s => s.effects.entriesToRewrite = none)
    (fun _ _ hm hs => (hm.entriesToRewrite_eq (fun param h => happend ⟨param, h⟩)
      fun header h => hinstall ⟨header, h⟩).trans hs) rfl

/-- A handler that answers an error has asked for nothing. -/
theorem CoreEvent.step_asked_of_fail (h : (e.status { core := c }).fail = true) :
    (e.step { core := c }).asked = [] := by
  cases e with
  | addLearner member => exact congrArg CoreState.asked (CoreState.ensureAddLearner_failed h)
  | removeMember id => exact congrArg CoreState.asked (CoreState.ensureRemoveMember_failed h)
  | appendResponse sender sent result => exact CoreState.asked_handleAppendResponse h
  | prepareInstallSnapshot param => exact CoreState.asked_prepareInstallSnapshot _ _
  -- the other handlers have no status of their own
  | _ => cases h

/-- **The executor drops no transfer.** A handler that fails, or whose effects cannot be stored, has asked for
none. -/
theorem ReplicaState.executeEvent_asked (s : ReplicaState) (e : CoreEvent) :
    askedIn (s.executeEvent e).2.2 = (e.step { core := s.core }).asked := by
  simp only [executeEvent, execute]
  split
  · next hpersist =>
    refine (CoreEvent.step_asked_of_rewrite fun hnone => ?_).symm
    simp [PersistEngine.persistEffects, hnone] at hpersist
  split
  · next hstatus => exact (CoreEvent.step_asked_of_fail hstatus).symm
  · rfl

/-! ## The loop -/

namespace ReplicaLoop

/-- The events of the queue that end a transfer. -/
def settlesTransfer : LoopEvent → Bool
  | .snapshotResponse _ _ _ | .snapshotSendFailed _ _ => true
  | _ => false

variable {attempts : List SnapshotAttempt}

variable {s : ReplicaState} {codec : SnapshotCodec} {l : ReplicaLoop}

/-- A dispatch keeps the account. -/
theorem executeEvent_accounts {e : CoreEvent} (he : e.settlesTransfer = false) (h : s.core.Accounts attempts) :
    (s.executeEvent e).2.1.core.Accounts (attempts ++ askedIn (s.executeEvent e).2.2) := by
  rw [ReplicaState.executeEvent_core, ReplicaState.executeEvent_asked]
  exact CoreEvent.step_accounts he h

/-- A handler that asks for nothing. -/
theorem executeEvent_accounts_quiet {e : CoreEvent} (he : e.settlesTransfer = false)
    (hquiet : (e.step { core := s.core }).asked = []) (h : s.core.Accounts attempts) :
    (s.executeEvent e).2.1.core.Accounts attempts := by
  have hstep := executeEvent_accounts he h
  rwa [ReplicaState.executeEvent_asked, hquiet, List.append_nil] at hstep

/-- The quorum check of a read sends empty AppendEntries only. -/
theorem establish_asked (t : ReadTracker) (core : RaftCore) (cs : Completions) (key : Key) (id : Nat) :
    askedIn (t.establish core cs key id).2.2 = [] := by
  have hbuild : ∀ seq, (CoreState.buildReadQuorumCheck { core } seq).2.asked = [] := by
    intro seq
    simp only [CoreState.buildReadQuorumCheck]
    split
    · rfl
    generalize CoreState.otherVoters core = voters
    have hfold : ∀ (param : PeerMember → AppendEntriesParam) (voters : List PeerMember) (s : CoreState),
        (voters.foldl (fun s m => s.send (.appendEntries m (param m))) s).asked = s.asked := by
      intro param voters
      induction voters with
      | nil => exact fun _ => rfl
      | cons m voters ih =>
        intro s
        rw [List.foldl_cons, ih, CoreState.asked_send]
        exact List.append_nil _
    exact hfold _ voters _
  unfold ReadTracker.establish
  split
  · rfl
  simp only
  split
  · rfl
  · exact hbuild _

/-- A chunk that arrives makes the replica follow its sender, and the file may be installed; neither asks for a
transfer. -/
theorem Change.accounts_of_chunk {param : InstallSnapshotParam}
    (h : Change codec l (.installSnapshot param) s) (hl : l.state.core.Accounts attempts) :
    s.core.Accounts attempts := by
  have hprepared : (l.state.prepareInstallSnapshot param).2.2.core.Accounts attempts := by
    rw [ReplicaState.prepareInstallSnapshot_eq]
    exact executeEvent_accounts_quiet rfl
      (CoreState.asked_prepareInstallSnapshot _ _) hl
  cases h with
  | idle => exact hl
  | runs hruns =>
    cases hruns
    exact hprepared
  | received _ hrestore =>
    rw [ReplicaState.finishInstallSnapshot_of_restore hrestore]
    exact executeEvent_accounts_quiet rfl rfl hprepared
  | unrestorable _ hrefused =>
    rw [ReplicaState.finishInstallSnapshot_of_error hrefused]
    exact hprepared

/-- Every handler but those of transfers keeps the account. -/
theorem handle_accounts (codec : SnapshotCodec) {ev : LoopEvent} (hev : settlesTransfer ev = false)
    (hl : l.state.core.Accounts attempts) :
    (l.handle codec ev).loop.state.core.Accounts (attempts ++ askedIn (l.handle codec ev).messages) := by
  have hnothing : attempts ++ askedIn [] = attempts := List.append_nil _
  have hrun : ∀ {e : CoreEvent}, e.settlesTransfer = false → (l.state.executeEvent e).2.1.core.Accounts
      (attempts ++ askedIn (l.state.executeEvent e).2.2) := fun he => executeEvent_accounts he hl
  cases ev with
  | propose params =>
    simp only [handle, submitBatch]
    split
    · rw [hnothing]
      exact hl
    · exact hrun rfl
  | submitRead key =>
    -- the messages do not come from a dispatch here
    rw [show askedIn (l.handle codec (.submitRead key)).messages = [] from establish_asked _ _ _ _ _,
      List.append_nil]
    exact hl
  | preVote param =>
    rw [show (l.handle codec (.preVote param)).messages = [] from rfl, hnothing]
    exact hl
  | readQuorumResponse sender readSeq responseTerm =>
    rw [show (l.handle codec (.readQuorumResponse sender readSeq responseTerm)).messages = [] from rfl,
      hnothing]
    exact hl
  | installSnapshot param =>
    rw [show (l.handle codec (.installSnapshot param)).messages = [] from rfl, hnothing]
    exact (onInstallSnapshotChunk_step codec l param).change.accounts_of_chunk hl
  | snapshotResponse sender sent result => cases hev
  | snapshotSendFailed sender sent => cases hev
  | snapshotDone =>
    simp only [handle]
    split
    · rw [hnothing]
      exact hl
    · simp only [onSnapshotDone]
      split
      · rw [hnothing]
        exact hl
      · exact executeEvent_accounts rfl hl
  | _ => exact hrun rfl

/-- What follows the handler of an event touches neither the term nor the marks, and makes nobody a leader. -/
theorem iterate_accounts {ev : LoopEvent} (hf : l.faulted = false)
    (h : (l.handle codec ev).loop.state.core.Accounts attempts) :
    (l.iterate codec ev).loop.state.core.Accounts attempts := by
  simp only [iterate, hf, Bool.false_eq_true, if_false]
  rw [endIteration_state, answerRead_state]
  obtain ⟨hframe, -⟩ := (finishDispatch_applies (l.handle codec ev).loop (l.handle codec ev).status).frame
  rcases hframe.role with helection | hfollower
  · exact h.congr (by rw [helection]) hframe.term (fun hready => hframe.recovering.trans hready)
      (by rw [hframe.replication])
  · exact h.follow hfollower hframe.term.ge

end ReplicaLoop

/-- The event the dispatcher posts for a transfer: the peer's answer, or that it could not be sent. A submission
that the workers reject is posted as a failure too. -/
def SnapshotAttempt.event (a : SnapshotAttempt) : Option InstallSnapshotResult → LoopEvent
  | some result => .snapshotResponse a.target a.sent result
  | none => .snapshotSendFailed a.target a.sent

/-- Its handler in the core. -/
def SnapshotAttempt.coreEvent (a : SnapshotAttempt) : Option InstallSnapshotResult → CoreEvent
  | some result => .snapshotResponse a.target a.sent result
  | none => .snapshotSendFailed a.target a.sent

/-- A transfer leaves the list of a replica that does not lead. -/
theorem RaftCore.Accounts.drop (h : c.Accounts (pre ++ a :: post)) (hl : c.election.role ≠ .leader) :
    c.Accounts (pre ++ post) := by
  have hsub : ∀ b ∈ pre ++ post, b ∈ pre ++ a :: post := fun b hb => by
    simp only [List.mem_append, List.mem_cons] at hb ⊢
    tauto
  exact ⟨fun h' => absurd h' hl, fun b hb => h.past b (hsub b hb),
    fun hc b hb => h.standing hc b (hsub b hb), fun h' => absurd h' hl⟩

/-- **The event of a transfer.** Its handler makes the replica follow a later term, or takes the mark away. -/
theorem SnapshotAttempt.step_accounts (h : c.Accounts (pre ++ a :: post))
    (answer : Option InstallSnapshotResult) :
    ((a.coreEvent answer).step { core := c }).core.Accounts (pre ++ post) := by
  have hbusy : c.ensureReady.fail = true → c.Accounts (pre ++ post) := fun hr => h.drop fun hl => by
    rw [RaftCore.ensureReady_fail_eq_false.mpr (h.ready hl)] at hr
    cases hr
  have hfollower : (!c.election.isLeader) = true → c.Accounts (pre ++ post) := fun hl =>
    h.drop (by simpa [RaftElection.isLeader] using hl)
  have hold : a.sent.term ≠ c.election.currentTerm → c.Accounts (pre ++ post) := fun hterm =>
    h.settle rfl rfl (if_neg hterm).symm
  rcases answer with _ | result
  · show (CoreState.handleInstallSnapshotSendFailed c a.target a.sent).Accounts (pre ++ post)
    unfold CoreState.handleInstallSnapshotSendFailed
    split
    · next hr => exact hbusy hr
    split
    · next hl => exact hfollower hl
    split
    · next hterm => exact hold hterm
    · next hterm => exact h.settle rfl rfl (if_pos (not_not.mp hterm)).symm
  · show (CoreState.handleInstallSnapshotResponse { core := c } a.target a.sent result).core.Accounts
      (pre ++ post)
    simp only [CoreState.handleInstallSnapshotResponse]
    split
    · next hr => exact hbusy hr
    split
    · next hlater =>
      -- nothing is open for a replica that has stepped down
      rw [CoreState.becomeFollower_core]
      exact RaftCore.Accounts.drop (h.follow (CoreState.election_becomeFollower_role _ _)
        (hlater.le.trans_eq (CoreState.election_becomeFollower_currentTerm _ _).symm)) (by simp)
    split
    · next hl => exact hfollower hl
    split
    · next hterm => exact hold hterm
    · next hterm =>
      refine h.settle rfl rfl ?_
      rw [if_pos (not_not.mp hterm)]
      simp only
      split <;> rfl

/-- The event of a transfer asks for no other one. -/
theorem SnapshotAttempt.step_asked (a : SnapshotAttempt) (answer : Option InstallSnapshotResult) (c : RaftCore) :
    ((a.coreEvent answer).step { core := c }).asked = [] := by
  rcases answer with _ | result
  · rfl
  · show (CoreState.handleInstallSnapshotResponse { core := c } a.target a.sent result).asked = []
    simp only [CoreState.handleInstallSnapshotResponse]
    split
    · rfl
    split
    · exact CoreState.asked_becomeFollower _ _
    split
    · rfl
    split <;> rfl

/-! ## Runs -/

/-- A replica with the transfers it has handed to its dispatcher and whose event it has not handled yet. -/
structure SendingReplica where
  loop : ReplicaLoop
  attempts : List SnapshotAttempt := []

namespace SendingReplica

/-- One iteration on `ev`. -/
def after (codec : SnapshotCodec) (r : SendingReplica) (ev : LoopEvent) (attempts : List SnapshotAttempt) :
    SendingReplica :=
  let h := r.loop.iterate codec ev
  { loop := h.loop, attempts := attempts ++ askedIn h.messages }

/-- The open transfers of the current term to a peer. -/
def openTo (r : SendingReplica) (id : ReplicaID) : List SnapshotAttempt :=
  openAttempts r.loop.state.core.election.currentTerm r.attempts id

/-- The in-flight marker of a peer. -/
def marker (r : SendingReplica) (id : ReplicaID) : Nat :=
  r.loop.state.core.replication.inflightSnapshotIndex id

def Leads (r : SendingReplica) : Prop := r.loop.state.core.election.role = .leader

end SendingReplica

/-- What can happen next: any event of the queue but those of transfers, the event of one of the open transfers, in
any order and with any answer, or a step of the snapshot worker. -/
inductive SendingAction where
  | event (ev : LoopEvent)
  | settle (i : Nat) (answer : Option InstallSnapshotResult)
  | workerPost
  | workerClear

/-- The steps of a replica whose loop is running. -/
def SendingAction.step (codec : SnapshotCodec) (action : SendingAction) (r : SendingReplica) :
    Option SendingReplica :=
  if r.loop.faulted then none
  else match action with
    | event ev => if ReplicaLoop.settlesTransfer ev then none else some (r.after codec ev r.attempts)
    | settle i answer => r.attempts[i]?.map fun a => r.after codec (a.event answer) (r.attempts.eraseIdx i)
    | workerPost => some { r with loop := r.loop.workerPost }
    | workerClear => some { r with loop := r.loop.workerClear }

namespace SendingReplica

/-- The marks of a running replica account for its open transfers. -/
def Accounted (r : SendingReplica) : Prop := r.loop.state.core.Accounts r.attempts

variable {codec : SnapshotCodec} {r : SendingReplica}

theorem attempts_after (hf : r.loop.faulted = false) (ev : LoopEvent) (attempts : List SnapshotAttempt) :
    (r.after codec ev attempts).attempts = attempts ++ askedIn (r.loop.handle codec ev).messages := by
  simp only [after, ReplicaLoop.iterate, hf, Bool.false_eq_true, if_false]

/-- An event that ends no transfer. -/
theorem Accounted.after_event {ev : LoopEvent} (h : r.Accounted) (hf : r.loop.faulted = false)
    (hev : ReplicaLoop.settlesTransfer ev = false) :
    (r.after codec ev r.attempts).Accounted := by
  refine ReplicaLoop.iterate_accounts hf ?_
  rw [attempts_after hf]
  exact ReplicaLoop.handle_accounts codec hev h

/-- The event of an open transfer; the transfer leaves the list. -/
theorem Accounted.after_settle {i : Nat} {a : SnapshotAttempt} (h : r.Accounted) (hf : r.loop.faulted = false)
    (ha : r.attempts[i]? = some a) (answer : Option InstallSnapshotResult) :
    (r.after codec (a.event answer) (r.attempts.eraseIdx i)).Accounted := by
  have hhandle : (r.loop.handle codec (a.event answer)).loop.state =
        (r.loop.state.executeEvent (a.coreEvent answer)).2.1 ∧
      (r.loop.handle codec (a.event answer)).messages =
        (r.loop.state.executeEvent (a.coreEvent answer)).2.2 := by
    rcases answer with _ | result <;> exact ⟨rfl, rfl⟩
  obtain ⟨hi, hget⟩ := List.getElem?_eq_some_iff.mp ha
  have hsplit : r.attempts = r.attempts.take i ++ a :: r.attempts.drop (i + 1) := by
    rw [← hget, List.getElem_cons_drop, List.take_append_drop]
  have hsplit' : r.loop.state.core.Accounts (r.attempts.take i ++ a :: r.attempts.drop (i + 1)) := by
    rw [← hsplit]
    exact h
  refine ReplicaLoop.iterate_accounts hf ?_
  -- the handler asks for nothing, so the list only loses `a`
  rw [attempts_after hf, hhandle.1, hhandle.2, ReplicaState.executeEvent_core,
    ReplicaState.executeEvent_asked, a.step_asked, List.append_nil, List.eraseIdx_eq_take_drop_succ]
  exact SnapshotAttempt.step_accounts hsplit' answer

/-- **Steps.** -/
theorem Accounted.step (r : SendingReplica) (action : SendingAction) (r' : SendingReplica) (h : r.Accounted)
    (hstep : action.step codec r = some r') : r'.Accounted := by
  unfold SendingAction.step at hstep
  split at hstep
  · cases hstep
  next hf =>
  have hf' : r.loop.faulted = false := by simpa using hf
  split at hstep
  · next ev =>
    split at hstep
    · cases hstep
    · next hev =>
      obtain rfl := Option.some.inj hstep
      exact h.after_event hf' (by simpa using hev)
  · next i answer =>
    obtain ⟨a, ha, rfl⟩ := Option.map_eq_some_iff.mp hstep
    exact h.after_settle hf' ha answer
  · obtain rfl := Option.some.inj hstep
    have hstate := (ReplicaLoop.workerPost_step r.loop).state
    exact (congrArg (fun s : ReplicaState => s.core.Accounts r.attempts) hstate).mpr h
  · obtain rfl := Option.some.inj hstep
    have hstate := (ReplicaLoop.workerClear_step r.loop).state
    exact (congrArg (fun s : ReplicaState => s.core.Accounts r.attempts) hstate).mpr h

end SendingReplica

/-- **Transfers in flight.** A replica process starts on whatever files it finds and handles any events, those of
its transfers in any order. Whenever it leads, a peer is marked exactly if one transfer of the term to it is open,
and never are two. -/
theorem inflight_marks_exact {codec : SnapshotCodec} {selfId : ReplicaID} {members : List PeerMember}
    {limits : Nat → Nat} {snapshotLimit : Nat} {disk : PersistEngine} {l : ReplicaLoop} {r : SendingReplica}
    (hboot : ReplicaLoop.boot selfId members limits snapshotLimit disk = .ok l)
    (hrun : Machine.Run (SendingAction.step codec) { loop := l } r) (hlead : r.Leads) (peer : ReplicaID) :
    (r.marker peer ≠ 0 ↔ (r.openTo peer).length = 1) ∧ (r.openTo peer).length ≤ 1 := by
  have hstart : SendingReplica.Accounted { loop := l } := by
    have hrole : l.state.core.election.role = .follower := by
      rw [(ReplicaLoop.boot_ok hboot).core.election]
    exact RaftCore.Accounts.of_bystander (List.forall_mem_nil _) (by simp [hrole]) (by simp [hrole])
  have haccounted : r.Accounted :=
    hrun.invariant (fun r a r' h _ hstep => SendingReplica.Accounted.step r a r' h hstep) hstart
  -- the account lists at most one index for each peer
  have hlength : (r.openTo peer).length = if r.marker peer = 0 then 0 else 1 := by
    have hmarks := congrArg List.length (haccounted.marks hlead peer)
    rw [List.length_map] at hmarks
    rw [SendingReplica.openTo, hmarks, SendingReplica.marker]
    split <;> rfl
  rw [hlength]
  split <;> simp_all

/-- A voter and a learner. -/
def pairMember (seq : Int) : PeerMember :=
  { nodeId := [110], replicaId := { tableId := 1, shardIndex := 0, replicaSeq := seq } }

/-- The files of the voter hold nothing but a snapshot of index 5. -/
def compactedDisk : PersistEngine :=
  { snapshot := some { header := { applyIndex := 5, applyTerm := 1, members :=
    [{ peer := pairMember 1, memberType := .voter }, { peer := pairMember 2, memberType := .learner }] } } }

/-- The learner has no entries. -/
def emptyLearner : LoopEvent :=
  .appendResponse (pairMember 2).replicaId
    { fromReplicaId := (pairMember 1).replicaId, toReplicaId := (pairMember 2).replicaId, term := 1, prevLogIndex := 5 }
    { term := 1, success := false, lastLogIndex := 0 }

/-- The voter is elected, learns that the learner is empty and sends its next heartbeat. -/
def askingForTransfer : List SendingAction :=
  [.event .tick, .event emptyLearner, .event .tick, .event .tick, .event .tick]

/-- A leader whose log starts behind a snapshot has one transfer to an empty learner open. -/
theorem learner_transfer_open : ∃ l r,
    ReplicaLoop.boot (pairMember 1).replicaId [pairMember 1] (fun _ => 1) 100 compactedDisk = .ok l ∧
    Machine.run (SendingAction.step (sampleCodec {})) askingForTransfer { loop := l } = some r ∧
    r.Leads ∧ r.marker (pairMember 2).replicaId = 5 ∧ (r.openTo (pairMember 2).replicaId).length = 1 := by
  obtain ⟨l, r, hboot, hrun, hlead, hmark⟩ : ∃ l r,
      ReplicaLoop.boot (pairMember 1).replicaId [pairMember 1] (fun _ => 1) 100 compactedDisk = .ok l ∧
      Machine.run (SendingAction.step (sampleCodec {})) askingForTransfer { loop := l } = some r ∧
      r.Leads ∧ r.marker (pairMember 2).replicaId = 5 := ⟨_, _, rfl, rfl, rfl, rfl⟩
  have hexact := inflight_marks_exact hboot (.of_run hrun) hlead (pairMember 2).replicaId
  exact ⟨l, r, hboot, hrun, hlead, hmark, hexact.1.mp (by rw [hmark]; decide)⟩

end AdvisKV
