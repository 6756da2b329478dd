import AdvisKV.Lib.Machine
import AdvisKV.Model.SampleCodec
import AdvisKV.Recovery.Boot
import Mathlib.Order.SymmDiff

/-!
# AdvisKV — the voter set across a restart

A config entry changes the membership when it is applied, and nothing of that reaches the disk before the
next snapshot. A restarted replica takes its members from the header of the published snapshot, or from
the creation parameters, and leaves the entries behind it unapplied until a leader's commit index
arrives. `Drift` keeps the account: which replicas' voting rights have changed since the members on disk
were written down.

Main results:

* `ApplyState.applyCommittedEntriesInline_drift` — applying changes the voter set only at the replicas the
  promote and remove entries name.
* `MemberReplica.step_inv` — one event, restart or action of the worker.
* `restart_voters_close` — a restart gives or takes at most one vote when the drift names at most one
  replica.
-/

namespace AdvisKV

open scoped symmDiff

/-- The replicas that count in elections and commit quorums. -/
def RaftMembership.voterIds (m : RaftMembership) : Finset ReplicaID :=
  (m.voters.map PeerMember.replicaId).toFinset

/-- The replicas whose vote differs between two memberships. -/
def RaftMembership.changed (m m' : RaftMembership) : Finset ReplicaID := m.voterIds ∆ m'.voterIds

namespace RaftMembership

theorem mem_voterIds {m : RaftMembership} {id : ReplicaID} :
    id ∈ m.voterIds ↔ ∃ x ∈ m.members, x.peer.replicaId = id ∧ x.memberType = .voter := by
  simp only [voterIds, voters, List.map_map, List.mem_toFinset, List.mem_map, List.mem_filter,
    beq_iff_eq, Function.comp_apply]
  constructor
  · rintro ⟨x, ⟨hx, htype⟩, hid⟩
    exact ⟨x, hx, hid, htype⟩
  · rintro ⟨x, hx, hid, htype⟩
    exact ⟨x, ⟨hx, htype⟩, hid⟩

@[simp] theorem changed_self (m : RaftMembership) : m.changed m = ∅ := symmDiff_self _

variable {a b : RaftMembership} {s : Finset ReplicaID}

/-- Changes add up. -/
theorem changed_trans {c : RaftMembership} {t : Finset ReplicaID} (h : a.changed b ⊆ s) (h' : b.changed c ⊆ t) :
    a.changed c ⊆ s ∪ t :=
  (symmDiff_triangle a.voterIds b.voterIds c.voterIds).trans (Finset.union_subset_union h h')

/-- Two memberships with the same voters outside `s`. -/
theorem changed_subset (h : ∀ id, id ∉ s → (id ∈ a.voterIds ↔ id ∈ b.voterIds)) : a.changed b ⊆ s := by
  intro id hid
  by_contra hs
  rcases Finset.mem_symmDiff.mp hid with ⟨ha, hb⟩ | ⟨hb, ha⟩
  · exact hb ((h id hs).mp ha)
  · exact ha ((h id hs).mpr hb)

/-! ## One membership change -/

/-- A learner has no vote. -/
theorem changed_addLearner (m : RaftMembership) (member : PeerMember) :
    m.changed (m.addLearner member).2 = ∅ := by
  refine Finset.subset_empty.mp (changed_subset fun id _ => ?_)
  unfold addLearner
  split
  · exact Iff.rfl
  · rw [mem_voterIds, mem_voterIds]
    constructor
    · rintro ⟨x, hx, h⟩
      exact ⟨x, List.mem_append_left _ hx, h⟩
    · rintro ⟨x, hx, hid, htype⟩
      rcases List.mem_append.mp hx with hx | hx
      · exact ⟨x, hx, hid, htype⟩
      · cases List.mem_singleton.mp hx
        cases htype

/-- A promotion touches one record of that replica and no other one. -/
theorem mem_promoteFirst {id : ReplicaID} {xs : List RaftMember} {x : RaftMember}
    (hx : x.peer.replicaId ≠ id) : x ∈ promoteFirst id xs ↔ x ∈ xs := by
  induction xs with
  | nil => exact Iff.rfl
  | cons y ys ih =>
    simp only [promoteFirst]
    split
    · next hy =>
      have hne : x ≠ y := fun h => hx (h ▸ hy)
      have hne' : x ≠ { y with memberType := .voter } := fun h => hx (h ▸ hy)
      simp [hne, hne']
    · simp [ih]

/-- A promotion gives one replica a vote. -/
theorem changed_promoteVoter (m : RaftMembership) (id : ReplicaID) :
    m.changed (m.promoteVoter id).2 ⊆ {id} := by
  refine changed_subset fun x hx => ?_
  unfold promoteVoter
  split
  · rw [mem_voterIds, mem_voterIds]
    have hne : ∀ y : RaftMember, y.peer.replicaId = x → y.peer.replicaId ≠ id :=
      fun y hy h => hx (Finset.mem_singleton.mpr (hy.symm.trans h))
    constructor
    · rintro ⟨y, hy, hid, htype⟩
      exact ⟨y, (mem_promoteFirst (hne y hid)).mpr hy, hid, htype⟩
    · rintro ⟨y, hy, hid, htype⟩
      exact ⟨y, (mem_promoteFirst (hne y hid)).mp hy, hid, htype⟩
  · exact Iff.rfl

/-- A removal takes one away. -/
theorem changed_removeMember (m : RaftMembership) (id : ReplicaID) :
    m.changed (m.removeMember id).2 ⊆ {id} := by
  refine changed_subset fun x hx => ?_
  rw [mem_voterIds, mem_voterIds]
  constructor
  · rintro ⟨y, hy, rfl, htype⟩
    exact ⟨y, List.mem_filter.mpr ⟨hy, by simpa using hx⟩, rfl, htype⟩
  · rintro ⟨y, hy, hid, htype⟩
    exact ⟨y, (List.mem_filter.mp hy).1, hid, htype⟩

end RaftMembership

/-! ## Applying -/

/-- The replicas whose vote the promote and remove entries of a list name. -/
def revoted (es : List LogEntry) : Finset ReplicaID :=
  ((es.filter fun e => e.opType == .promoteVoter || e.opType == .removeMember).map
    LogEntry.configReplicaId).toFinset

theorem revoted_append (xs ys : List LogEntry) : revoted (xs ++ ys) = revoted xs ∪ revoted ys := by
  simp [revoted, List.filter_append]

/-- One config entry changes the vote of the replica it names, if any. -/
theorem RaftCore.applyMembershipChange_changed (m : RaftMembership) (e : LogEntry) :
    m.changed (applyMembershipChange m e).2 ⊆ revoted [e] := by
  unfold applyMembershipChange
  split
  · rw [RaftMembership.changed_addLearner]
    exact Finset.empty_subset _
  · next hop =>
    have : revoted [e] = {e.configReplicaId} := by simp [revoted, hop]
    rw [this]
    exact m.changed_promoteVoter _
  · next hop =>
    have : revoted [e] = {e.configReplicaId} := by simp [revoted, hop]
    rw [this]
    exact m.changed_removeMember _
  · rw [RaftMembership.changed_self]
    exact Finset.empty_subset _

theorem RaftCore.applyConfigEntry_changed (c : RaftCore) (e : LogEntry) :
    c.membership.changed (c.applyConfigEntry e).2.membership ⊆ revoted [e] := by
  simp only [applyConfigEntry]
  split
  · rw [RaftMembership.changed_self]
    exact Finset.empty_subset _
  · -- stepping down changes the role only
    have hkeep : ∀ c : RaftCore, c.stepDownIfBecomeNonMember.membership = c.membership := by
      intro c
      unfold stepDownIfBecomeNonMember
      split <;> rfl
    simp only [hkeep]
    exact applyMembershipChange_changed _ e

namespace ApplyState

/-- From `s` to `s'` some entries were handed to the state machine, and the voter set changed only at
replicas they name. -/
def Drifts (s s' : ApplyState) : Prop :=
  ∃ es, s'.passed = s.passed ++ es ∧
    s.core.membership.changed s'.core.membership ⊆ revoted es

theorem Drifts.refl (s : ApplyState) : Drifts s s :=
  ⟨[], (List.append_nil _).symm, by simp⟩

theorem Drifts.trans {a b c : ApplyState} (h : Drifts a b) (h' : Drifts b c) : Drifts a c := by
  obtain ⟨es, hes, hchanged⟩ := h
  obtain ⟨es', hes', hchanged'⟩ := h'
  refine ⟨es ++ es', by rw [hes', hes, List.append_assoc], ?_⟩
  rw [revoted_append]
  exact RaftMembership.changed_trans hchanged hchanged'

theorem applyOneEntry_drift (s : ApplyState) (e : LogEntry) : Drifts s (s.applyOneEntry e).2 := by
  simp only [applyOneEntry]
  split
  · split
    · exact .refl s
    · exact ⟨[e], rfl, s.core.applyConfigEntry_changed e⟩
  · split
    · exact ⟨[e], rfl, by simp [pass]⟩
    · exact ⟨[e], rfl, by simp [pass, RaftCore.advanceLastApplied]⟩

/-- **Applying.** -/
theorem applyCommittedEntriesInline_drift {s s' : ApplyState} {st : Status}
    (h : s.applyCommittedEntriesInline = some (st, s')) : Drifts s s' := by
  have hentries := applyRounds_entries h
  clear h
  induction hentries with
  | refl => exact .refl s
  | tail _ hlast ih =>
    obtain ⟨e, -, rfl⟩ := hlast
    exact ih.trans (applyOneEntry_drift _ e)

end ApplyState

/-! ## Members in memory and on disk -/

/-- What a handler does to the members and to the snapshot on disk: it leaves the snapshot alone, or
publishes a received one and adopts its members, or publishes the first one in the worker's queue. -/
inductive ReplicaLoop.Publishes (l : ReplicaLoop) : LoopEvent → ReplicaState → Prop
  | keeps {ev : LoopEvent} {s : ReplicaState}
    (snapshot : s.persist.snapshot = l.state.persist.snapshot) : Publishes l ev s
  | received {param : InstallSnapshotParam} {s : ReplicaState} {d : SnapshotData}
    (snapshot : s.persist.snapshot = some d)
    (adopted : ∀ sm, KvStateMachine.restore d = .ok sm → d.header.members ≠ [] →
      s.core.membership = ⟨d.header.members⟩) : Publishes l (.installSnapshot param) s
  | own {s : ReplicaState} {d : SnapshotData} {rest : List SnapshotData}
    (queued : l.written = d :: rest) (snapshot : s.persist.snapshot = some d)
    (members : s.core.membership = l.state.core.membership) : Publishes l .snapshotDone s

/-- The three ways, read off the handlers. -/
theorem ReplicaLoop.Change.publishes {codec : SnapshotCodec} {l : ReplicaLoop} {ev : LoopEvent}
    {s : ReplicaState} (h : Change codec l ev s) : l.Publishes ev s := by
  -- publishing an own snapshot keeps the old one or stores the candidate
  have hown : ∀ {candidate rest} {s : ReplicaState}, l.written = candidate :: rest →
      s.persist.snapshot = (l.state.persist.publishLocalSnapshot candidate).snapshot →
      s.core.membership = l.state.core.membership → l.Publishes .snapshotDone s := by
    intro candidate rest s hqueue hsnap hmembers
    unfold PersistEngine.publishLocalSnapshot at hsnap
    split at hsnap
    · exact .keeps hsnap
    · exact .own hqueue hsnap hmembers
  cases h with
  | idle => exact .keeps rfl
  | runs hruns => exact .keeps (ReplicaState.executeEvent_snapshot _ _)
  | @received param d sm hreceives hrestore =>
    rw [ReplicaState.finishInstallSnapshot_of_restore hrestore]
    refine .received (ReplicaState.executeEvent_snapshot _ _) fun _ _ hmembers => ?_
    rw [ReplicaState.executeEvent_core]
    show (RaftCore.installSnapshotIntoLog _ d.header).membership = _
    rw [RaftCore.installSnapshotIntoLog_membership, if_neg hmembers]
  | stale hqueue hle => exact hown hqueue rfl rfl
  | captured hqueue hlt =>
    refine hown hqueue (ReplicaState.executeEvent_snapshot _ _) ?_
    rw [ReplicaState.executeEvent_core]
    show (RaftCore.installSnapshotIntoLog _ _).membership = _
    rw [RaftCore.installSnapshotIntoLog_membership, if_pos rfl]
  | @unrestorable param d st hreceives hrefused =>
    rw [ReplicaState.finishInstallSnapshot_of_error hrefused]
    refine .received rfl fun sm hrestore _ => ?_
    rw [hrefused] at hrestore
    cases hrestore

/-! ## The account -/

/-- The replicas whose vote has changed since the members of a snapshot were written down: the snapshot
on disk (or the creation parameters), the one the worker is writing, and those queued behind it. -/
structure Drift where
  disk : Finset ReplicaID := ∅
  writing : Finset ReplicaID := ∅
  written : List (Finset ReplicaID) := []

structure MemberReplica where
  loop : ReplicaLoop
  drift : Drift := {}

inductive MemberAction where
  | event (ev : LoopEvent)
  | restart
  | workerPost
  | workerClear

/-- The entries the apply loop hands to the state machine after an event. -/
def ReplicaLoop.appliedBy (codec : SnapshotCodec) (l : ReplicaLoop) (ev : LoopEvent) : List LogEntry :=
  let handled := (l.handle codec ev).loop
  if handled.faulted then []
  else match ApplyState.applyCommittedEntriesInline
      { core := handled.state.core, stateMachine := handled.state.stateMachine } with
    | none => []
    | some (_, a) => a.passed

/-- The account after an event. A received snapshot replaces the members and the ones on disk alike; for
the snapshots of its own that are still on their way it counts as a change. -/
def Drift.after (codec : SnapshotCodec) (l : ReplicaLoop) (ev : LoopEvent) (d : Drift) : Drift :=
  let handled := (l.handle codec ev).loop
  let applied := revoted (l.appliedBy codec ev)
  let moved := l.state.core.membership.changed handled.state.core.membership ∪ applied
  { disk :=
      if handled.state.persist.snapshot = l.state.persist.snapshot then d.disk ∪ moved
      else match ev with
        | .snapshotDone => d.written.headD ∅ ∪ moved
        | _ => applied
    writing := if l.writing.isSome then d.writing ∪ moved else ∅
    written := (ReplicaLoop.queueAfter ev d.written).map (· ∪ moved) }

namespace MemberReplica

def step (codec : SnapshotCodec) (cfg : ReplicaConfig) : MemberAction → MemberReplica →
    Option MemberReplica
  | .event ev, w =>
    if w.loop.faulted then some w
    else some { loop := (w.loop.iterate codec ev).loop, drift := w.drift.after codec w.loop ev }
  | .restart, w =>
    match ReplicaLoop.boot cfg.selfId cfg.members cfg.limits cfg.snapshotLimit w.loop.state.persist with
    | .error _ => none
    | .ok loop => some { loop }
  | .workerPost, w =>
    some { loop := w.loop.workerPost
           drift := if w.loop.writing.isSome && !w.loop.posted then
               { w.drift with written := w.drift.written ++ [w.drift.writing] }
             else w.drift }
  | .workerClear, w => some { w with loop := w.loop.workerClear }

end MemberReplica

/-- The members a restart on these files starts with. -/
def PersistEngine.recoveredMembers (cfg : ReplicaConfig) (p : PersistEngine) : RaftMembership :=
  if p.header.members = [] then RaftMembership.resetVoters cfg.members else ⟨p.header.members⟩

/-- The published snapshot, if there is one, names its members. -/
def PersistEngine.NamesMembers (p : PersistEngine) : Prop := p.snapshot = none ∨ p.header.members ≠ []

instance (p : PersistEngine) : Decidable p.NamesMembers := by
  unfold PersistEngine.NamesMembers
  infer_instance

namespace MemberReplica

/-- The account covers what it says it covers. -/
structure Inv (cfg : ReplicaConfig) (w : MemberReplica) : Prop where
  disk : ∀ sm, w.loop.state.persist.restored = .ok sm → w.loop.state.persist.NamesMembers →
    (w.loop.state.persist.recoveredMembers cfg).changed w.loop.state.core.membership ⊆ w.drift.disk
  writing : ∀ d ∈ w.loop.writing,
    RaftMembership.changed ⟨d.header.members⟩ w.loop.state.core.membership ⊆ w.drift.writing
  written : List.Forall₂ (fun (d : SnapshotData) s =>
    RaftMembership.changed ⟨d.header.members⟩ w.loop.state.core.membership ⊆ s)
    w.loop.written w.drift.written

variable {cfg : ReplicaConfig}

/-- After a start nothing has changed yet. -/
theorem Inv.of_boot {disk : PersistEngine} {l : ReplicaLoop}
    (h : l.BootedFrom cfg.selfId cfg.members cfg.snapshotLimit disk) : Inv cfg { loop := l } := by
  have hmembers : l.state.persist.recoveredMembers cfg = l.state.core.membership := by
    rw [h.core.membership, h.persist]
    rfl
  obtain ⟨hwriting, hwritten, -⟩ := h.worker
  refine ⟨fun sm _ _ => ?_, fun d hd => ?_, ?_⟩
  · rw [hmembers]
    exact (RaftMembership.changed_self _).subset
  · rw [hwriting d hd]
    exact (RaftMembership.changed_self _).subset
  · rw [hwritten]
    exact .nil

theorem captured_changed (s : ReplicaState) :
    RaftMembership.changed ⟨(ReplicaLoop.captured s).header.members⟩ s.core.membership = ∅ :=
  RaftMembership.changed_self _

/-- The account loses its head together with the queue. -/
theorem forall₂_queueAfter {α β : Type} {R : α → β → Prop} (ev : LoopEvent) {xs : List α}
    {ys : List β} (h : List.Forall₂ R xs ys) :
    List.Forall₂ R (ReplicaLoop.queueAfter ev xs) (ReplicaLoop.queueAfter ev ys) := by
  cases ev with
  | snapshotDone =>
    cases h with
    | nil => exact .nil
    | cons _ htail => exact htail
  | _ => exact h

/-- The end of an iteration changes the members only at replicas the applied entries name. -/
theorem iterate_changed (codec : SnapshotCodec) {l : ReplicaLoop} (hl : l.faulted = false)
    (ev : LoopEvent) :
    (l.handle codec ev).loop.state.core.membership.changed
        (l.iterate codec ev).loop.state.core.membership ⊆ revoted (l.appliedBy codec ev) ∧
      (l.iterate codec ev).loop.state.persist = (l.handle codec ev).loop.state.persist := by
  simp only [ReplicaLoop.iterate, hl, Bool.false_eq_true, if_false, ReplicaLoop.endIteration_state,
    ReplicaLoop.answerRead_state, ReplicaLoop.appliedBy]
  unfold ReplicaLoop.finishDispatch
  split
  · simp
  · rcases happly : ApplyState.applyCommittedEntriesInline
      { core := (l.handle codec ev).loop.state.core
        stateMachine := (l.handle codec ev).loop.state.stateMachine } with _ | ⟨st, a⟩
    · simp
    · obtain ⟨es, hes, hchanged⟩ := ApplyState.applyCommittedEntriesInline_drift happly
      have hpassed : a.passed = es := by simpa using hes
      simp only [hpassed, and_true]
      exact hchanged

/-- Whatever agreed with the members before an event agrees with the ones after it, but for what the event moved. -/
theorem changed_iterate (codec : SnapshotCodec) {l : ReplicaLoop} (hl : l.faulted = false) (ev : LoopEvent)
    {m : RaftMembership} {s : Finset ReplicaID} (hm : m.changed l.state.core.membership ⊆ s) :
    m.changed (l.iterate codec ev).loop.state.core.membership ⊆
      s ∪ (l.state.core.membership.changed (l.handle codec ev).loop.state.core.membership ∪
        revoted (l.appliedBy codec ev)) :=
  RaftMembership.changed_trans hm
    (RaftMembership.changed_trans (Finset.Subset.refl _) (iterate_changed codec hl ev).1)

variable {codec : SnapshotCodec} {w : MemberReplica}

/-- The members on disk after an event: those of before, those of a snapshot of its own, or those a received
snapshot has just set. -/
theorem Inv.disk_after (h : w.Inv cfg) (hl : w.loop.faulted = false) (ev : LoopEvent) {sm : KvStateMachine}
    (hrestored : (w.loop.handle codec ev).loop.state.persist.restored = .ok sm)
    (hnames : (w.loop.handle codec ev).loop.state.persist.NamesMembers) :
    ((w.loop.handle codec ev).loop.state.persist.recoveredMembers cfg).changed
      (w.loop.iterate codec ev).loop.state.core.membership ⊆ (w.drift.after codec w.loop ev).disk := by
  simp only [Drift.after]
  by_cases hsame : (w.loop.handle codec ev).loop.state.persist.snapshot = w.loop.state.persist.snapshot
  · rw [if_pos hsame]
    have hheader : (w.loop.handle codec ev).loop.state.persist.header = w.loop.state.persist.header := by
      simp only [PersistEngine.header, hsame]
    refine changed_iterate codec hl ev ?_
    simp only [PersistEngine.recoveredMembers, hheader]
    refine h.disk sm ?_ ?_
    · simpa only [PersistEngine.restored, hsame] using hrestored
    · simpa only [PersistEngine.NamesMembers, hsame, hheader] using hnames
  rw [if_neg hsame]
  cases (ReplicaLoop.handle_change codec w.loop ev).publishes with
  | keeps hsnap => exact absurd hsnap hsame
  | received hsnap hadopted =>
    -- members and disk are the same at once, so only what is applied after it counts
    have hheader := hnames.resolve_left (by simp [hsnap])
    simp only [PersistEngine.restored, hsnap] at hrestored
    simp only [PersistEngine.header, hsnap] at hheader
    simp only [PersistEngine.recoveredMembers, PersistEngine.header, hsnap, if_neg hheader]
    rw [← hadopted sm hrestored hheader]
    exact (iterate_changed codec hl _).1
  | own hqueue hsnap hmembers =>
    have hheader := hnames.resolve_left (by simp [hsnap])
    simp only [PersistEngine.header, hsnap] at hheader
    simp only [PersistEngine.recoveredMembers, PersistEngine.header, hsnap, if_neg hheader]
    have hqueued := h.written
    rw [hqueue] at hqueued
    obtain ⟨s, rest, hhead, -, hdrift⟩ := List.forall₂_cons_left_iff.mp hqueued
    rw [hdrift]
    exact changed_iterate codec hl _ hhead

/-- **One event.** -/
theorem Inv.event (h : w.Inv cfg) (hl : w.loop.faulted = false) (ev : LoopEvent) :
    Inv cfg { loop := (w.loop.iterate codec ev).loop, drift := w.drift.after codec w.loop ev } := by
  obtain ⟨hwriting, hwritten⟩ := ReplicaLoop.iterate_worker codec hl ev
  refine ⟨fun sm hrestored hnames => ?_, fun d hd => ?_, ?_⟩
  · dsimp only at hrestored hnames ⊢
    rw [(iterate_changed codec hl ev).2] at hrestored hnames ⊢
    exact h.disk_after hl ev hrestored hnames
  · dsimp only at hd ⊢
    rcases hwriting with hkeep | ⟨hidle, hnew⟩
    · rw [hkeep] at hd
      have hsome : w.loop.writing.isSome = true := Option.isSome_of_mem hd
      simp only [Drift.after, hsome, if_true]
      exact changed_iterate codec hl ev (h.writing d hd)
    · rw [hnew] at hd
      cases hd
      rw [captured_changed]
      exact Finset.empty_subset _
  · dsimp only [Drift.after]
    rw [hwritten, List.forall₂_map_right_iff]
    exact (forall₂_queueAfter ev h.written).imp fun d s hd => changed_iterate codec hl ev hd

/-- **One step.** -/
theorem step_inv (w : MemberReplica) (a : MemberAction) (w' : MemberReplica) (h : w.Inv cfg)
    (hstep : step codec cfg a w = some w') : w'.Inv cfg := by
  cases a with
  | event ev =>
    simp only [step] at hstep
    split at hstep
    · cases hstep
      exact h
    · next hfault =>
      cases hstep
      exact h.event (by simpa using hfault) ev
  | restart =>
    simp only [step] at hstep
    split at hstep
    · cases hstep
    next loop hboot =>
    cases hstep
    exact .of_boot (ReplicaLoop.boot_ok hboot)
  | workerPost =>
    cases hstep
    unfold ReplicaLoop.workerPost
    split
    · -- what the worker has written goes to the queue with its account
      next d hwriting hposted =>
      simp only [hwriting, hposted, Option.isSome_some, Bool.not_false, Bool.and_self, if_true]
      refine ⟨h.disk, fun x hx => h.writing x (by rw [hwriting]; exact hx), ?_⟩
      exact List.rel_append h.written (.cons (h.writing d (by rw [hwriting]; rfl)) .nil)
    · next hno =>
      have : (w.loop.writing.isSome && !w.loop.posted) = false := by
        rcases hwriting : w.loop.writing with _ | d
        · rfl
        · cases hposted : w.loop.posted
          · exact absurd hposted (hno d hwriting)
          · rfl
      simp only [this, Bool.false_eq_true, if_false]
      exact h
  | workerClear =>
    cases hstep
    unfold ReplicaLoop.workerClear
    split
    · refine ⟨h.disk, ?_, h.written⟩
      intro d hd
      cases hd
    · exact h

end MemberReplica

open MemberReplica in
/-- **Voters across a restart.** Start from a replica that has just booted on any files. Whenever it
crashes, the restarted replica and the crashed one disagree about the vote of at most one replica,
provided that the votes changed since the members on disk were written down are those of at most one
replica, and that the snapshot on disk, if there is one, names its members. -/
theorem restart_voters_close (codec : SnapshotCodec) (cfg : ReplicaConfig) {disk : PersistEngine}
    {l l' : ReplicaLoop} {w : MemberReplica}
    (hboot : ReplicaLoop.boot cfg.selfId cfg.members cfg.limits cfg.snapshotLimit disk = .ok l)
    (hrun : Machine.Run (step codec cfg) { loop := l } w) (hdrift : w.drift.disk.card ≤ 1)
    (hnames : w.loop.state.persist.NamesMembers)
    (hrestart : ReplicaLoop.boot cfg.selfId cfg.members cfg.limits cfg.snapshotLimit
      w.loop.state.persist = .ok l') :
    (l'.state.core.membership.changed w.loop.state.core.membership).card ≤ 1 := by
  have hinv : w.Inv cfg :=
    hrun.invariant (fun w a w' hw _ hstep => step_inv w a w' hw hstep)
      (Inv.of_boot (ReplicaLoop.boot_ok hboot))
  have hbooted := ReplicaLoop.boot_ok hrestart
  have hmembers : l'.state.core.membership = w.loop.state.persist.recoveredMembers cfg :=
    hbooted.core.membership
  rw [hmembers]
  exact (Finset.card_le_card (hinv.disk _ hbooted.stateMachine hnames)).trans hdrift

/-! ## A group of two that grows -/

def pairReplica (seq : Int) : PeerMember := { replicaId := ⟨1, 0, seq⟩ }

/-- Replica 1 of a group created with replicas 1 and 2. -/
def pairConfig : ReplicaConfig :=
  { selfId := ⟨1, 0, 1⟩, members := [pairReplica 1, pairReplica 2] }

/-- Replica `seq` is added as a learner and promoted, at the two indexes after `i`. -/
def joinEntries (seq : Int) (i : Nat) : List LogEntry :=
  [{ term := 1, index := i + 1, opType := .addLearner, configMember := pairReplica seq },
    { term := 1, index := i + 2, opType := .promoteVoter, configReplicaId := ⟨1, 0, seq⟩ }]

/-- Replica 2 leads and sends these entries, all of them committed. -/
def committedJoins (entries : List LogEntry) : LoopEvent :=
  .appendEntries
    { fromReplicaId := ⟨1, 0, 2⟩, toReplicaId := ⟨1, 0, 1⟩, term := 1, entries
      leaderCommit := entries.length }

/-- The new replica 1, before anything has been written. -/
def newPairReplica : Except Status ReplicaLoop :=
  ReplicaLoop.boot pairConfig.selfId pairConfig.members pairConfig.limits pairConfig.snapshotLimit {}

open MemberReplica in
/-- One replica has joined since the group was created. -/
theorem restart_after_one_join :
    ∃ l w l', newPairReplica = .ok l ∧
      Machine.run (step (sampleCodec {}) pairConfig) [.event (committedJoins (joinEntries 3 0))]
        { loop := l } = some w ∧
      ReplicaLoop.boot pairConfig.selfId pairConfig.members pairConfig.limits pairConfig.snapshotLimit
        w.loop.state.persist = .ok l' ∧
      (l'.state.core.membership.changed w.loop.state.core.membership).card ≤ 1 := by
  have hboot : newPairReplica = .ok _ := rfl
  refine ⟨_, _, _, hboot, rfl, rfl, ?_⟩
  refine restart_voters_close (sampleCodec {}) pairConfig hboot
    (Relation.ReflTransGen.single ⟨.event (committedJoins (joinEntries 3 0)), trivial, rfl⟩) ?_ ?_ rfl
  · decide +kernel
  · decide +kernel

open MemberReplica in
/-- Two replicas have joined, one after the other, and no snapshot has been taken: the restarted replica
counts quorums of the group of two. -/
theorem restart_after_two_joins :
    ∃ l w l', newPairReplica = .ok l ∧
      Machine.run (step (sampleCodec {}) pairConfig)
        [.event (committedJoins (joinEntries 3 0 ++ joinEntries 4 2))] { loop := l } = some w ∧
      ReplicaLoop.boot pairConfig.selfId pairConfig.members pairConfig.limits pairConfig.snapshotLimit
        w.loop.state.persist = .ok l' ∧
      w.loop.state.core.membership.voterIds.card = 4 ∧ l'.state.core.membership.voterIds.card = 2 ∧
      (l'.state.core.membership.changed w.loop.state.core.membership).card = 2 := by
  refine ⟨_, _, _, rfl, rfl, rfl, ?_⟩
  decide +kernel

end AdvisKV
