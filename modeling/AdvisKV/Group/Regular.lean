import AdvisKV.Group.Moves
import AdvisKV.Raft.Effects
import AdvisKV.Recovery.InstallCrash
import AdvisKV.Recovery.Membership

/-!
# AdvisKV — a replica of a group whose voters never change

What holds in every replica of such a group whatever the network does: the members are the voters the group
was created with, no entry changes them, the files carry what the core holds, and the replica never
publishes two different snapshots at one index.

Main results:

* `CoreEvent.step_regular` — every handler keeps a core regular and sends only plain entries.
* `ReplicaState.Regular.executeEvent`, `Regular.install`, `Regular.applies` — what the loop does to a replica.
-/

namespace AdvisKV

/-! ## Cores -/

/-- The members every replica starts with. -/
def Group.members (g : Group) : RaftMembership := .resetVoters g.voters

/-- An entry that changes no membership and that the state machine takes. -/
structure LogEntry.Plain (e : LogEntry) : Prop where
  noConfig : e.opType.isConfigChangeOp = false
  accepted : e.requestId ≠ [] → e.opType.isKvWriteOp = true

/-- All of them are voters, so nobody is ever promoted. -/
theorem Group.learners_members (g : Group) : g.members.learners = [] := by
  have hfilter : (g.voters.map fun p => (⟨p, .voter⟩ : RaftMember)).filter
      (fun x => x.memberType == .learner) = [] := by
    rw [List.filter_eq_nil_iff]
    intro x hx
    obtain ⟨p, -, rfl⟩ := List.mem_map.mp hx
    simp
  simp only [members, RaftMembership.resetVoters, RaftMembership.learners, hfilter, List.map_nil]

structure RaftCore.Regular (g : Group) (id : ReplicaID) (c : RaftCore) : Prop where
  self : c.selfId = id
  electionSelf : c.election.selfId = id
  membership : c.membership = g.members
  shaped : c.Shaped
  plain : ∀ e ∈ c.raftLog.logEntries, e.Plain

/-- The events of such a group: nobody asks for a membership change, and what arrives is plain. -/
def CoreEvent.Regular (g : Group) : CoreEvent → Prop
  | .proposeBatch params => ∀ p ∈ params, ∃ w, p = .write w
  | .addLearner _ | .removeMember _ => False
  | .appendEntries param => ∀ e ∈ param.entries, e.Plain
  | .installSnapshot header => header.members = [] ∨ header.members = g.members.members
  | _ => True

/-- A message that carries only plain entries. -/
def RaftMessage.Plain : RaftMessage → Prop
  | .appendEntries _ param => ∀ e ∈ param.entries, e.Plain
  | _ => True

theorem newEntry_noop_plain (term index : Nat) : (RaftLog.newEntry term index .noop).Plain :=
  ⟨rfl, fun h => absurd rfl h⟩

/-- A write that passes the validation is an entry the state machine takes. -/
theorem newEntry_write_plain {w : WriteProposal} (term index : Nat)
    (hvalid : (RaftCore.validateProposal (.write w)).fail = false) :
    (RaftLog.newEntry term index (.write w)).Plain := by
  have hop : w.op.isKvWriteOp = true := by
    by_contra hop
    rw [RaftCore.validateProposal, if_pos (by simpa using hop)] at hvalid
    cases hvalid
  refine ⟨?_, fun _ => hop⟩
  show w.op.isConfigChangeOp = false
  cases hw : w.op <;> rw [hw] at hop <;> first | rfl | cases hop

variable {l : RaftLog} {e : LogEntry} {es : List LogEntry} {g : Group}

/-- A merge keeps entries and takes over some of those that arrived. -/
theorem RaftLog.mem_appendEntriesFromLeader {l' : RaftLog} {r : LogAppendResult} (hl : l.Consecutive)
    (h : l.appendEntriesFromLeader es = .ok (l', r)) (he : e ∈ l'.logEntries) :
    e ∈ l.logEntries ∨ e ∈ es := by
  obtain ⟨st, hmerge, hentries, -⟩ := appendEntriesFromLeader_merges hl h
  rw [hentries] at he
  refine mergeEntries_induction (P := fun st => ∀ e ∈ st.updatedEntries, e ∈ l.logEntries ∨ e ∈ es)
    hmerge hl (fun _ he => .inl he) (fun {x st st'} hx hP hone => ?_) e he
  intro e he
  cases hone with
  | skip => exact hP e he
  | cut =>
    rcases List.mem_append.mp he with hold | hnew
    · exact hP e (List.mem_of_mem_take hold)
    · exact .inr (List.mem_singleton.mp hnew ▸ hx)
  | push =>
    rcases List.mem_append.mp he with hold | hnew
    · exact hP e hold
    · exact .inr (List.mem_singleton.mp hnew ▸ hx)

/-- An install keeps a tail of the log. -/
theorem RaftLog.mem_installSnapshot {index term : Nat} (he : e ∈ (l.installSnapshot index term).logEntries) :
    e ∈ l.logEntries := by
  simp only [installSnapshot, retainedEntriesAfterSnapshot] at he
  split at he
  · cases he
  split at he
  · cases he
  split at he
  · cases he
  · exact List.mem_of_mem_drop he

theorem RaftLog.mem_entriesFrom {index count : Nat} (he : e ∈ l.entriesFrom index count) :
    e ∈ l.logEntries := by
  simp only [entriesFrom] at he
  split at he
  · cases he
  split at he
  · cases he
  · exact List.mem_of_mem_drop (List.mem_of_mem_take he)

section

variable {g : Group} {id : ReplicaID} {ev : CoreEvent} {s s' : CoreState}

variable {c : RaftCore}

/-- In such a group a proposal is a no-op or a write of the batch. -/
theorem RaftCore.Regular.proposes (hc : c.Regular g id) (hev : ev.Regular g) {param : ProposeParam}
    (h : c.Proposes ev param) : param = .noop ∨ ∃ w, param = .write w := by
  rcases h with rfl | ⟨params, rfl, hmem⟩ | ⟨-, ⟨learner, hl, -⟩ | ⟨member, rfl, -⟩ | ⟨target, rfl, -⟩⟩
  · exact .inl rfl
  · exact .inr (hev param hmem)
  · rw [hc.membership, g.learners_members] at hl
    cases hl
  · cases hev
  · cases hev

/-- **Moves keep a core regular.** Three kinds touch the log: an append adds a no-op or a valid write, a merge adds
what arrived, an install drops entries. Only the install touches the members, and a snapshot of the group
names the same ones. -/
theorem Micro.regular (h : Micro ev s s') (hev : ev.Regular g) (hs : s.core.Regular g id) :
    s'.core.Regular g id := by
  have hshaped := h.shaped hs.shaped
  -- a new leader's no-op and a proposal are appended alike
  have happend : ∀ {c : RaftCore} {log : RaftLog} {term : Nat} {param : ProposeParam},
      (∀ e ∈ log.logEntries, e.Plain) → (∀ index, (RaftLog.newEntry term index param).Plain) →
      c.raftLog = log.appendNewEntry term param → ∀ e ∈ c.raftLog.logEntries, e.Plain := by
    intro c log term param hold hnew hlog e he
    rw [hlog] at he
    rcases List.mem_append.mp he with h | h
    · exact hold e h
    · rw [List.mem_singleton.mp h]
      exact hnew _
  cases h with
  | follow term hle =>
    rw [CoreState.becomeFollower_core] at hshaped ⊢
    refine ⟨hs.self, ?_, hs.membership, hshaped, hs.plain⟩
    simp only [RaftElection.becomeFollower]
    split <;> exact hs.electionSelf
  | lead =>
    exact ⟨hs.self, hs.electionSelf, hs.membership, hshaped,
      happend hs.plain (newEntry_noop_plain _) rfl⟩
  | append param ready role voter source valid =>
    refine ⟨hs.self, hs.electionSelf, hs.membership, hshaped, happend hs.plain ?_ rfl⟩
    intro index
    rcases hs.proposes hev source with rfl | ⟨w, rfl⟩
    · exact newEntry_noop_plain _ _
    · exact newEntry_write_plain _ _ valid
  | accept param log r event role term member prev merged =>
    subst event
    obtain ⟨hlog, -, helection, -⟩ :=
      CoreState.acceptAppend_core (s.storeMerge log r) param.leaderCommit
    have hframe : ((s.storeMerge log r).acceptAppend param.leaderCommit).core.selfId = s.core.selfId ∧
        ((s.storeMerge log r).acceptAppend param.leaderCommit).core.membership =
          s.core.membership := by
      simp only [CoreState.acceptAppend, RaftCore.finishRecovering_eq, CoreState.storeMerge, and_self]
    refine ⟨hframe.1.trans hs.self, ?_, hframe.2.trans hs.membership, hshaped, ?_⟩
    · rw [helection]
      exact hs.electionSelf
    · intro e he
      rw [hlog] at he
      rcases RaftLog.mem_appendEntriesFromLeader hs.shaped.consecutive merged he with h | h
      · exact hs.plain e h
      · exact hev e h
  | install header event =>
    subst event
    refine ⟨?_, ?_, ?_, hshaped, ?_⟩
    · simpa [CoreState.installSnapshot] using hs.self
    · simpa [CoreState.installSnapshot] using hs.electionSelf
    · simp only [CoreState.installSnapshot, RaftCore.installSnapshotIntoLog_membership]
      split
      · exact hs.membership
      · next hne => rw [hev.resolve_left hne]
    · intro e he
      simp only [CoreState.installSnapshot, RaftCore.installSnapshotIntoLog_raftLog] at he
      exact hs.plain e (RaftLog.mem_installSnapshot he)
  | _ => exact ⟨hs.self, hs.electionSelf, hs.membership, hshaped, hs.plain⟩

/-- The messages a regular core builds are plain. -/
theorem RaftCore.Regular.emits (hc : c.Regular g id) {m : RaftMessage} (h : c.Emits ev m) : m.Plain := by
  cases m with
  | appendEntries target param =>
    intro e he
    obtain ⟨-, -, ⟨-, -, rfl⟩ | ⟨seq, -, -, rfl⟩⟩ := h
    · exact hc.plain e (RaftLog.mem_entriesFrom he)
    · cases he
  | _ => trivial

/-- A move sends nothing but what its core may build. -/
theorem Micro.messages (h : Micro ev s s') {m : RaftMessage} (hm : m ∈ s'.effects.messages) :
    m ∈ s.effects.messages ∨ s.core.Emits ev m := by
  cases h with
  | send m' built =>
    rcases List.mem_append.mp hm with hold | hnew
    · exact .inl hold
    · rw [List.mem_singleton.mp hnew]
      exact .inr built
  | offer target built =>
    rcases List.mem_append.mp hm with hold | hnew
    · exact .inl hold
    · rw [List.mem_singleton.mp hnew]
      exact .inr built
  | follow term hle =>
    simp only [CoreState.becomeFollower] at hm
    split at hm <;> exact .inl hm
  | accept param log r =>
    simp only [CoreState.acceptAppend, CoreState.storeMerge] at hm
    split at hm <;> exact .inl hm
  | _ => exact .inl hm

/-- **Handlers of a regular core.** -/
theorem CoreEvent.step_regular (hev : ev.Regular g) (hc : c.Regular g id) :
    (ev.step { core := c }).core.Regular g id ∧
      ∀ m ∈ (ev.step { core := c }).effects.messages, m.Plain := by
  refine CoreEvent.step_induction
    (P := fun s => s.core.Regular g id ∧ ∀ m ∈ s.effects.messages, m.Plain)
    (fun s s' hmove ⟨hs, hsent⟩ => ⟨hmove.regular hev hs, fun m hm => ?_⟩) ⟨hc, by simp⟩
  rcases hmove.messages hm with hold | hbuilt
  · exact hsent m hold
  · exact hs.emits hbuilt

end

/-! ## Applying -/

/-- Every record of a state machine has an id. -/
def KvStateMachine.Named (sm : KvStateMachine) : Prop := ∀ r ∈ sm.requestRecords, r.requestId ≠ []

/-- A request is recorded only under an id. -/
theorem KvStateMachine.Named.apply {sm : KvStateMachine} (h : sm.Named) (e : LogEntry) :
    (sm.apply e).2.Named := by
  simp only [KvStateMachine.apply]
  split
  · exact h
  split
  · exact h
  intro r hr
  dsimp only at hr
  split at hr
  · next hid =>
    simp only [KvStateMachine.record] at hr
    split at hr
    · exact h r hr
    · rcases List.mem_append.mp hr with hold | hnew
      · exact h r hold
      · rw [List.mem_singleton.mp hnew]
        simp only [Bool.and_eq_true, decide_eq_true_eq] at hid
        exact hid.1
  · exact h r hr

/-- Of a regular core applying only moves `last_applied`. -/
theorem ApplyMove.regular {id : ReplicaID} {s s' : ApplyState} (h : ApplyMove s s') (hs : s.core.Regular g id)
    (hsm : s.stateMachine.Named) :
    s'.core.Regular g id ∧ s'.stateMachine.Named := by
  cases h with
  | pass e committed => exact ⟨hs, hsm.apply e⟩
  | advance e committed plain =>
    have hcommit := (RaftCore.advanceLastApplied_frame s.core e.index).commit
    exact ⟨⟨hs.self, hs.electionSelf, hs.membership,
      ⟨hs.shaped.consecutive, hs.shaped.snapshot_le.trans hcommit.ge⟩, hs.plain⟩, hsm⟩
  | config e committed change ok =>
    -- no config change is in the log
    obtain ⟨i, -, he⟩ := committed
    rw [(hs.plain e (RaftLog.mem_of_entryAt he)).noConfig] at change
    cases change

/-- Applying a whole batch, by induction on its moves. -/
theorem ReplicaLoop.Applies.regular {id : ReplicaID} {s s' : ReplicaState} (h : ReplicaLoop.Applies s s')
    (hs : s.core.Regular g id) (hsm : s.stateMachine.Named) :
    s'.core.Regular g id ∧ s'.stateMachine.Named := by
  rcases h with rfl | ⟨status, a, happly, rfl⟩
  · exact ⟨hs, hsm⟩
  · have hmoves := ApplyState.applyCommittedEntriesInline_moves happly
    clear happly
    induction hmoves with
    | refl => exact ⟨hs, hsm⟩
    | tail _ hmove ih => exact hmove.regular ih.1 ih.2

/-! ## Snapshots -/

/-- A snapshot any replica of the group can restore: it names the group's members, its records have ids. -/
structure SnapshotData.Regular (g : Group) (d : SnapshotData) : Prop where
  members : d.header.members = g.members.members
  ids : ∀ r ∈ d.requestRecords, r.requestId ≠ []

/-- The restored records are those of the snapshot, a later one in place of an earlier one with its id. -/
theorem KvStateMachine.mem_restoreRecords {records : List RequestRecord} {r : RequestRecord} :
    ∀ {start : List RequestRecord},
      r ∈ records.foldl (fun rs r => rs.filter (fun x => x.requestId != r.requestId) ++ [r]) start →
      r ∈ start ∨ r ∈ records := by
  induction records with
  | nil => exact fun h => .inl h
  | cons x records ih =>
    intro start h
    rcases ih h with hmid | hrest
    · rcases List.mem_append.mp hmid with hold | hnew
      · exact .inl (List.mem_of_mem_filter hold)
      · rw [List.mem_singleton.mp hnew]
        exact .inr List.mem_cons_self
    · exact .inr (List.mem_cons_of_mem x hrest)

/-- A regular snapshot can be restored. -/
theorem SnapshotData.Regular.restore {d : SnapshotData} (hd : d.Regular g) :
    ∃ sm, KvStateMachine.restore d = .ok sm ∧ sm.Named := by
  have hids : ¬ (d.requestRecords.any fun r => r.requestId == []) = true := by
    intro hany
    obtain ⟨r, hr, hid⟩ := List.any_eq_true.mp hany
    exact hd.ids r hr (by simpa using hid)
  refine ⟨_, if_neg hids, fun r hr => ?_⟩
  rcases KvStateMachine.mem_restoreRecords hr with h | h
  · cases h
  · exact hd.ids r h

theorem PersistEngine.publishedIndex_eq (p : PersistEngine) : p.publishedIndex = p.header.applyIndex := by
  unfold publishedIndex header
  rcases p.snapshot with - | d <;> rfl

/-- A replica whose published snapshots are those of `F`, one for each index. -/
structure ReplicaState.Regular (g : Group) (F : Nat → Option SnapshotData) (id : ReplicaID)
    (s : ReplicaState) : Prop where
  core : s.core.Regular g id
  records : s.stateMachine.Named
  files : s.persist.Matches s.core
  published : ∀ {d}, s.persist.snapshot = some d → F d.header.applyIndex = some d
  index : s.persist.header.applyIndex = s.core.raftLog.snapshotIndex
  term : s.persist.header.applyTerm = s.core.raftLog.snapshotTerm
  unpublished : ∀ {i d}, F i = some d → i ≤ s.core.raftLog.snapshotIndex

namespace ReplicaState.Regular

variable {g : Group} {F : Nat → Option SnapshotData} {id : ReplicaID} {s s' : ReplicaState} {ev : CoreEvent}

/-- What a dispatch stores is what the core then holds. -/
theorem matches_executeEvent (h : s.persist.Matches s.core) (hc : s.core.raftLog.Consecutive) :
    (s.executeEvent ev).2.1.persist.Matches (s.executeEvent ev).2.1.core := by
  rw [executeEvent_persist, executeEvent_core]
  exact (PersistEngine.persistEffects_matches h (ev.step_noted hc)).2

theorem header_eq {p p' : PersistEngine} (h : p'.snapshot = p.snapshot) : p'.header = p.header := by
  unfold PersistEngine.header
  rw [h]

/-- **Dispatch.** Only an install moves the snapshot, so the published ones stay as they are. -/
theorem executeEvent (h : s.Regular g F id) (hev : ev.Regular g) (hkeeps : ev.KeepsSnapshot) :
    (s.executeEvent ev).2.1.Regular g F id := by
  obtain ⟨hindex, hterm⟩ := CoreEvent.step_snapshot hkeeps h.core.shaped.consecutive
  rw [← executeEvent_core] at hindex hterm
  have hheader := header_eq (executeEvent_snapshot s ev)
  refine ⟨?_, ?_, matches_executeEvent h.files h.core.shaped.consecutive, fun hd => ?_, ?_, ?_,
    fun hF => ?_⟩
  · rw [executeEvent_core]
    exact (CoreEvent.step_regular hev h.core).1
  · rw [executeEvent_stateMachine]
    exact h.records
  · rw [executeEvent_snapshot] at hd
    exact h.published hd
  · rw [hheader, hindex]
    exact h.index
  · rw [hheader, hterm]
    exact h.term
  · rw [hindex]
    exact h.unpublished hF

/-- Publishing a snapshot behind the old one and installing its header. -/
theorem install (h : s.Regular g F id) {d : SnapshotData} {sm : KvStateMachine} {header : SnapshotHeader}
    (hnew : s.core.raftLog.snapshotIndex < d.header.applyIndex) (hsm : sm.Named)
    (hindex : header.applyIndex = d.header.applyIndex) (hterm : header.applyTerm = d.header.applyTerm)
    (hmembers : header.members = [] ∨ header.members = g.members.members) :
    ({ s with persist := { s.persist with snapshot := some d }, stateMachine := sm }.executeEvent
      (.installSnapshot header)).2.1.Regular g (Function.update F d.header.applyIndex (some d)) id := by
  -- the file is published before the log is cut
  set s₁ : ReplicaState :=
    { s with persist := { s.persist with snapshot := some d }, stateMachine := sm } with hs₁
  have hlog : (s₁.executeEvent (.installSnapshot header)).2.1.core.raftLog =
      s.core.raftLog.installSnapshot header.applyIndex header.applyTerm := by
    rw [executeEvent_core]
    exact RaftCore.installSnapshotIntoLog_raftLog s.core header
  have hsnapshot : (s₁.executeEvent (.installSnapshot header)).2.1.persist.snapshot = some d :=
    executeEvent_snapshot s₁ _
  have hheader : (s₁.executeEvent (.installSnapshot header)).2.1.persist.header = d.header := by
    unfold PersistEngine.header
    rw [hsnapshot]
  refine ⟨?_, ?_, matches_executeEvent (s := s₁) h.files h.core.shaped.consecutive, fun hd => ?_, ?_, ?_,
    fun {i d'} hF => ?_⟩
  · rw [executeEvent_core]
    have hev : (CoreEvent.installSnapshot header).Regular g := hmembers
    exact (CoreEvent.step_regular hev h.core).1
  · rw [executeEvent_stateMachine]
    exact hsm
  · rw [hsnapshot] at hd
    cases hd
    exact Function.update_self _ _ _
  · rw [hheader, hlog, ← hindex]
    rfl
  · rw [hheader, hlog, ← hterm]
    rfl
  · rw [hlog]
    show i ≤ header.applyIndex
    by_cases hi : i = d.header.applyIndex
    · omega
    · rw [Function.update_of_ne hi] at hF
      have := h.unpublished hF
      omega

/-- **Applying** leaves the files and the log alone. -/
theorem applies (h : s.Regular g F id) (happlies : ReplicaLoop.Applies s s') : s'.Regular g F id := by
  obtain ⟨hframe, hpersist⟩ := happlies.frame
  obtain ⟨hcore, hrecords⟩ := happlies.regular h.core h.records
  refine ⟨hcore, hrecords, ?_, fun hd => ?_, ?_, ?_, fun hF => ?_⟩
  · have hhard : s'.core.election.hardState = s.core.election.hardState := by
      unfold RaftElection.hardState
      rw [hframe.term, hframe.vote]
    rw [hpersist]
    exact ⟨h.files.1.trans hhard.symm, by rw [hframe.raftLog]; exact h.files.2⟩
  · rw [hpersist] at hd
    exact h.published hd
  · rw [hpersist, hframe.raftLog]
    exact h.index
  · rw [hpersist, hframe.raftLog]
    exact h.term
  · rw [hframe.raftLog]
    exact h.unpublished hF

end ReplicaState.Regular

end AdvisKV
