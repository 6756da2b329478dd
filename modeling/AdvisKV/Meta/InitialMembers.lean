import AdvisKV.Meta.Bootstrap

/-!
# AdvisKV — whom a new replica hears

A replica that is created from a PRESENT instruction takes messages from its initial members only. For a group that
Raft reconfigures these are the desired members observed as voters, and only an accepted leader report makes Meta
observe one. The observations are gone after a restart, but the group and its mode are not: until the leader has
reported again, instructions list nobody.

What the leaders reported last is kept beside the state of Meta, also over restarts, as `LastReports`.

Main results:

* `ReportedMeta.step_heeded` — the observed voters are those of the last report, if it was heard since the start.
* `present_lists_reported_voters_iff` — exactly when an instruction lists the voters of the last report.
-/

namespace AdvisKV.Meta

/-! ## The last reports -/

/-- The last accepted leader report of a group: the replicas that it listed as voters and that have been desired
ever since, and whether it was accepted since Meta last started. -/
structure LastReport where
  voters : List ReplicaID
  current : Bool
deriving DecidableEq, Repr

def LastReports : Type := ShardID → Option LastReport

namespace LastReports

/-- The report of one replica, taken down if it is accepted. -/
def hear (r : LastReports) (p : HeartBeatParam) (t : MetaStoreTxn) (info : HeartBeatReplicaInfo) :
    LastReports :=
  match (if hears p t info then accepts t info else none) with
  | none => r
  | some group => fun shard =>
    if shard = group.shardId then
      some { voters := group.desiredMembers.filter fun id =>
               reportedType group.shardId info.fullMembership id = .voter
             current := true }
    else r shard

/-- All reports of a heartbeat, each heard in the data its predecessors left. -/
def hearAll (now : Int) (p : HeartBeatParam) :
    List HeartBeatReplicaInfo → MetaStoreTxn → LastReports → LastReports
  | [], _, r => r
  | info :: infos, t, r => hearAll now p infos (applyReportedReplica now p t info) (r.hear p t info)

/-- A restart: the reports were accepted by an earlier incarnation. -/
def outlive (r : LastReports) : LastReports := fun shard =>
  (r shard).map fun report => { report with current := false }

/-- Only those who are still desired count. -/
def keep (r : LastReports) (d : DurableData) : LastReports := fun shard =>
  (r shard).map fun report => { report with voters := report.voters.filter fun id => id ∈ d.members shard }

/-- The last reports after an action in the state `s`. -/
def after (r : LastReports) (s : MetaState) : MetaAction → LastReports
  | .restart => r.outlive
  | .call (.heartbeat now p) =>
    match updateNodeHeartbeat now s.txn p with
    | .error _ => r
    | .ok t => hearAll now p p.replicaList t r
  | _ => r

end LastReports

/-- Meta together with the last reports. -/
structure ReportedMeta where
  state : MetaState := {}
  reports : LastReports := fun _ => none

def ReportedMeta.step (a : MetaAction) (c : ReportedMeta) : Option ReportedMeta :=
  (MetaState.step a c.state).map fun s' => ⟨s', (c.reports.after c.state a).keep s'.data.durable⟩

/-! ## Heeding the last reports -/

/-- **Heeded reports.** The voters of a report are desired; those of a report accepted since the start are observed
as voters; and no other member is. -/
structure Heeds (t : MetaStoreTxn) (r : LastReports) : Prop where
  desired : ∀ shard report, r shard = some report → ∀ id ∈ report.voters, id ∈ t.durable.members shard
  voters : ∀ shard report, r shard = some report → report.current = true →
    ∀ id ∈ report.voters, t.observedType id = some .voter
  reported : ∀ shard, ∀ id ∈ t.durable.members shard, t.observedType id = some .voter →
    ∃ report, r shard = some report ∧ report.current = true ∧ id ∈ report.voters

variable {t : MetaStoreTxn} {r : LastReports} {p : HeartBeatParam} {info : HeartBeatReplicaInfo}

theorem heardType_voter_iff {id : ReplicaID} :
    heardType p t info id = some .voter ↔ t.observedType id = some .voter := by
  unfold heardType
  split
  · rcases t.observedType id with _ | type
    · simp
    · simp
  · rfl

/-- **One report.** -/
theorem Heeds.hear (now : Int) (hplaced : Placed t.durable) (h : Heeds t r) :
    Heeds (applyReportedReplica now p t info) (r.hear p t info) := by
  obtain ⟨hdurable, htype⟩ := applyReportedReplica_type now p t info
  unfold LastReports.hear
  rcases haccept : (if hears p t info = true then accepts t info else none) with _ | group
  · -- nobody's type becomes voter, and no voter's type changes
    simp only [haccept] at htype
    refine ⟨by rw [hdurable]; exact h.desired, ?_, ?_⟩
    · intro shard report hreport hcurrent id hid
      rw [htype, heardType_voter_iff]
      exact h.voters shard report hreport hcurrent id hid
    · intro shard id hid hvoter
      rw [hdurable] at hid
      rw [htype, heardType_voter_iff] at hvoter
      exact h.reported shard id hid hvoter
  simp only [haccept] at htype
  have hgroup : t.durable.replicaGroups.get group.shardId = some group := by
    have hget : t.durable.replicaGroups.get (shardOf info.replicaId) = some group := by
      split at haccept
      · exact (accepts_some haccept).1
      · cases haccept
    rw [Keyed.key_of_get hget]
    exact hget
  have hmembers : t.durable.members group.shardId = group.desiredMembers := by
    unfold DurableData.members
    rw [hgroup]
  -- a report does not speak of the members of another group
  have hother : ∀ shard, shard ≠ group.shardId → ∀ id ∈ t.durable.members shard,
      ((applyReportedReplica now p t info).observedType id = some .voter ↔
        t.observedType id = some .voter) := by
    intro shard hne id hid
    rw [htype, if_neg, heardType_voter_iff]
    rintro ⟨hmem, -⟩
    exact hne ((hplaced.shardOf_member hid).symm.trans (hplaced.shardOf_member (hmembers ▸ hmem)))
  refine ⟨?_, ?_, ?_⟩
  · intro shard report hreport id hid
    rw [hdurable]
    dsimp only at hreport
    split at hreport
    · next heq =>
      cases hreport
      rw [heq, hmembers]
      exact (List.mem_filter.mp hid).1
    · exact h.desired shard report hreport id hid
  · intro shard report hreport hcurrent id hid
    dsimp only at hreport
    split at hreport
    · next heq =>
      cases hreport
      obtain ⟨hmem, hvoter⟩ := List.mem_filter.mp hid
      rw [htype, if_pos ⟨hmem, hplaced.getReplica_member (hmembers ▸ hmem)⟩, of_decide_eq_true hvoter]
    · next hne =>
      exact (hother shard hne id (h.desired shard report hreport id hid)).mpr
        (h.voters shard report hreport hcurrent id hid)
  · intro shard id hid hvoter
    rw [hdurable] at hid
    dsimp only
    by_cases heq : shard = group.shardId
    · rw [heq, hmembers] at hid
      rw [htype, if_pos ⟨hid, hplaced.getReplica_member (hmembers ▸ hid)⟩] at hvoter
      rw [if_pos heq]
      exact ⟨_, rfl, rfl, List.mem_filter.mpr ⟨hid, decide_eq_true (Option.some.inj hvoter)⟩⟩
    · rw [if_neg heq]
      exact h.reported shard id hid ((hother shard heq id hid).mp hvoter)

/-- **A whole heartbeat.** -/
theorem Heeds.hearAll (now : Int) (infos : List HeartBeatReplicaInfo) (hplaced : Placed t.durable)
    (h : Heeds t r) :
    Heeds (infos.foldl (applyReportedReplica now p) t) (LastReports.hearAll now p infos t r) := by
  induction infos generalizing t r with
  | nil => exact h
  | cons info infos ih =>
    refine ih ?_ (h.hear now hplaced)
    rw [(applyReportedReplica_type now p t info).1]
    exact hplaced

variable {t' : MetaStoreTxn}

/-- Reports are heeded as long as the members and their types are the same. -/
theorem Heeds.congr (h : Heeds t r) (hdurable : t'.durable = t.durable)
    (htype : ∀ shard, ∀ id ∈ t.durable.members shard, t'.observedType id = t.observedType id) :
    Heeds t' r where
  desired := by
    rw [hdurable]
    exact h.desired
  voters := by
    intro shard report hreport hcurrent id hid
    rw [htype shard id (h.desired shard report hreport id hid)]
    exact h.voters shard report hreport hcurrent id hid
  reported := by
    intro shard id hid hvoter
    rw [hdurable] at hid
    rw [htype shard id hid] at hvoter
    exact h.reported shard id hid hvoter

theorem LastReports.keep_some {d : DurableData} {shard : ShardID} {report : LastReport}
    (h : r.keep d shard = some report) :
    ∃ before, r shard = some before ∧ report.current = before.current ∧
      ∀ id, id ∈ report.voters ↔ id ∈ before.voters ∧ id ∈ d.members shard := by
  unfold keep at h
  obtain ⟨before, hbefore, rfl⟩ := Option.map_eq_some_iff.mp h
  exact ⟨before, hbefore, rfl, fun id => by simp⟩

/-- Reports are heeded when the old members keep their types and the new ones are no voters. -/
theorem Heeds.keep (h : Heeds t r) (hmember : ∀ shard, ∀ id ∈ t'.durable.members shard,
      (id ∈ t.durable.members shard ∧ t'.observedType id = t.observedType id) ∨
      (id ∉ t.durable.members shard ∧ t'.observedType id = some .nonMember)) :
    Heeds t' (r.keep t'.durable) where
  desired := by
    intro shard report hreport id hid
    obtain ⟨before, -, -, hvoters⟩ := LastReports.keep_some hreport
    exact ((hvoters id).mp hid).2
  voters := by
    intro shard report hreport hcurrent id hid
    obtain ⟨before, hbefore, hsame, hvoters⟩ := LastReports.keep_some hreport
    obtain ⟨hold, hnow⟩ := (hvoters id).mp hid
    rcases hmember shard id hnow with ⟨-, htype⟩ | ⟨hnew, -⟩
    · rw [htype]
      exact h.voters shard before hbefore (hsame ▸ hcurrent) id hold
    · exact absurd (h.desired shard before hbefore id hold) hnew
  reported := by
    intro shard id hid hvoter
    rcases hmember shard id hid with ⟨hold, htype⟩ | ⟨-, htype⟩
    · rw [htype] at hvoter
      obtain ⟨report, hreport, hcurrent, hlisted⟩ := h.reported shard id hold hvoter
      refine ⟨{ report with voters := report.voters.filter fun id => id ∈ t'.durable.members shard }, ?_,
        hcurrent, List.mem_filter.mpr ⟨hlisted, decide_eq_true hid⟩⟩
      unfold LastReports.keep
      rw [hreport]
      rfl
    · rw [htype] at hvoter
      cases hvoter

namespace ReportedMeta

variable {c c' : ReportedMeta} {a : MetaAction}

/-- The state is whole and heeds the last reports. -/
structure Heeded (c : ReportedMeta) : Prop where
  whole : c.state.Whole
  heeds : Heeds c.state.txn c.reports

theorem heeded_start : Heeded {} where
  whole := MetaState.whole_start
  heeds := by
    refine ⟨?_, ?_, ?_⟩
    · intro shard report hreport
      cases hreport
    · intro shard report hreport
      cases hreport
    · intro shard id hid
      cases hid

/-- After a restart nothing is observed, and no report is of this incarnation. -/
theorem heeds_restarted {s : MetaState} (h : Heeds s.txn r) :
    Heeds (MetaStoreTxn.start (.loaded s.data.durable)) r.outlive := by
  refine ⟨?_, ?_, ?_⟩
  · intro shard report hreport id hid
    obtain ⟨before, hbefore, rfl⟩ := Option.map_eq_some_iff.mp hreport
    exact h.desired shard before hbefore id hid
  · intro shard report hreport hcurrent
    obtain ⟨before, -, rfl⟩ := Option.map_eq_some_iff.mp hreport
    cases hcurrent
  · intro shard id hid hvoter
    cases hvoter

theorem heeds_heard {s : MetaState} {now : Int} (hs : s.Whole) (h : Heeds s.txn r)
    (hnode : updateNodeHeartbeat now s.txn p = .ok t) :
    Heeds (markNoExistReplicas now (applyReportedReplicas now t p) p)
      (LastReports.hearAll now p p.replicaList t r) := by
  obtain ⟨hdurable, hobserved⟩ := updateNodeHeartbeat_spec hnode
  have hplaced : Placed t.durable := by
    rw [hdurable]
    exact hs.exact.toPlaced
  have hnoded : Heeds t r := by
    refine h.congr hdurable fun shard id _ => ?_
    unfold MetaStoreTxn.observedType
    rw [hobserved id]
  have hheard : Heeds (applyReportedReplicas now t p) (LastReports.hearAll now p p.replicaList t r) :=
    hnoded.hearAll now p.replicaList hplaced
  obtain ⟨hmark, -, htype⟩ := markNoExistReplicas_spec now p (applyReportedReplicas now t p)
  refine hheard.congr hmark fun shard id hid => htype id ?_
  -- a desired member is not marked
  rw [applyReportedReplicas_durable] at hid ⊢
  rw [hplaced.standing_member hid]
  simp

/-- **One step** heeds the last reports. -/
theorem step_heeded (hc : c.Heeded) (hstep : c.step a = some c') : c'.Heeded := by
  unfold step at hstep
  obtain ⟨s', hmeta, rfl⟩ := Option.map_eq_some_iff.mp hstep
  have hmoves := MetaState.Moves.of_step hc.whole hmeta
  refine ⟨MetaState.step_whole hc.whole hmeta, ?_⟩
  by_cases hquiet : MetaState.quiet a = true
  · have hafter : c.reports.after c.state a = c.reports := by
      unfold LastReports.after
      split
      · cases hquiet
      · cases hquiet
      · rfl
    rw [hafter]
    refine hc.heeds.keep fun shard id hid => ?_
    obtain ⟨group', hgroup', hmem'⟩ := DurableData.mem_members.mp hid
    rcases hmoves.member hc.whole hquiet hgroup' hmem' with ⟨group, hgroup, hmem, htype, -⟩ | ⟨hnew, htype⟩
    · exact Or.inl ⟨DurableData.mem_members.mpr ⟨group, hgroup, hmem⟩, htype⟩
    · exact Or.inr ⟨fun hold => hnew (hc.whole.exact.spent_member hold), htype⟩
  rcases hmoves.loud hquiet with ⟨now, p, t, rfl, hnode, rfl⟩ | ⟨rfl, rfl⟩
  · have hafter : c.reports.after c.state (.call (.heartbeat now p)) =
        LastReports.hearAll now p p.replicaList t c.reports := by
      simp only [LastReports.after, hnode]
    rw [hafter]
    exact (heeds_heard hc.whole hc.heeds hnode).keep fun shard id hid => Or.inl ⟨hid, rfl⟩
  · exact (heeds_restarted hc.heeds).keep fun shard id hid => Or.inl ⟨hid, rfl⟩

theorem heeded_run (hrun : Machine.Run step {} c) : c.Heeded :=
  Machine.GuardedRun.invariant (fun _ _ _ hc _ hstep => step_heeded hc hstep) hrun heeded_start

end ReportedMeta

/-! ## Instructions -/

/-- **An instruction** for a group of Raft's, in every run of Meta: it lists the voters of the group's last report
that are still desired exactly when Meta has not restarted since it accepted that report, or there are none. -/
theorem present_lists_reported_voters_iff {c : ReportedMeta} (hrun : Machine.Run ReportedMeta.step {} c)
    {e : ExpectedReplica} (he : e ∈ presentInstructions c.state.txn p) {group : ReplicaGroup}
    (hgroup : c.state.txn.getReplicaGroup (shardOf e.replicaId) = some group)
    (hmode : group.mode = .raftReconfig) {report : LastReport}
    (hreport : c.reports (shardOf e.replicaId) = some report) :
    (∀ id ∈ report.voters, id ∈ e.initialMembers.map PeerMember.replicaId) ↔
      report.current = true ∨ report.voters = [] := by
  obtain ⟨hwhole, hheeds⟩ := ReportedMeta.heeded_run hrun
  obtain ⟨-, group', -, hgroup', -, hmembers⟩ := mem_presentInstructions he
  rw [hgroup] at hgroup'
  cases hgroup'
  rw [hmembers, hmode]
  have hlisted : ∀ id ∈ report.voters,
      (id ∈ (buildShardMembers c.state.txn (shardOf e.replicaId) true).map PeerMember.replicaId ↔
        c.state.txn.observedType id = some .voter) := by
    intro id hid
    have hdesired := hheeds.desired _ report hreport id hid
    obtain ⟨g, hg, hmem⟩ := DurableData.mem_members.mp hdesired
    have hg' : c.state.txn.getReplicaGroup (shardOf e.replicaId) = some g := hg
    rw [hgroup] at hg'
    cases hg'
    rw [mem_buildShardMembers hgroup, shardMember_voter_iff (hwhole.exact.getReplica_member hdesired)]
    unfold MetaStoreTxn.observedType
    rw [Option.map_eq_some_iff]
    exact ⟨And.right, fun hvoter => ⟨hmem, hvoter⟩⟩
  constructor
  · intro hall
    rcases hvoters : report.voters with _ | ⟨id, rest⟩
    · exact Or.inr rfl
    · -- one listed voter is observed as one, so the report is of this incarnation
      have hid : id ∈ report.voters := by
        rw [hvoters]
        exact List.mem_cons_self
      obtain ⟨report', hreport', hcurrent, -⟩ := hheeds.reported _ id
        (hheeds.desired _ report hreport id hid) ((hlisted id hid).mp (hall id hid))
      rw [hreport] at hreport'
      cases hreport'
      exact Or.inl hcurrent
  · rintro (hcurrent | hnone) id hid
    · exact (hlisted id hid).mpr (hheeds.voters _ report hreport hcurrent id hid)
    · rw [hnone] at hid
      cases hid

/-! ## A second replica -/

/-- The table of one replica is resized to two, and the second replica placed on node 2. -/
def placeSecond : List MetaAction :=
  bringUp 1 ++ calls [.registerNode 0 (nodeOf 2)] ++ resize 0 2 ++ grow 0

/-- The resized group. -/
def resizedGroup : ReplicaGroup :=
  { shardId := ⟨0, 0⟩, mode := .raftReconfig, targetReplicaCount := 2
    desiredMembers := [⟨0, 0, 0⟩, ⟨0, 0, 1⟩], seqAllocator := 2 }

/-- As long as Meta does not restart, node 2 is told of the leader. -/
theorem second_replica_told_of_leader :
    ∃ (e : ExpectedReplica) (report : LastReport), report.voters = [⟨0, 0, 0⟩] ∧ e.replicaId = ⟨0, 0, 1⟩ ∧
      ∀ id ∈ report.voters, id ∈ e.initialMembers.map PeerMember.replicaId := by
  obtain ⟨c, hc⟩ : ∃ c, Machine.run ReportedMeta.step
      (placeSecond ++ calls [.heartbeat 1 (reportsOf 2 [])]) {} = some c := ⟨_, rfl⟩
  have he : presentFor 1 [(1, 0)] ∈ presentInstructions c.state.txn (reportsOf 2 []) := by
    cases hc
    decide +kernel
  have hgroup : c.state.txn.getReplicaGroup ⟨0, 0⟩ = some resizedGroup := by
    cases hc
    decide +kernel
  have hreport : c.reports ⟨0, 0⟩ = some { voters := [⟨0, 0, 0⟩], current := true } := by
    cases hc
    decide +kernel
  exact ⟨_, _, rfl, rfl,
    (present_lists_reported_voters_iff (.of_run hc) he hgroup rfl hreport).mpr (Or.inl rfl)⟩

/-- Meta restarts, and node 2 is heard of before the leader's node: its new replica is to be created without any
members, although the last report named the leader as a voter. -/
theorem second_replica_told_of_nobody :
    ∃ c, Machine.Run ReportedMeta.step {} c ∧
      c.state.txn.getReplicaGroup ⟨0, 0⟩ = some resizedGroup ∧
      c.reports ⟨0, 0⟩ = some { voters := [⟨0, 0, 0⟩], current := false } ∧
      presentInstructions c.state.txn (reportsOf 2 []) = [presentFor 1 []] := by
  obtain ⟨c, hc⟩ : ∃ c, Machine.run ReportedMeta.step (placeSecond ++
      .restart :: calls [.registerNode 1 (nodeOf 2), .heartbeat 1 (reportsOf 2 [])]) {} = some c := ⟨_, rfl⟩
  refine ⟨c, .of_run hc, ?_⟩
  cases hc
  exact ⟨by decide +kernel, by decide +kernel, by decide +kernel⟩

end AdvisKV.Meta
