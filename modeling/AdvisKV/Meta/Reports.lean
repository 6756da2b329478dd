import AdvisKV.Meta.Tasks

/-!
# AdvisKV — reports of another generation

Meta keeps, for every shard, the term and the leader of the last membership report it accepted, and refuses
reports of a lower term or of another leader of the same term. The record belongs to the shard and not to the
group: when every member is retired and the group starts again with new replicas, their Raft group starts again
at low terms, and the report of the old generation still stands in their way.

Which generation a report is of is not written down anywhere; `Generations` keeps it beside the state of Meta.

Main results:

* `shouldAcceptMembershipReport_iff` — what the filter lets through.
* `Generations.step_parted` — the leader of a report from an earlier generation is not desired any more.
* `new_generation_heard_iff` — exactly when no report is refused on account of an earlier generation.
-/

namespace AdvisKV.Meta

variable {t : MetaStoreTxn} {p : HeartBeatParam} {info : HeartBeatReplicaInfo} {shard : ShardID}

/-! ## One report -/

/-- **The filter.** -/
theorem shouldAcceptMembershipReport_iff {observed : Option MembershipObserved} :
    shouldAcceptMembershipReport observed info = true ↔ ∀ o, observed = some o →
      o.term < info.term ∨ (o.term = info.term ∧ o.leader = info.replicaId) := by
  rcases observed with _ | o
  · simp [shouldAcceptMembershipReport]
  · simp only [shouldAcceptMembershipReport, Option.some.injEq, forall_eq']
    by_cases hlt : o.term < info.term
    · simp [hlt]
    · by_cases hgt : info.term < o.term
      · have hne : o.term ≠ info.term := by omega
        simp [hlt, hgt, hne]
      · have heq : o.term = info.term := by omega
        rw [if_neg hlt, if_neg hgt, beq_iff_eq]
        constructor
        · intro hleader
          exact Or.inr ⟨heq, hleader.symm⟩
        · rintro (h | ⟨-, hleader⟩)
          · exact absurd h hlt
          · exact hleader.symm

theorem getMembershipObserved_put (t : MetaStoreTxn) (shard shard' : ShardID) (o : MembershipObserved) :
    (t.putMembershipObserved shard o).getMembershipObserved shard' =
      if shard = shard' then some o else t.getMembershipObserved shard' := by
  unfold MetaStoreTxn.getMembershipObserved MetaStoreTxn.putMembershipObserved MetaStoreTxn.modifyRuntime
  rw [Keyed.get_put]
  split
  · rfl
  · rfl

/-- **A desired leader's report** is taken over exactly when no report accepted before has a higher term, or the
same term and another leader. -/
theorem report_taken_iff (now : Int) (hmembers : info.fullMembership ≠ [])
    (hdesired : info.replicaId ∈ t.durable.members (shardOf info.replicaId)) :
    (projectLeaderMembership now t info).getMembershipObserved (shardOf info.replicaId) =
        some { term := info.term, leader := info.replicaId } ↔
      ∀ o, t.getMembershipObserved (shardOf info.replicaId) = some o →
        o.term < info.term ∨ (o.term = info.term ∧ o.leader = info.replicaId) := by
  obtain ⟨group, hgroup, hmem⟩ := DurableData.mem_members.mp hdesired
  have hget : t.getReplicaGroup (shardOf info.replicaId) = some group := hgroup
  have hshard : group.shardId = shardOf info.replicaId := Keyed.key_of_get hgroup
  simp only [projectLeaderMembership, if_neg hmembers, hget, if_neg (not_not.mpr hmem), hshard]
  rw [← shouldAcceptMembershipReport_iff]
  by_cases haccept : shouldAcceptMembershipReport
      (t.getMembershipObserved (shardOf info.replicaId)) info = true
  · rw [haccept, if_neg (by decide), getMembershipObserved_put, if_pos rfl]
    exact ⟨fun _ => rfl, fun _ => rfl⟩
  · rw [Bool.not_eq_true] at haccept
    rw [haccept, if_pos (by decide)]
    constructor
    · -- a record of this very term and leader would have been accepted
      intro hsame
      rw [hsame] at haccept
      simp [shouldAcceptMembershipReport] at haccept
    · intro hfalse
      cases hfalse

/-! ## Whose report is held -/

/-- The report held for a shard is the one that was held, or one of a desired member. -/
def Renews (t t' : MetaStoreTxn) : Prop :=
  t'.durable = t.durable ∧ ∀ shard, t'.getMembershipObserved shard = t.getMembershipObserved shard ∨
    ∃ o, t'.getMembershipObserved shard = some o ∧ o.leader ∈ t.durable.members shard

variable {t' : MetaStoreTxn}

theorem Renews.trans {t'' : MetaStoreTxn} (h : Renews t t') (h' : Renews t' t'') : Renews t t'' := by
  refine ⟨h'.1.trans h.1, fun shard => ?_⟩
  rcases h'.2 shard with hsame | ⟨o, ho, hleader⟩
  · rw [hsame]
    exact h.2 shard
  · exact Or.inr ⟨o, ho, h.1 ▸ hleader⟩

/-- Writes of other runtime data. -/
theorem Renews.of_reports (hdurable : t'.durable = t.durable)
    (hreports : t'.runtime.membershipObserveds = t.runtime.membershipObserveds) : Renews t t' := by
  refine ⟨hdurable, fun shard => Or.inl ?_⟩
  unfold MetaStoreTxn.getMembershipObserved
  rw [hreports]

theorem Renews.foldl {α : Type} {f : MetaStoreTxn → α → MetaStoreTxn} (hf : ∀ t a, Renews t (f t a))
    (as : List α) (t : MetaStoreTxn) : Renews t (as.foldl f t) := by
  induction as generalizing t with
  | nil => exact .of_reports rfl rfl
  | cons a as ih => exact (hf t a).trans (ih (f t a))

/-- Observed types are no reports. -/
theorem Renews.projectMember (now : Int) (shard : ShardID) (members : List RaftMember) (t : MetaStoreTxn)
    (id : ReplicaID) : Renews t (projectMember now shard members t id) := by
  refine .of_reports (projectMember_spec now shard members t id).1 ?_
  unfold Meta.projectMember
  split
  · rfl
  · dsimp only
    split
    · split <;> rfl
    · rfl

/-- **One reported replica**: only a desired leader replaces the report that is held. -/
theorem Renews.applyReportedReplica (now : Int) (p : HeartBeatParam) (t : MetaStoreTxn)
    (info : HeartBeatReplicaInfo) : Renews t (applyReportedReplica now p t info) := by
  rcases applyReportedReplica_eq now p t info with ⟨-, heq⟩ | ⟨-, o, -, heq⟩
  · rw [heq]
    exact .of_reports rfl rfl
  have hput : Renews t (t.putReplicaObserved info.replicaId o) := .of_reports rfl rfl
  rw [heq]
  by_cases hrole : info.role = .leader
  · rw [if_pos hrole, projectLeaderMembership_eq now o hrole]
    rcases haccept : accepts t info with _ | group
    · exact hput
    · obtain ⟨hgroup, hmem⟩ := accepts_some haccept
      have hshard : group.shardId = shardOf info.replicaId := Keyed.key_of_get hgroup
      have hall := hput.trans (.foldl (Renews.projectMember now group.shardId info.fullMembership)
        group.desiredMembers _)
      refine ⟨hall.1, fun shard => ?_⟩
      dsimp only
      rw [getMembershipObserved_put]
      split
      · next heq =>
        refine Or.inr ⟨_, rfl, DurableData.mem_members.mpr ⟨group, ?_, hmem⟩⟩
        rw [← heq, hshard]
        exact hgroup
      · exact hall.2 shard
  · rw [if_neg hrole]
    exact hput

theorem Renews.markNoExist (now : Int) (p : HeartBeatParam) (t : MetaStoreTxn) (r : Replica) :
    Renews t (markNoExist now p t r) := by
  unfold Meta.markNoExist
  split
  · exact .of_reports rfl rfl
  · split
    · exact .of_reports rfl rfl
    · exact .of_reports rfl rfl

theorem Renews.updateNodeHeartbeat {now : Int} (h : updateNodeHeartbeat now t p = .ok t') : Renews t t' := by
  unfold Meta.updateNodeHeartbeat at h
  split at h
  · cases h
  · dsimp only at h
    split at h <;> cases h <;> exact .of_reports rfl rfl

/-- New members are observed, but nothing is reported of them. -/
theorem addMembers_reports (now : Int) (t : MetaStoreTxn) (shard : ShardID) (engine : EngineType)
    (nodes : List Node) :
    (addMembers now t shard engine nodes).runtime.membershipObserveds = t.runtime.membershipObserveds := by
  have hobserve : ∀ (fresh : List (Replica × Node)) (t : MetaStoreTxn), (fresh.foldl (fun t p =>
      t.putReplicaObserved p.1.replicaId { endpoint := p.2.state.endpoint, updateTs := now })
      t).runtime.membershipObserveds = t.runtime.membershipObserveds := by
    intro fresh
    induction fresh with
    | nil => exact fun _ => rfl
    | cons x fresh ih => exact fun t => ih _
  unfold addMembers
  split
  · rfl
  · split
    · rfl
    · refine (hobserve _ _).trans ?_
      unfold MetaStoreTxn.putReplicas
      split <;> rfl

/-- Between heartbeats the reports stay. -/
theorem MetaState.Moves.reports {s s' : MetaState} {a : MetaAction} (h : Moves s a s')
    (hquiet : quiet a = true) : s'.data.runtime.membershipObserveds = s.data.runtime.membershipObserveds := by
  cases h with
  | calls _ helsewhere => exact helsewhere.reports
  | heard now p t haction =>
    subst haction
    cases hquiet
  | tidies _ htidies hturns hcatalog hobserved hreports => exact hreports
  | decided => rfl
  | placing => rfl
  | retired now haction shard group victims =>
    rcases retireMembers_spec now s.txn group victims with hsame | ⟨-, -, hruntime, -⟩
    · rw [hsame]
      rfl
    · exact congrArg RuntimeData.membershipObserveds hruntime
  | grown now haction shard nodes engine => exact addMembers_reports now s.txn shard engine nodes
  | restarted haction =>
    subst haction
    cases hquiet

/-! ## Generations -/

/-- The group is in BOOTSTRAP and has no members. -/
def DurableData.asNew (d : DurableData) (shard : ShardID) : Bool :=
  (d.replicaGroups.get shard).any fun g => decide (g.mode = .bootstrap ∧ g.desiredMembers = [])

/-- Meta with the generations of its groups: how often a group has started as new, and in which generation the
report that is held for the shard was accepted. -/
structure Generations where
  state : MetaState := {}
  generation : ShardID → Nat := fun _ => 0
  reported : ShardID → Nat := fun _ => 0

namespace Generations

def step (a : MetaAction) (g : Generations) : Option Generations :=
  (MetaState.step a g.state).map fun s' =>
    { state := s'
      generation := fun shard => g.generation shard +
        if s'.data.durable.asNew shard && !g.state.data.durable.asNew shard then 1 else 0
      reported := fun shard =>
        if s'.txn.getMembershipObserved shard = g.state.txn.getMembershipObserved shard then g.reported shard
        else g.generation shard }

/-- While the transaction `t` of a heartbeat is under way, `o` is held for the shard and is of an earlier
generation. A report that the same heartbeat has accepted is of the present one. -/
def HoldsEarlier (g : Generations) (t : MetaStoreTxn) (shard : ShardID) (o : MembershipObserved) : Prop :=
  t.getMembershipObserved shard = some o ∧
    t.getMembershipObserved shard = g.state.txn.getMembershipObserved shard ∧ g.reported shard < g.generation shard

/-- The state is whole; a report is one of a member of its shard, and if it is of an earlier generation, that
member is not desired any more. -/
structure Parted (g : Generations) : Prop where
  whole : g.state.Whole
  spent : ∀ shard o, g.state.txn.getMembershipObserved shard = some o → Spent g.state.data.durable o.leader
  left : ∀ shard o, g.state.txn.getMembershipObserved shard = some o → g.reported shard < g.generation shard →
    o.leader ∉ g.state.data.durable.members shard

/-- No leader has been reported yet. -/
theorem parted_start : Parted {} where
  whole := MetaState.whole_start
  spent := by
    intro shard o ho
    cases ho
  left := by
    intro shard o ho
    cases ho

/-- A group that counts as new has no members. -/
theorem members_of_asNew {d : DurableData} (h : d.asNew shard = true) : d.members shard = [] := by
  obtain ⟨group, hgroup, hnew⟩ := (Option.any_eq_true _ _).mp h
  unfold DurableData.members
  rw [hgroup]
  exact (of_decide_eq_true hnew).2

variable {g g' : Generations} {a : MetaAction}

/-- A heartbeat leaves the generations, and brings reports of desired members only. -/
theorem Parted.heard (h : g.Parted) {s' : MetaState} (hs : s'.Whole) (hrenews : Renews g.state.txn s'.txn)
    (hstep : MetaState.step a g.state = some s') : ∀ g', g.step a = some g' → g'.Parted := by
  intro g' hg'
  unfold step at hg'
  rw [hstep] at hg'
  cases hg'
  have hdurable : s'.data.durable = g.state.data.durable := hrenews.1
  refine ⟨hs, fun shard o ho => ?_, fun shard o ho hearlier => ?_⟩
  · show Spent s'.data.durable o.leader
    rw [hdurable]
    rcases hrenews.2 shard with hsame | ⟨o', ho', hleader⟩
    · exact h.spent shard o (hsame ▸ ho)
    · rw [ho] at ho'
      cases ho'
      exact h.whole.exact.spent_member hleader
  · dsimp only at ho hearlier ⊢
    rw [hdurable] at hearlier ⊢
    simp only [Bool.and_not_self, Bool.false_eq_true, if_false, Nat.add_zero] at hearlier
    split at hearlier
    · next hsame => exact h.left shard o (hsame ▸ ho) hearlier
    · exact absurd hearlier (lt_irrefl _)

/-- **One step**: a number is not handed out again, so a leader that has left its group does not come back. -/
theorem step_parted (h : g.Parted) (hstep : g.step a = some g') : g'.Parted := by
  obtain ⟨s', hmeta, -⟩ := Option.map_eq_some_iff.mp hstep
  have hmoves := MetaState.Moves.of_step h.whole hmeta
  have hs := MetaState.step_whole h.whole hmeta
  by_cases hquiet : MetaState.quiet a = true
  · unfold step at hstep
    rw [hmeta] at hstep
    cases hstep
    have hreports : ∀ shard, s'.txn.getMembershipObserved shard = g.state.txn.getMembershipObserved shard :=
      fun shard => congrArg (fun r => (Keyed.get r shard).map Prod.snd) (hmoves.reports hquiet)
    refine ⟨hs, fun shard o ho => hmoves.spent (h.spent shard o (hreports shard ▸ ho)),
      fun shard o ho hearlier hmem => ?_⟩
    have hbefore := h.spent shard o (hreports shard ▸ ho)
    dsimp only at hearlier hmem
    rw [if_pos (hreports shard)] at hearlier
    split at hearlier
    · next hnew =>
      rw [members_of_asNew (Bool.and_eq_true_iff.mp hnew).1] at hmem
      cases hmem
    · obtain ⟨group', hgroup', hmem'⟩ := DurableData.mem_members.mp hmem
      rcases hmoves.member h.whole hquiet hgroup' hmem' with ⟨group, hgroup, hold, -⟩ | ⟨hnew, -⟩
      · exact h.left shard o (hreports shard ▸ ho) hearlier (DurableData.mem_members.mpr ⟨group, hgroup, hold⟩)
      · exact hnew hbefore
  rcases hmoves.loud hquiet with ⟨now, p, t, rfl, hnode, rfl⟩ | ⟨rfl, rfl⟩
  · refine h.heard hs ?_ hmeta g' hstep
    exact (Renews.updateNodeHeartbeat hnode).trans ((Renews.foldl (Renews.applyReportedReplica now p) _ _).trans
      (Renews.foldl (Renews.markNoExist now p) _ _))
  · cases hstep
    refine ⟨hs, fun shard o ho => ?_, fun shard o ho => ?_⟩
    · cases ho
    · cases ho

end Generations

/-- **Reports of a new generation.** In every run of Meta, when a heartbeat, after the reports `before`, comes to
the report of a leader that is a desired member: the report is not refused on account of a report from an earlier
generation exactly when each report that is held from an earlier generation has a lower term. -/
theorem new_generation_heard_iff {g : Generations} (hrun : Machine.Run Generations.step {} g) {now : Int}
    (hnode : updateNodeHeartbeat now g.state.txn p = .ok t) (before : List HeartBeatReplicaInfo)
    (hmembers : info.fullMembership ≠ [])
    (hdesired : info.replicaId ∈ g.state.data.durable.members (shardOf info.replicaId)) :
    (∀ o, g.HoldsEarlier (before.foldl (applyReportedReplica now p) t) (shardOf info.replicaId) o →
      (projectLeaderMembership now (before.foldl (applyReportedReplica now p) t) info).getMembershipObserved
        (shardOf info.replicaId) = some { term := info.term, leader := info.replicaId }) ↔
    ∀ o, g.HoldsEarlier (before.foldl (applyReportedReplica now p) t) (shardOf info.replicaId) o →
      o.term < info.term := by
  have hg : g.Parted := hrun.invariant (fun _ _ _ hg _ hstep => Generations.step_parted hg hstep)
    Generations.parted_start
  have hdurable : (before.foldl (applyReportedReplica now p) t).durable = g.state.data.durable :=
    ((Renews.updateNodeHeartbeat hnode).trans (Renews.foldl (Renews.applyReportedReplica now p) before t)).1
  refine forall_congr' fun o => forall_congr' fun hheld => ?_
  obtain ⟨ho, hsame, hearlier⟩ := hheld
  rw [report_taken_iff now hmembers (by rw [hdurable]; exact hdesired)]
  constructor
  · intro hall
    rcases hall o ho with hlt | ⟨-, hleader⟩
    · exact hlt
    · -- the leader of an earlier generation is not desired any more
      exact absurd (hleader ▸ hdesired) (hg.left _ o (hsame ▸ ho) hearlier)
  · intro hlt o' ho'
    rw [ho] at ho'
    cases ho'
    exact Or.inl hlt

/-! ## Two generations -/

/-- The table is scaled to zero and, once its replica is gone, back to one. -/
def nextGeneration : List MetaAction :=
  resize 0 0 ++ settle 0 ++ calls [.heartbeat 1 (onlyNodeReports []), .phases 1] ++ settle 1 ++
    resize 1 1 ++ grow 1

/-- A leader of the second generation whose term is above the old one's is heard. -/
theorem higher_term_of_new_generation_accepted :
    ∃ g t o, Machine.Run Generations.step {} g ∧ updateNodeHeartbeat 2 g.state.txn (onlyNodeReports
        [soleLeader 1 6]) = .ok t ∧ g.HoldsEarlier t ⟨0, 0⟩ o ∧
      (projectLeaderMembership 2 t (soleLeader 1 6)).getMembershipObserved ⟨0, 0⟩ =
        some { term := 6, leader := ⟨0, 0, 1⟩ } := by
  obtain ⟨g, hg⟩ : ∃ g, Machine.run Generations.step (bringUp 5 ++ nextGeneration) {} = some g := ⟨_, rfl⟩
  obtain ⟨t, ht⟩ : ∃ t, updateNodeHeartbeat 2 g.state.txn (onlyNodeReports [soleLeader 1 6]) = .ok t := by
    cases hg
    exact ⟨_, rfl⟩
  have hold : t.getMembershipObserved ⟨0, 0⟩ = some { term := 5, leader := ⟨0, 0, 0⟩ } := by
    cases hg
    cases ht
    decide +kernel
  have hheld : g.HoldsEarlier t ⟨0, 0⟩ { term := 5, leader := ⟨0, 0, 0⟩ } := by
    refine ⟨hold, ?_, ?_⟩
    · cases hg
      cases ht
      decide +kernel
    · cases hg
      decide +kernel
  have hdesired : ⟨0, 0, 1⟩ ∈ g.state.data.durable.members ⟨0, 0⟩ := by
    cases hg
    decide +kernel
  refine ⟨g, t, _, .of_run hg, ht, hheld, ?_⟩
  refine (new_generation_heard_iff (.of_run hg) ht [] (by decide) hdesired).mpr ?_ _ hheld
  rintro o ⟨ho, -⟩
  have hsame : o = { term := 5, leader := ⟨0, 0, 0⟩ } := Option.some.inj (ho.symm.trans hold)
  rw [hsame]
  decide

/-- The old generation's leader was in term 5. The new generation starts its Raft group at term 1, its leader is
a desired member of the group, and the heartbeat with its first report leaves the old one in place. -/
theorem new_generation_refused :
    ∃ g g', Machine.Run Generations.step {} g ∧
      Generations.step (.call (.heartbeat 2 (onlyNodeReports [soleLeader 1 1]))) g = some g' ∧
      g.state.data.durable.members ⟨0, 0⟩ = [⟨0, 0, 1⟩] ∧ g.reported ⟨0, 0⟩ < g.generation ⟨0, 0⟩ ∧
      g'.state.txn.getMembershipObserved ⟨0, 0⟩ = some { term := 5, leader := ⟨0, 0, 0⟩ } := by
  obtain ⟨g, hg⟩ : ∃ g, Machine.run Generations.step (bringUp 5 ++ nextGeneration) {} = some g := ⟨_, rfl⟩
  obtain ⟨g', hg'⟩ : ∃ g', Generations.step
      (.call (.heartbeat 2 (onlyNodeReports [soleLeader 1 1]))) g = some g' := by
    cases hg
    exact ⟨_, rfl⟩
  refine ⟨g, g', .of_run hg, hg', ?_⟩
  cases hg
  cases hg'
  decide +kernel

end AdvisKV.Meta
