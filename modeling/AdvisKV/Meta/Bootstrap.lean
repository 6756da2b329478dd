import AdvisKV.Meta.Tasks

/-!
# AdvisKV — the members a group is bootstrapped with

The first replicas of a shard build their Raft group from the list that the instruction to create them carries.
The list is made anew for every instruction, from the desired members that Meta has an observation of. As long
as Meta runs, every desired member has one, and the list is the desired members. After a restart it is not: an
instruction may then list a part of the group, and not even the replica it is for.

Main results:

* `present_lists_desired` — with all observations in place, an instruction lists the desired members.
* `MetaState.Moves.observed` — what keeps the observations in place.
* `bootstrap_lists_agree` — instructions agree while Meta keeps running and the members are left alone.
-/

namespace AdvisKV.Meta

/-- Observations are only ever added by a heartbeat. -/
theorem applyReportedReplicas_observed (now : Int) (p : HeartBeatParam) (t : MetaStoreTxn) (id : ReplicaID)
    (h : (t.observedType id).isSome) : ((applyReportedReplicas now t p).observedType id).isSome := by
  unfold applyReportedReplicas
  generalize p.replicaList = reports
  induction reports generalizing t with
  | nil => exact h
  | cons info reports ih =>
    refine ih _ ?_
    have hheard : (heardType p t info id).isSome := by
      unfold heardType
      split
      · rfl
      · exact h
    rw [(applyReportedReplica_type now p t info).2 id]
    split
    · exact hheard
    · split
      · rfl
      · exact hheard

/-- **The list of an instruction** for a group that is being bootstrapped. -/
theorem present_lists_desired {t : MetaStoreTxn} {p : HeartBeatParam} {e : ExpectedReplica}
    (h : e ∈ presentInstructions t p) {group : ReplicaGroup}
    (hgroup : t.getReplicaGroup (shardOf e.replicaId) = some group) (hmode : group.mode = .bootstrap)
    (hreplicas : ∀ id ∈ group.desiredMembers, (t.getReplica id).isSome)
    (hobserved : ∀ id ∈ group.desiredMembers, (t.observedType id).isSome) :
    e.replicaId ∈ group.desiredMembers ∧
      ∀ id, id ∈ e.initialMembers.map PeerMember.replicaId ↔ id ∈ group.desiredMembers := by
  obtain ⟨-, group', -, hgroup', hdesired, hmembers⟩ := mem_presentInstructions h
  rw [hgroup] at hgroup'
  cases hgroup'
  refine ⟨hdesired, fun id => ?_⟩
  rw [hmembers, mem_buildShardMembers hgroup, hmode]
  constructor
  · intro hlisted
    exact hlisted.1
  · intro hid
    refine ⟨hid, ?_⟩
    obtain ⟨r, hr⟩ := Option.isSome_iff_exists.mp (hreplicas id hid)
    have hsome := hobserved id hid
    unfold MetaStoreTxn.observedType at hsome
    rw [Option.isSome_map] at hsome
    obtain ⟨o, ho⟩ := Option.isSome_iff_exists.mp hsome
    simp [shardMember, hr, ho]

namespace MetaState

variable {s s' : MetaState} {shard : ShardID}

/-- The shard has a group with members. -/
def HasMembers (s : MetaState) (shard : ShardID) : Prop :=
  ∃ group, s.data.durable.replicaGroups.get shard = some group ∧ group.desiredMembers ≠ []

/-- The shard has a group with members that is still being bootstrapped. -/
def Bootstrapping (s : MetaState) (shard : ShardID) : Prop :=
  ∃ group, s.data.durable.replicaGroups.get shard = some group ∧ group.desiredMembers ≠ [] ∧
    group.mode = .bootstrap

/-- **Keeps running**: Meta does not restart while the group is being bootstrapped. -/
def KeepsRunning (shard : ShardID) (s : MetaState) : MetaAction → Prop
  | .restart => ¬s.Bootstrapping shard
  | _ => True

/-- **Left alone**: while the group is being bootstrapped, no change of its members is carried out. -/
def LeftAlone (shard : ShardID) (s : MetaState) : MetaAction → Prop
  | .call (.carryOut _) => s.Bootstrapping shard → s.changesMembers shard = false
  | _ => True

instance : Decidable (s.HasMembers shard) :=
  decidable_of_iff ((s.data.durable.replicaGroups.get shard).any fun g => g.desiredMembers ≠ [])
    (by simp [HasMembers, Option.any_eq_true])

instance : Decidable (s.Bootstrapping shard) :=
  decidable_of_iff ((s.data.durable.replicaGroups.get shard).any fun g =>
      g.desiredMembers ≠ [] ∧ g.mode = .bootstrap)
    (by simp [Bootstrapping, Option.any_eq_true])

instance (a : MetaAction) : Decidable (KeepsRunning shard s a) := by
  unfold KeepsRunning
  split
  · infer_instance
  · infer_instance

instance (a : MetaAction) : Decidable (LeftAlone shard s a) := by
  unfold LeftAlone
  split
  · infer_instance
  · infer_instance

/-- Every member of a group that is being bootstrapped has an observation. -/
def Observed (s : MetaState) (shard : ShardID) : Prop :=
  ∀ group, s.data.durable.replicaGroups.get shard = some group → group.mode = .bootstrap →
    ∀ id ∈ group.desiredMembers, (s.txn.observedType id).isSome

variable {a : MetaAction}

/-- **Observations stay** unless Meta restarts in the middle of a bootstrap. -/
theorem Moves.observed (hs : s.Whole) (h : Moves s a s') (hobs : s.Observed shard)
    (hrunning : KeepsRunning shard s a) : s'.Observed shard := by
  intro group' hgroup' hmode' id hid
  by_cases hquiet : quiet a = true
  · rcases h.member hs hquiet hgroup' hid with ⟨group, hgroup, hmem, htype, hmode⟩ | ⟨-, htype⟩
    · rw [htype]
      refine hobs group hgroup ?_ id hmem
      rcases hmode with hsame | ⟨hraft, -⟩
      · exact hsame ▸ hmode'
      · rw [hraft] at hmode'
        cases hmode'
    · rw [htype]
      rfl
  rcases h.loud hquiet with ⟨now, p, t, rfl, hnode, rfl⟩ | ⟨rfl, rfl⟩
  · have hgroup : s.data.durable.replicaGroups.get shard = some group' := by
      rw [← heard_durable hnode]
      exact hgroup'
    have hbefore : (t.observedType id).isSome := by
      unfold MetaStoreTxn.observedType
      rw [(updateNodeHeartbeat_spec hnode).2 id]
      exact hobs group' hgroup hmode' id hid
    exact (markNoExistReplicas_spec now p _).2.1 id (applyReportedReplicas_observed now p t id hbefore)
  · exact absurd ⟨group', hgroup', List.ne_nil_of_mem hid, hmode'⟩ hrunning

/-! ## Agreement -/

/-- Whoever is being bootstrapped is bootstrapped with the members `desired`. -/
def BootstrapsWith (shard : ShardID) (desired : List ReplicaID) (s : MetaState) : Prop :=
  ∀ group, s.data.durable.replicaGroups.get shard = some group → group.mode = .bootstrap →
    group.desiredMembers ≠ [] → group.desiredMembers = desired

/-- **The members stay** from one step to the next, as long as there are any and they are left alone. A group
that Raft has taken over is not bootstrapped again before it has lost all its members. -/
theorem Moves.bootstrapsWith {desired : List ReplicaID} (h : Moves s a s')
    (hdesired : BootstrapsWith shard desired s) (hmembers : s.HasMembers shard) (halone : LeftAlone shard s a) :
    BootstrapsWith shard desired s' := by
  obtain ⟨group, hgroup, hne⟩ := hmembers
  -- a change of members by the background thread finds the group in Raft's hands, and leaves it there
  have hchange : ∀ now, a = .call (.carryOut now) → s.changesMembers shard = true →
      group.mode = .raftReconfig := by
    intro now haction hchanges
    cases hmode : group.mode with
    | raftReconfig => rfl
    | bootstrap =>
      subst haction
      have hfalse : s.changesMembers shard = false := halone ⟨group, hgroup, hne, hmode⟩
      rw [hchanges] at hfalse
      cases hfalse
  cases h with
  | calls hquiet helsewhere htask =>
    intro g hg
    exact hdesired g (helsewhere.groups ▸ hg)
  | heard now p t haction hnode =>
    intro g hg
    refine hdesired g ?_
    rw [← heard_durable hnode]
    exact hg
  | tidies hquiet htidies hturns hcatalog hobserved hreports htask =>
    intro g' hg' hmode' hne'
    rcases htidies.kept shard group hgroup with ⟨g, hg, hkept, -, hmode⟩ | ⟨-, hempty, -⟩
    · rw [hg] at hg'
      cases hg'
      rw [hkept]
      refine hdesired group hgroup ?_ hne
      rcases hmode with h | h | h
      · rw [← h]
        exact hmode'
      · rw [h] at hmode'
        cases hmode'
      · exact absurd h hne
    · exact absurd hempty hne
  | decided hquiet shard' => exact hdesired
  | placing hquiet task hread => exact hdesired
  | retired now haction shard' group' victims hgroup' hvictims hchanges hright =>
    rcases retireMembers_spec now s.txn group' victims with hsame | ⟨hgroups, -⟩
    · rw [hsame]
      exact hdesired
    · intro g hg hmode hne'
      have hg' := (hgroups shard).symm.trans hg
      split at hg'
      · next heq =>
        cases hg'
        have hshard : group'.shardId = shard' := Keyed.key_of_get hgroup'
        have hsame : shard' = shard := hshard.symm.trans heq
        subst hsame
        rw [hgroup] at hgroup'
        cases hgroup'
        rw [hchange now haction hchanges] at hmode
        cases hmode
      · exact hdesired g hg' hmode hne'
  | grown now haction shard' nodes engine hplaced =>
    rcases addMembers_spec now s.txn shard' engine nodes with
      hsame | ⟨group', fresh, hgroup', -, hgroups, -⟩
    · rw [hsame]
      exact hdesired
    · intro g hg hmode hne'
      have hg' := (hgroups shard).symm.trans hg
      split at hg'
      · next heq =>
        cases hg'
        subst heq
        have hsame : group' = group := Option.some.inj (hgroup'.symm.trans hgroup)
        subst hsame
        rw [hchange now haction (by simp [changesMembers, hplaced])] at hmode
        cases hmode
      · exact hdesired g hg' hmode hne'
  | restarted haction => exact hdesired

/-- A whole state with the observations a bootstrap of the shard needs. -/
structure Ready (shard : ShardID) (s : MetaState) : Prop where
  whole : s.Whole
  observed : s.Observed shard

theorem ready_start (shard : ShardID) : Ready shard {} := by
  refine ⟨whole_start, ?_⟩
  intro group hgroup
  cases hgroup

theorem Ready.step (h : Ready shard s) (hrunning : KeepsRunning shard s a)
    (hstep : MetaState.step a s = some s') : Ready shard s' := by
  have hmoves := Moves.of_step h.whole hstep
  exact ⟨step_whole h.whole hstep, hmoves.observed h.whole h.observed hrunning⟩

/-- In a ready state an instruction for the shard lists exactly the desired members. -/
theorem Ready.lists {p : HeartBeatParam} {e : ExpectedReplica} (h : Ready shard s)
    (he : e ∈ presentInstructions s.txn p) (hshard : shardOf e.replicaId = shard) {group : ReplicaGroup}
    (hgroup : s.data.durable.replicaGroups.get shard = some group) (hmode : group.mode = .bootstrap) :
    e.replicaId ∈ group.desiredMembers ∧
      ∀ id, id ∈ e.initialMembers.map PeerMember.replicaId ↔ id ∈ group.desiredMembers := by
  subst hshard
  refine present_lists_desired he hgroup hmode ?_ (h.observed group hgroup hmode)
  intro id hid
  have hlive := h.whole.exact.live _ group hgroup id hid
  unfold DurableData.standing at hlive
  obtain ⟨r, hr, -⟩ := Option.map_eq_some_iff.mp hlive
  exact Option.isSome_iff_exists.mpr ⟨r, hr⟩

end MetaState

/-- **Instructions agree.** Take a run in which Meta does not restart while the shard's group has members and is
being bootstrapped. Two instructions for the shard, both issued while it is being bootstrapped, with members at
every point in between and no change of members carried out there during the bootstrap, list the same replicas,
and each lists the replica it is for. -/
theorem bootstrap_lists_agree {shard : ShardID} {s₁ s₂ : MetaState}
    (h₁ : Machine.GuardedRun MetaState.step (MetaState.KeepsRunning shard) {} s₁)
    (h₂ : Machine.GuardedRun MetaState.step (fun s a => MetaState.KeepsRunning shard s a ∧
      MetaState.LeftAlone shard s a ∧ s.HasMembers shard) s₁ s₂)
    {p₁ p₂ : HeartBeatParam} {e₁ e₂ : ExpectedReplica}
    (he₁ : e₁ ∈ presentInstructions s₁.txn p₁) (he₂ : e₂ ∈ presentInstructions s₂.txn p₂)
    (hshard₁ : shardOf e₁.replicaId = shard) (hshard₂ : shardOf e₂.replicaId = shard)
    (hboot₁ : s₁.Bootstrapping shard) (hboot₂ : s₂.Bootstrapping shard) :
    (∀ id, id ∈ e₁.initialMembers.map PeerMember.replicaId ↔
        id ∈ e₂.initialMembers.map PeerMember.replicaId) ∧
      e₁.replicaId ∈ e₁.initialMembers.map PeerMember.replicaId ∧
      e₂.replicaId ∈ e₂.initialMembers.map PeerMember.replicaId := by
  obtain ⟨g₁, hg₁, hne₁, hmode₁⟩ := hboot₁
  obtain ⟨g₂, hg₂, hne₂, hmode₂⟩ := hboot₂
  have hready₁ : MetaState.Ready shard s₁ :=
    h₁.invariant (fun _ _ _ hr hrunning hstep => hr.step hrunning hstep) (MetaState.ready_start shard)
  have hstart : MetaState.BootstrapsWith shard g₁.desiredMembers s₁ := by
    intro g hg _ _
    rw [hg₁] at hg
    cases hg
    rfl
  -- along the second part of the run the state stays ready and the members stay
  have hkeeps : ∀ s a s',
      (MetaState.Ready shard s ∧ MetaState.BootstrapsWith shard g₁.desiredMembers s) →
      (MetaState.KeepsRunning shard s a ∧ MetaState.LeftAlone shard s a ∧ s.HasMembers shard) →
      MetaState.step a s = some s' →
      (MetaState.Ready shard s' ∧ MetaState.BootstrapsWith shard g₁.desiredMembers s') := by
    rintro s a s' ⟨hready, hwith⟩ ⟨hrunning, halone, hmembers⟩ hstep
    exact ⟨hready.step hrunning hstep,
      (MetaState.Moves.of_step hready.whole hstep).bootstrapsWith hwith hmembers halone⟩
  obtain ⟨hready₂, hwith₂⟩ := h₂.invariant hkeeps ⟨hready₁, hstart⟩
  have hsame : g₂.desiredMembers = g₁.desiredMembers := hwith₂ g₂ hg₂ hmode₂ hne₂
  obtain ⟨hself₁, hlist₁⟩ := hready₁.lists he₁ hshard₁ hg₁ hmode₁
  obtain ⟨hself₂, hlist₂⟩ := hready₂.lists he₂ hshard₂ hg₂ hmode₂
  refine ⟨fun id => ?_, (hlist₁ _).mpr hself₁, (hlist₂ _).mpr hself₂⟩
  rw [hlist₁, hlist₂, hsame]

/-! ## Two replicas on three nodes -/

/-- Node `n`, and its heartbeat with these replicas. -/
def nodeOf (n : UInt8) : RegisterNodeParam :=
  { nodeId := [n], ip := [n], port := 1, resourcePool := [1], dc := [n] }

def reportsOf (n : UInt8) (replicas : List HeartBeatReplicaInfo) : HeartBeatParam :=
  { nodeId := [n], ip := [n], port := 1, resourcePoolName := [1], dc := [n], replicaList := replicas }

/-- Replica `seq` of the table's shard, which follows. -/
def follows (seq : Int) : HeartBeatReplicaInfo :=
  { replicaId := ⟨0, 0, seq⟩, role := .follower, storageStatus := .ready, term := 1 }

/-- Three nodes register, and a table of one shard is created; its replicas are placed on the first nodes. -/
def place (count : Int) : List MetaAction :=
  calls [.registerNode 0 (nodeOf 1), .registerNode 0 (nodeOf 2), .registerNode 0 (nodeOf 3)] ++
    createWith { oneReplicaTable with replicaCount := count } ++ grow 0

/-- The instruction for a replica of the shard, with the members it lists. -/
def presentFor (seq : Int) (members : List (UInt8 × Int)) : ExpectedReplica :=
  { replicaId := ⟨0, 0, seq⟩
    initialMembers := members.map fun m =>
      { nodeId := [m.1], replicaId := ⟨0, 0, m.2⟩, endpoint := ⟨[m.1], 1⟩ } }

/-- Node 1 is told to create its replica, and after its heartbeat node 2 is told to create its own: both with the
same two members. -/
theorem both_nodes_told_alike :
    ∃ s₁ s₂ e₁ e₂, e₁ ∈ presentInstructions (MetaState.txn s₁) (reportsOf 1 []) ∧
      e₂ ∈ presentInstructions (MetaState.txn s₂) (reportsOf 2 []) ∧ e₁.replicaId ≠ e₂.replicaId ∧
      ∀ id, id ∈ e₁.initialMembers.map PeerMember.replicaId ↔
        id ∈ e₂.initialMembers.map PeerMember.replicaId := by
  obtain ⟨s₁, hs₁⟩ : ∃ s, Machine.runGuarded MetaState.step
      (fun s a => decide (MetaState.KeepsRunning ⟨0, 0⟩ s a)) (place 2) {} = some s := ⟨_, rfl⟩
  obtain ⟨s₂, hs₂⟩ : ∃ s, Machine.runGuarded MetaState.step
      (fun s a => decide (MetaState.KeepsRunning ⟨0, 0⟩ s a ∧ MetaState.LeftAlone ⟨0, 0⟩ s a ∧
        s.HasMembers ⟨0, 0⟩))
      (calls [.heartbeat 1 (reportsOf 1 [follows 0]), .phases 1]) s₁ = some s := by
    cases hs₁
    exact ⟨_, rfl⟩
  have h₁ := (Machine.GuardedRun.of_runGuarded hs₁).mono fun _ _ h => of_decide_eq_true h
  have h₂ := (Machine.GuardedRun.of_runGuarded hs₂).mono fun _ _ h => of_decide_eq_true h
  have he₁ : presentFor 0 [(1, 0), (2, 1)] ∈ presentInstructions s₁.txn (reportsOf 1 []) := by
    cases hs₁
    decide +kernel
  have he₂ : presentFor 1 [(1, 0), (2, 1)] ∈ presentInstructions s₂.txn (reportsOf 2 []) := by
    cases hs₁
    cases hs₂
    decide +kernel
  have hboot₁ : s₁.Bootstrapping ⟨0, 0⟩ := by
    cases hs₁
    decide +kernel
  have hboot₂ : s₂.Bootstrapping ⟨0, 0⟩ := by
    cases hs₁
    cases hs₂
    decide +kernel
  exact ⟨s₁, s₂, _, _, he₁, he₂, by decide,
    (bootstrap_lists_agree h₁ h₂ he₁ he₂ rfl rfl hboot₁ hboot₂).1⟩

/-- Node 1 is told of two members. Then either Meta restarts and hears of the replica on node 2 first: node 1 is
told of that one alone, and not of its own. Or node 2 goes offline and its replica is replaced: node 3 is told of
three members. All the while the group is being bootstrapped and has members. -/
theorem bootstrap_lists_differ :
    ∃ s₁, Machine.Run MetaState.step {} s₁ ∧ s₁.Bootstrapping ⟨0, 0⟩ ∧
      presentFor 0 [(1, 0), (2, 1)] ∈ presentInstructions s₁.txn (reportsOf 1 []) ∧
      (∃ s₂, Machine.GuardedRun MetaState.step (fun s _ => s.HasMembers ⟨0, 0⟩) s₁ s₂ ∧
        s₂.Bootstrapping ⟨0, 0⟩ ∧
        presentFor 0 [(2, 1)] ∈ presentInstructions s₂.txn (reportsOf 1 [])) ∧
      ∃ s₂, Machine.GuardedRun MetaState.step (fun s _ => s.HasMembers ⟨0, 0⟩) s₁ s₂ ∧
        s₂.Bootstrapping ⟨0, 0⟩ ∧
        presentFor 2 [(1, 0), (2, 1), (3, 2)] ∈ presentInstructions s₂.txn (reportsOf 3 []) := by
  obtain ⟨s₁, hs₁⟩ : ∃ s, Machine.run MetaState.step (place 2) {} = some s := ⟨_, rfl⟩
  refine ⟨s₁, .of_run hs₁, ?_, ?_, ?_, ?_⟩
  · cases hs₁
    decide +kernel
  · cases hs₁
    decide +kernel
  · obtain ⟨s₂, hs₂⟩ : ∃ s, Machine.runGuarded MetaState.step
        (fun s _ => decide (s.HasMembers ⟨0, 0⟩))
        (.restart :: calls [.registerNode 1 (nodeOf 1), .registerNode 1 (nodeOf 2),
          .heartbeat 1 (reportsOf 2 [follows 1])]) s₁ = some s := by
      cases hs₁
      exact ⟨_, rfl⟩
    refine ⟨s₂, (Machine.GuardedRun.of_runGuarded hs₂).mono fun _ _ h => of_decide_eq_true h, ?_⟩
    cases hs₁
    cases hs₂
    decide +kernel
  · obtain ⟨s₂, hs₂⟩ : ∃ s, Machine.runGuarded MetaState.step
        (fun s _ => decide (s.HasMembers ⟨0, 0⟩))
        (calls [.heartbeat 50000 (reportsOf 1 []), .heartbeat 50000 (reportsOf 3 []),
          .checkNodes 0 50000 [[2]], .phases 50000] ++ grow 50000) s₁ = some s := by
      cases hs₁
      exact ⟨_, rfl⟩
    refine ⟨s₂, (Machine.GuardedRun.of_runGuarded hs₂).mono fun _ _ h => of_decide_eq_true h, ?_⟩
    cases hs₁
    cases hs₂
    decide +kernel

end AdvisKV.Meta
