import AdvisKV.Meta.Exact

/-!
# AdvisKV — what one step of Meta can do

Every transaction of Meta is one of a few kinds: it leaves groups and records alone, it tidies, it hears a
heartbeat, it decides, or it changes the members of one group by a plan that was decided before. Calls from
outside may come between a decision and its transaction, but none of them touches a group, so what the
decision saw of the group is still true.

Main results:

* `reconcileGroup_fits` — a decision fits the group it was made for.
* `MetaState.Moves.of_step` — everything one step can do.
-/

namespace AdvisKV.Meta

open MetaStoreTxn

variable {t t' : MetaStoreTxn}

/-! ## Transactions that do not concern groups -/

/-- A table that is on its way out stays so. -/
def Ages (d d' : DurableData) : Prop := ∀ id, d.tableGone id = some true → d'.tableGone id = some true

/-- The tables are the same. -/
theorem Ages.of_catalog {d d' : DurableData} (h : d'.catalog = d.catalog) : Ages d d' := by
  intro id hgone
  unfold DurableData.tableGone at hgone ⊢
  rw [show d'.tables = d.tables from congrArg Prod.fst h]
  exact hgone

/-- No step of its life leads a table back. -/
theorem TablePhase.Next.isAbsent {phase phase' : TablePhase} (h : phase.Next phase')
    (habsent : phase.isAbsent = true) : phase'.isAbsent = true := by
  cases h with
  | stay => exact habsent
  | drop | gone => rfl
  | created | resize | resized => cases habsent

/-- Tables move on through their lives only. -/
theorem Ages.of_since {omitted : ReplicaID → Prop} (h : Since t omitted t') : Ages t.durable t'.durable := by
  intro id hgone
  obtain ⟨table, htable, habsent⟩ := Option.map_eq_some_iff.mp hgone
  obtain ⟨table', htable', hnext⟩ := h.tables id table htable
  exact Option.map_eq_some_iff.mpr ⟨table', htable', hnext.isAbsent habsent⟩

/-- A transaction that leaves groups, records and what was observed of replicas alone. -/
structure Elsewhere (t t' : MetaStoreTxn) : Prop where
  groups : t'.durable.replicaGroups = t.durable.replicaGroups
  replicas : t'.durable.replicas = t.durable.replicas
  observed : t'.runtime.replicaObserveds = t.runtime.replicaObserveds
  reports : t'.runtime.membershipObserveds = t.runtime.membershipObserveds
  ages : Ages t.durable t'.durable

theorem Elsewhere.refl (t : MetaStoreTxn) : Elsewhere t t := ⟨rfl, rfl, rfl, rfl, fun _ h => h⟩

/-- All that concerns the members of groups. -/
def MetaStoreTxn.memberData (t : MetaStoreTxn) :=
  (t.durable.replicaGroups, t.durable.replicas, t.runtime.replicaObserveds, t.runtime.membershipObserveds)

theorem MetaStoreTxn.Op.memberData_run {op : Op} (h : op.elsewhere = true) (t : MetaStoreTxn) :
    (op.run t).memberData = t.memberData := by
  cases op with
  | deleteDatabase | deleteShardRoute => exact read_ite memberData rfl rfl
  | putDatabase | allocateDbId | allocateTableId | putTable | putNode | putShardRoute => rfl
  | _ => cases h

/-- **Writes elsewhere.** -/
theorem Elsewhere.of_edits (h : Edits t t t') : Elsewhere t t' := by
  have hsame : t'.memberData = t.memberData := by
    induction h with
    | refl => rfl
    | @tail u _ _ hlast ih =>
      obtain ⟨op, ⟨-, helsewhere⟩, rfl⟩ := hlast
      exact (Op.memberData_run helsewhere u).trans ih
  simp only [memberData, Prod.mk.injEq] at hsame
  obtain ⟨hgroups, hreplicas, hobserved, hreports⟩ := hsame
  have hwrites : Writes t (fun _ => False) t t' := h.writes
  exact ⟨hgroups, hreplicas, hobserved, hreports, .of_since hwrites.since⟩

/-! ## Plans -/

/-- What a plan under way may rely on. -/
def Plan.Fits (d : DurableData) : Plan → Prop
  | .removeMembers shard _ => ∀ group, d.replicaGroups.get shard = some group →
      group.targetReplicaCount = 0 ∨ group.mode = .bootstrap
  | .removeSpecificMembers shard victims => ∀ id ∈ victims, shardOf id = shard
  | .cleanupGroup shard => ∀ group, d.replicaGroups.get shard = some group →
      group.targetReplicaCount = 0 → group.desiredMembers = []
  | _ => True

/-- A plan looks at groups only. -/
theorem Plan.Fits.congr {d d' : DurableData} {plan : Plan} (hfits : plan.Fits d)
    (h : d'.replicaGroups = d.replicaGroups) : plan.Fits d' := by
  cases plan with
  | removeMembers | cleanupGroup =>
    intro group hgroup
    rw [h] at hgroup
    exact hfits group hgroup
  | removeSpecificMembers => exact hfits
  | nothing | addMembers => trivial

/-- **A decision** fits the group it was made for. -/
theorem reconcileGroup_fits (h : Placed t.durable) (shard : ShardID) :
    (reconcileGroup t shard).Fits t.durable := by
  unfold reconcileGroup
  rcases hget : t.getReplicaGroup shard with _ | group
  · trivial
  have hown : ∀ id ∈ group.desiredMembers, shardOf id = shard := fun id hid =>
    (h.own shard group hget id hid).1
  -- the plan speaks of whatever group is stored, which is the one that was read
  have hgroup : ∀ g, t.durable.replicaGroups.get shard = some g → g = group := by
    intro g hg
    have hg' : t.getReplicaGroup shard = some g := hg
    rw [hget] at hg'
    exact (Option.some.inj hg').symm
  dsimp only
  split
  · next htarget =>
    split
    · intro g hg
      rw [hgroup g hg]
      exact Or.inl htarget
    · next hcount =>
      intro g hg _
      rw [hgroup g hg]
      exact List.length_eq_zero_iff.mp (by omega)
  next htarget =>
  -- a plan to clean up is only made for a wanted group from here on
  have hclean : (Plan.cleanupGroup shard).Fits t.durable := by
    intro g hg hzero
    rw [hgroup g hg] at hzero
    exact absurd hzero htarget
  split
  · trivial
  split
  · split
    · next victim hvictim =>
      split
      · intro id hid
        rw [List.mem_singleton] at hid
        subst hid
        -- a single victim is a desired member
        unfold selectSingleRemoveVictim at hvictim
        exact hown _ (mem_of_mem_victims (List.mem_of_mem_head? hvictim))
      · trivial
    · exact hclean
  next hmode =>
  split
  · intro id hid
    obtain ⟨r, hr, rfl⟩ := List.mem_map.mp hid
    -- so is every member that is gone for good
    obtain ⟨id', hid', hreplica⟩ := List.mem_filterMap.mp (List.mem_filter.mp hr).1
    have hkey : r.replicaId = id' := Keyed.key_of_get hreplica
    rw [hkey]
    exact hown id' hid'
  split
  · intro g hg
    rw [hgroup g hg]
    right
    cases hg' : group.mode with
    | bootstrap => rfl
    | raftReconfig => exact absurd hg' hmode
  · exact hclean

/-! ## What a task relies on -/

/-- What a task relies on: a plan fits its group, the gathered nodes cover those of the members, and selected
nodes are distinct and free. -/
def Task.Fits (t : MetaStoreTxn) : Task → Prop
  | .plan p => p.Fits t.durable
  | .gathered shard _ _ _ occupied => ∃ group, t.getReplicaGroup shard = some group ∧
      ∀ id ∈ group.desiredMembers, ∀ node, t.durable.nodeOf id = some node → node ≠ [] → node ∈ occupied
  | .placed shard nodes _ => (nodes.map Node.id).Nodup ∧ (∀ n ∈ nodes, n.id ≠ []) ∧
      ∃ group, t.getReplicaGroup shard = some group ∧
        ∀ id ∈ group.desiredMembers, ∀ n ∈ nodes, t.durable.nodeOf id ≠ some n.id
  | .refused shard _ => ∃ group, t.getReplicaGroup shard = some group

variable {task : Task}

/-- A task that fits is about a group that is there. -/
theorem Task.Fits.grounded (h : task.Fits t) : task.Grounded t := by
  cases task with
  | plan => trivial
  | gathered =>
    obtain ⟨group, hgroup, -⟩ := h
    exact ⟨group, hgroup⟩
  | placed =>
    obtain ⟨-, -, group, hgroup, -⟩ := h
    exact ⟨group, hgroup⟩
  | refused => exact h

/-- A task looks at groups and records only. -/
theorem Task.Fits.congr (h : task.Fits t) (hgroups : t'.durable.replicaGroups = t.durable.replicaGroups)
    (hreplicas : t'.durable.replicas = t.durable.replicas) : task.Fits t' := by
  have hgroup : ∀ shard, t'.getReplicaGroup shard = t.getReplicaGroup shard := fun shard =>
    congrArg (fun g : Keyed ReplicaGroup.shardId => g.get shard) hgroups
  have hnode : ∀ id, t'.durable.nodeOf id = t.durable.nodeOf id := fun id =>
    congrArg (fun r : Keyed Replica.replicaId => (r.get id).map _) hreplicas
  cases task with
  | plan plan => exact Plan.Fits.congr h hgroups
  | gathered =>
    simp only [Task.Fits, hgroup, hnode]
    exact h
  | placed =>
    simp only [Task.Fits, hgroup, hnode]
    exact h
  | refused =>
    simp only [Task.Fits, hgroup]
    exact h

/-! ## Steps -/

/-- Cleaning up takes observations of replicas away, but no report. -/
theorem cleanupGroup_reports (t : MetaStoreTxn) (shard : ShardID) :
    (cleanupGroup t shard).runtime.membershipObserveds = t.runtime.membershipObserveds := by
  have hdelete : ∀ (ids : List ReplicaID) (t : MetaStoreTxn),
      (ids.foldl MetaStoreTxn.deleteReplica t).runtime.membershipObserveds =
        t.runtime.membershipObserveds := by
    intro ids
    induction ids with
    | nil => exact fun _ => rfl
    | cons id ids ih =>
      intro t
      refine (ih _).trans ?_
      unfold MetaStoreTxn.deleteReplica
      split <;> rfl
  unfold cleanupGroup
  split
  · rfl
  dsimp only
  split
  · split <;> exact hdelete _ t
  · split <;> exact hdelete _ t

namespace MetaState

/-- The next transaction of the background thread adds members to the shard, or removes some. -/
def changesMembers (s : MetaState) (shard : ShardID) : Bool :=
  match s.task with
  | some (.plan (.removeMembers shard' _)) => shard' = shard
  | some (.plan (.removeSpecificMembers shard' _)) => shard' = shard
  | some (.placed shard' _ _) => shard' = shard
  | _ => false

/-- The victims of a removal that is under way, and the right to retire them: they were named, or the group is
not wanted any more or not yet Raft's. -/
def Retires (s : MetaState) (shard : ShardID) (group : ReplicaGroup) (victims : List ReplicaID) : Prop :=
  s.task = some (.plan (.removeSpecificMembers shard victims)) ∨
    group.targetReplicaCount = 0 ∨ group.mode = .bootstrap

/-- The action neither hears a heartbeat nor restarts Meta. -/
def quiet : MetaAction → Bool
  | .call (.heartbeat _ _) => false
  | .restart => false
  | _ => true

/-- **Everything one step can do.** -/
inductive Moves (s : MetaState) (a : MetaAction) : MetaState → Prop
  /-- A call, or a transaction, that leaves groups, records and observations of replicas alone. -/
  | calls {s' : MetaState} (hquiet : quiet a = true) (helsewhere : Elsewhere s.txn s'.txn)
      (htask : s'.task = s.task ∨ s'.task = none) : Moves s a s'
  | heard (now : Int) (p : HeartBeatParam) (t : MetaStoreTxn) (haction : a = .call (.heartbeat now p))
      (hnode : updateNodeHeartbeat now s.txn p = .ok t) :
      Moves s a { s with data := (markNoExistReplicas now (applyReportedReplicas now t p) p).finish }
  | tidies {s' : MetaState} (hquiet : quiet a = true) (htidies : Tidies s.data.durable s'.data.durable)
      (hturns : TurnsVoters s.data.durable s'.txn)
      (hcatalog : s'.data.durable.catalog = s.data.durable.catalog)
      (hobserved : ∀ id, s.data.durable.standing id ≠ some true →
        s'.txn.getReplicaObserved id = s.txn.getReplicaObserved id)
      (hreports : s'.data.runtime.membershipObserveds = s.data.runtime.membershipObserveds)
      (htask : s'.task = none) : Moves s a s'
  | decided (hquiet : quiet a = true) (shard : ShardID) :
      Moves s a { s with task := planned (reconcileGroup s.txn shard) }
  | placing (hquiet : quiet a = true) (task : Option Task)
      (hread : ∃ before, s.task = some before ∧ before.read s.txn = some task) : Moves s a { s with task }
  | retired (now : Int) (haction : a = .call (.carryOut now)) (shard : ShardID) (group : ReplicaGroup)
      (victims : List ReplicaID)
      (hgroup : s.data.durable.replicaGroups.get shard = some group)
      (hvictims : ∀ id ∈ victims, shardOf id = shard) (hchanges : s.changesMembers shard = true)
      (hright : s.Retires shard group victims) :
      Moves s a { data := (retireMembers now s.txn group victims).finish }
  | grown (now : Int) (haction : a = .call (.carryOut now)) (shard : ShardID) (nodes : List Node)
      (engine : EngineType)
      (hplaced : s.task = some (.placed shard nodes engine)) :
      Moves s a { data := (addMembers now s.txn shard engine nodes).finish }
  | restarted (haction : a = .restart) : Moves s a { data := .loaded s.data.durable }

/-- **All that holds** of the published data and of the task under way. -/
structure Whole (s : MetaState) : Prop where
  catalog : Catalog s.txn
  exact : Exact s.data.durable
  spread : Spread s.data.durable
  housed : Housed s.data.durable
  named : s.txn.getNode [] = none
  fits : ∀ task, s.task = some task → task.Fits s.txn

variable {s s' : MetaState} {c : Call} {f : WriteFunc}

/-- What a call leaves. -/
def leaves (s : MetaState) (c : Call) (f : WriteFunc) : MetaState :=
  { data := (f s.txn).2.finish, task := c.taskAfter s.task }

/-- Only carrying a task out ends it. -/
theorem taskAfter_cases (task : Option Task) (c : Call) :
    c.taskAfter task = task ∨ c.taskAfter task = none := by
  cases c with
  | carryOut => exact Or.inr rfl
  | _ => exact Or.inl rfl

/-- Calls that write elsewhere may come between a decision and its transaction. -/
theorem Moves.of_edits (hquiet : quiet (.call c) = true) (h : Edits s.txn s.txn (f s.txn).2) :
    Moves s (.call c) (s.leaves c f) := by
  obtain ⟨hgroups, hreplicas, hobserved, hreports, hages⟩ := Elsewhere.of_edits h
  exact .calls hquiet ⟨hgroups, hreplicas, hobserved, hreports, hages⟩ (taskAfter_cases s.task c)

/-- A transaction of the background thread that tidies and observes nothing. -/
theorem Moves.of_background {g : MetaStoreTxn → MetaStoreTxn} (hf : s.background g = some f)
    (hquiet : quiet (.call c) = true) (htidies : Tidies s.data.durable (g s.txn).durable)
    (hturns : TurnsVoters s.data.durable (g s.txn)) (hcatalog : (g s.txn).durable.catalog = s.data.durable.catalog)
    (hruntime : (g s.txn).runtime = s.txn.runtime) : Moves s (.call c) (s.leaves c f) := by
  obtain ⟨htask, rfl⟩ := background_some hf
  refine .tidies hquiet htidies hturns hcatalog (fun id _ => ?_) (congrArg _ hruntime) ?_
  · exact congrArg (fun r : RuntimeData => (r.replicaObserveds.get id).map Prod.snd) hruntime
  · rcases taskAfter_cases s.task c with hsame | hnone
    · exact hsame.trans htask
    · exact hnone

variable {now : Int} {p : HeartBeatParam} {a : MetaAction}

/-- The write of a task: members go, come, are cleaned up, or a refusal is noted. -/
theorem Moves.of_carryOut (hs : s.Whole) {task : Task} (htask : s.task = some task)
    (hf : task.func now = some f) : Moves s (.call (.carryOut now)) (s.leaves (.carryOut now) f) := by
  unfold Task.func at hf
  split at hf <;> cases hf
  · next shard count =>
    show Moves s (.call (.carryOut now)) { data := (Meta.removeMembers now s.txn shard count).finish }
    rcases removeMembers_eq now s.txn shard count with hsame | ⟨group, victims, hget, hmem, heq⟩
    · rw [hsame]
      exact .calls rfl (.refl _) (Or.inr rfl)
    · rw [heq]
      -- the count was planned for a group that is not wanted or not yet Raft's
      refine .retired now rfl shard group victims hget ?_ (by simp [changesMembers, htask])
        (Or.inr (hs.fits _ htask group hget))
      intro id hid
      exact (hs.exact.own shard group hget id (hmem id hid)).1
  · next shard victims =>
    show Moves s (.call (.carryOut now))
      { data := (Meta.removeSpecificMembers now s.txn shard victims).finish }
    rcases removeSpecificMembers_eq now s.txn shard victims with hsame | ⟨group, hget, heq⟩
    · rw [hsame]
      exact .calls rfl (.refl _) (Or.inr rfl)
    · rw [heq]
      exact .retired now rfl shard group victims hget (hs.fits _ htask) (by simp [changesMembers, htask])
        (Or.inl htask)
  · next shard =>
    obtain ⟨htidies, hcatalog, hturns, hobserved⟩ := cleanupGroup_spec s.txn shard (hs.fits _ htask)
    exact .tidies rfl htidies hturns hcatalog hobserved (cleanupGroup_reports s.txn shard) rfl
  · exact .grown now rfl _ _ _ htask
  · obtain ⟨group, hgroup⟩ := hs.fits _ htask
    exact .of_edits rfl (noteRefusal_edits hs.catalog now hgroup _)

/-- A heartbeat of a known node; one of an unknown node is an error, and an error is no step. -/
theorem Moves.of_heartbeat (hok : (WriteFunc.valid p.validate (heartbeatTxn now p) s.txn).1.fail = false) :
    Moves s (.call (.heartbeat now p))
      (s.leaves (.heartbeat now p) (.valid p.validate (heartbeatTxn now p))) := by
  have hvalid : p.validate.fail = false := by
    by_contra hfail
    rw [Bool.not_eq_false] at hfail
    rw [WriteFunc.valid, if_pos hfail, hfail] at hok
    cases hok
  unfold leaves
  rw [WriteFunc.valid, if_neg (by simp [hvalid])] at hok ⊢
  unfold heartbeatTxn at hok ⊢
  rcases hnode : updateNodeHeartbeat now s.txn p with st | t
  · rw [hnode] at hok
    exact absurd hok (by simp [updateNodeHeartbeat_fail hnode])
  · exact .heard now p t rfl hnode

/-- What a call that succeeds does. -/
theorem Moves.of_call (hs : s.Whole) (hf : c.func s = some f) (hok : (f s.txn).1.fail = false) :
    Moves s (.call c) (s.leaves c f) := by
  by_cases hc : c.elsewhere = true
  · refine .of_edits ?_ (Call.edits hs.catalog hf hc)
    cases c <;> first | rfl | cases hc
  cases c with
  | heartbeat now p =>
    cases hf
    exact .of_heartbeat hok
  | ensureGroup tableId shardIndex =>
    simp only [Call.func] at hf
    split at hf
    · obtain ⟨htidies, hturns, hcatalog, hruntime⟩ := ensureGroupForShard_spec s.txn tableId shardIndex
      exact .of_background hf rfl htidies hturns hcatalog hruntime
    · cases hf
  | absentTable tableId =>
    simp only [Call.func] at hf
    split at hf
    · next habsent =>
      have hwinds := reconcileAbsentTable_winds s.txn tableId
      have hgone : s.data.durable.tableGone tableId = some true := by
        obtain ⟨table, hget, hphase⟩ := (Option.any_eq_true _ _).mp habsent
        exact Option.map_eq_some_iff.mpr ⟨table, hget, hphase⟩
      exact .of_background hf rfl (hwinds.tidies hgone) hwinds.turnsVoters hwinds.catalog hwinds.runtime
    · cases hf
  | phases now =>
    obtain ⟨hgroups, hcatalog, hruntime, hstanding⟩ := reconcilePhases_spec now s.txn
    exact .of_background hf rfl (.of_groups hgroups fun id => Or.inl (hstanding id)) (.of_groups hgroups)
      hcatalog hruntime
  | carryOut now =>
    obtain ⟨task, htask, hfunc⟩ := Option.bind_eq_some_iff.mp hf
    exact .of_carryOut hs htask hfunc
  | _ => exact absurd rfl hc

/-- What a call that is a step leaves. -/
theorem step_call (h : step (.call c) s = some s') :
    ∃ f, c.func s = some f ∧ (f s.txn).1.fail = false ∧ s' = s.leaves c f := by
  obtain ⟨f, hf, hstep⟩ := Option.bind_eq_some_iff.mp h
  split at hstep <;> cases hstep
  next hok => exact ⟨f, hf, by simpa using hok, rfl⟩

/-- **One step.** A read or a decision moves the task on, a call goes through one transaction. -/
theorem Moves.of_step (hs : s.Whole) (h : step a s = some s') : Moves s a s' := by
  cases a with
  | call c =>
    obtain ⟨f, hf, hok, rfl⟩ := step_call h
    exact .of_call hs hf hok
  | decide shard =>
    simp only [step] at h
    split at h <;> cases h
    exact .decided rfl shard
  | read =>
    obtain ⟨task', hread, rfl⟩ := Option.map_eq_some_iff.mp h
    exact .placing rfl task' (Option.bind_eq_some_iff.mp hread)
  | abandon =>
    cases h
    exact .calls rfl (.refl _) (Or.inr rfl)
  | restart =>
    cases h
    exact .restarted rfl

/-- A step that is not quiet hears a heartbeat or restarts. -/
theorem Moves.loud (h : Moves s a s') (hquiet : quiet a ≠ true) :
    (∃ now p t, a = .call (.heartbeat now p) ∧ updateNodeHeartbeat now s.txn p = .ok t ∧
      s' = { s with data := (markNoExistReplicas now (applyReportedReplicas now t p) p).finish }) ∨
    (a = .restart ∧ s' = { data := .loaded s.data.durable }) := by
  cases h with
  | heard now p t haction hnode => exact Or.inl ⟨now, p, t, haction, hnode, rfl⟩
  | restarted haction => exact Or.inr ⟨haction, rfl⟩
  | retired now haction | grown now haction =>
    subst haction
    exact absurd rfl hquiet
  | _ => contradiction

/-- A heartbeat writes no durable data. -/
theorem heard_durable {t : MetaStoreTxn} (hnode : updateNodeHeartbeat now s.txn p = .ok t) :
    (markNoExistReplicas now (applyReportedReplicas now t p) p).durable = s.data.durable := by
  rw [(markNoExistReplicas_spec now p _).1, applyReportedReplicas_durable,
    (updateNodeHeartbeat_spec hnode).1]
  rfl

end MetaState

end AdvisKV.Meta
