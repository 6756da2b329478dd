import AdvisKV.Meta.ServerRuns

/-!
# AdvisKV — the members of every reachable state

Groups and records are written by several reconcilers, in transactions after reads of their own, and some of
those transactions fail. In every state of every run the desired members of a group are still exactly the
living records of its shard, on different nodes. A replica that is on its way out has its record removed only
after its own node has reported without it; the evidence is looked up in the history of the run.

Main results:

* `Witnessed` with `next_witnessed` — a replica that is taken for gone was omitted by its node.
* `desired_members_are_live`, `members_on_different_nodes` — for every run.
-/

namespace AdvisKV.Meta

open MetaStoreTxn

/-! ## Living replicas -/

/-- A record that lives is neither DELETING nor DELETED. -/
theorem standing_eq_false {t : MetaStoreTxn} {id : ReplicaID} :
    t.durable.standing id = some false ↔ ∃ r, t.getReplica id = some r ∧
      r.state.phase ≠ .deleting ∧ r.state.phase ≠ .deleted := by
  unfold DurableData.standing getReplica
  rw [Option.map_eq_some_iff]
  refine exists_congr fun r => and_congr_right fun _ => ?_
  simp [ReplicaPhase.isAbsent]

/-- **Members are the living replicas**, each once. -/
theorem Exact.members {t : MetaStoreTxn} (h : Exact t.durable) {shard : ShardID} {group : ReplicaGroup}
    (hgroup : t.getReplicaGroup shard = some group) :
    group.desiredMembers.Nodup ∧ ∀ id, id ∈ group.desiredMembers ↔ shardOf id = shard ∧
      ∃ r, t.getReplica id = some r ∧ r.state.phase ≠ .deleting ∧ r.state.phase ≠ .deleted := by
  refine ⟨h.distinct shard group hgroup, fun id => ⟨fun hid => ?_, ?_⟩⟩
  · exact ⟨(h.own shard group hgroup id hid).1, standing_eq_false.mp (h.live shard group hgroup id hid)⟩
  · rintro ⟨rfl, hlive⟩
    obtain ⟨g, hg, hmem⟩ := h.complete id (standing_eq_false.mpr hlive)
    have hsame : some g = some group := hg.symm.trans hgroup
    cases hsame
    exact hmem

/-! ## Evidence -/

/-- A run of the server with its history. -/
abbrev ServerHistory := Machine.Traced Server ServerAction

/-- Some time in the past a heartbeat was taken from the node of the replica, which was DELETING and not
listed. -/
def OmittedIn (past : List (Server × ServerAction)) (id : ReplicaID) : Prop :=
  ∃ w now p fault s', (w, ServerAction.call (.heartbeat now p) fault) ∈ past ∧
    MetaState.step (.call (.heartbeat now p)) w.view = some s' ∧ Omits w.txn p id

/-- What has been omitted stays so as the history grows. -/
theorem OmittedIn.cons {past : List (Server × ServerAction)} {id : ReplicaID} (h : OmittedIn past id)
    (x : Server × ServerAction) : OmittedIn (x :: past) id := by
  obtain ⟨w, now, p, fault, s', hmem, hrest⟩ := h
  exact ⟨w, now, p, fault, s', List.mem_cons_of_mem _ hmem, hrest⟩

/-- Every replica that is DELETED in this data was omitted. -/
def DeletedOmitted (past : List (Server × ServerAction)) (d : DurableData) : Prop :=
  ∀ id r, d.replicas.get id = some r → r.state.phase = .deleted → OmittedIn past id

theorem DeletedOmitted.cons {past : List (Server × ServerAction)} {d : DurableData}
    (h : DeletedOmitted past d) (x : Server × ServerAction) : DeletedOmitted (x :: past) d :=
  fun id r hr hphase => (h id r hr hphase).cons x

/-- **Evidence** for every replica that is taken for gone: in the observations, in the records, and in what a
restart would load. -/
structure Witnessed (h : ServerHistory) : Prop where
  observed : ∀ id, h.now.txn.noExist id = true → OmittedIn h.past id
  records : DeletedOmitted h.past h.now.txn.durable
  visible : ∀ d, World.Loads h.now.store.disk.visible d → DeletedOmitted h.past d

/-- At the start there is nothing to witness. -/
theorem witnessed_start : Witnessed { now := {} } where
  observed := by
    intro id hid
    cases hid
  records := by
    intro id r hr
    cases hr
  visible := by
    intro d hload id r hr
    rw [Server.loads_unique hload ⟨{}, rfl, rfl⟩] at hr
    cases hr

variable {h h' : ServerHistory} {w : Server} {c : Call} {s' : MetaState}

/-- A transaction makes a replica DELETED only when it was observed to be gone. -/
theorem Witnessed.leaves (hh : Witnessed h) (hgood : h.now.Good)
    (hstep : MetaState.step (.call c) h.now.view = some s') : DeletedOmitted h.past s'.data.durable := by
  obtain ⟨t', hwrites, hdata⟩ := hgood.toWhole.writes hstep
  have hsince := hwrites.since
  intro id r hr hphase
  rw [hdata] at hr
  rcases hget : h.now.txn.getReplica id with _ | r₀
  · have hcreating := (hsince.newRecords id r hget hr).1
    rw [hphase] at hcreating
    cases hcreating
  rcases hsince.records id r₀ hget with ⟨r', hr', -, -, hdeleted⟩ | ⟨hnone, -⟩
  · have hsame : some r' = some r := hr'.symm.trans hr
    cases hsame
    rcases hdeleted hphase with hbefore | ⟨-, hgone⟩
    · exact hh.records id r₀ hget hbefore
    · exact hh.observed id hgone
  · exact absurd (hr.symm.trans hnone) (Option.some_ne_none _)

/-- The observations a transaction leaves. -/
theorem Witnessed.leaves_observed (hh : Witnessed h) (hgood : h.now.Good)
    (hstep : MetaState.step (.call c) h.now.view = some s') {fault : Fault} {id : ReplicaID}
    (hgone : s'.txn.noExist id = true) : OmittedIn ((h.now, .call c fault) :: h.past) id := by
  obtain ⟨t', hwrites, hdata⟩ := hgood.toWhole.writes hstep
  unfold MetaState.txn at hgone
  rw [hdata] at hgone
  rcases hwrites.since.gone id hgone with homits | hbefore
  · cases c with
    | heartbeat now p => exact ⟨h.now, now, p, fault, s', List.mem_cons_self, hstep, homits⟩
    | _ => cases homits
  · exact (hh.observed id hbefore).cons _

/-- **One step** keeps the evidence. -/
theorem next_witnessed (hh : Witnessed h) (hgood : h.now.Good) {a : ServerAction}
    (hnext : Machine.Traced.next Server.step a h = some h') : Witnessed h' := by
  obtain ⟨hstep, hpast⟩ := Machine.Traced.next_some hnext
  have hrecords := hh.records.cons (h.now, a)
  have hvisible : ∀ d, World.Loads h.now.store.disk.visible d → DeletedOmitted h'.past d := by
    intro d hload
    rw [hpast]
    exact (hh.visible d hload).cons _
  rw [← hpast] at hrecords
  -- nothing is published: only the file may be another one
  have hkept : h'.now.txn = h.now.txn →
      (∀ d, World.Loads h'.now.store.disk.visible d → DeletedOmitted h'.past d) → Witnessed h' := by
    intro htxn hvisible'
    refine ⟨fun id hgone => ?_, ?_, hvisible'⟩
    · rw [htxn] at hgone
      rw [hpast]
      exact (hh.observed id hgone).cons _
    · rw [htxn]
      exact hrecords
  cases Server.Steps.of_step hgood.toWhole hstep with
  | committed c fault haction hcall hdisk =>
    have hrecords' : DeletedOmitted h'.past h'.now.txn.durable := by
      rw [hpast]
      exact (hh.leaves hgood hcall).cons _
    refine ⟨?_, hrecords', ?_⟩
    · intro id hgone
      rw [hpast, haction]
      exact hh.leaves_observed hgood hcall hgone
    · intro d hload
      rcases hdisk with ⟨hdisk, hvalid⟩ | ⟨hdisk, -⟩
      · rw [hdisk] at hload
        rw [Server.loads_unique hload (Server.loads_step hgood.toWhole hcall hvalid)]
        exact hrecords'
      · rw [hdisk] at hload
        exact hvisible d hload
  | failed c fault haction hview hdisk =>
    refine hkept (Server.durable_of_view hview) fun d hload => ?_
    rcases hdisk with hdisk | ⟨-, s', hcall, hvalid, hdisk⟩
    · rw [hdisk] at hload
      exact hvisible d hload
    · rw [hdisk] at hload
      rw [Server.loads_unique hload (Server.loads_step hgood.toWhole hcall hvalid), hpast]
      exact (hh.leaves hgood hcall).cons _
  | thought b hthought hstore =>
    refine hkept (congrArg (fun s : MetaStore => MetaStoreTxn.start s.published) hstore) fun d hload => ?_
    rw [hstore] at hload
    exact hvisible d hload
  | restarted powerLoss d haction hload hview hdisk =>
    have htxn : h'.now.txn = .start (.loaded d) := congrArg MetaState.txn hview
    -- the file is the synced one, which holds the published data, or the visible one
    have hfound : DeletedOmitted h'.past d := by
      rcases Server.reopen_cases h.now.store.disk powerLoss with heq | heq
      · rw [heq] at hload
        rw [Server.loads_unique hload hgood.synced]
        exact hrecords
      · rw [heq] at hload
        exact hvisible d hload
    refine ⟨?_, ?_, ?_⟩
    · intro id hgone
      rw [htxn] at hgone
      cases hgone
    · rw [htxn]
      exact hfound
    · intro d' hload'
      rw [hdisk] at hload'
      rw [Server.loads_unique hload' hload]
      exact hfound

/-- **Runs** witness every replica that is taken for gone. -/
theorem witnessed_of_run (hrun : Machine.Run (Machine.Traced.next Server.step) { now := {} } h) :
    h.now.Good ∧ Witnessed h := by
  have hsteps : ∀ h a h', h.now.Good ∧ Witnessed h → True →
      Machine.Traced.next Server.step a h = some h' → h'.now.Good ∧ Witnessed h' := by
    intro h a h' ⟨hgood, hh⟩ _ hnext
    exact ⟨Server.step_good _ a _ hgood (Machine.Traced.next_some hnext).1, next_witnessed hh hgood hnext⟩
  have hboth := hrun.invariant hsteps ⟨Server.good_start, witnessed_start⟩
  exact hboth

/-! ## Every reachable state -/

theorem ReplicaPhase.age_pos {phase : ReplicaPhase} (h : 1 ≤ phase.age) :
    phase = .deleting ∨ phase = .deleted := by
  cases phase with
  | deleting => exact Or.inl rfl
  | deleted => exact Or.inr rfl
  | _ => cases h

/-- **Desired members are the living replicas.** In every run of Meta the desired members of a group are
distinct and exactly the replicas of its shard whose phase is neither DELETING nor DELETED, and a shard
without a group has no replicas. In every further step a replica that is DELETING stays so or is DELETED, and a
record disappears only after a heartbeat from its node omitted the replica while it was DELETING. -/
theorem desired_members_are_live
    (hrun : Machine.Run (Machine.Traced.next Server.step) { now := {} } h) :
    (∀ shard group, h.now.txn.getReplicaGroup shard = some group →
      group.desiredMembers.Nodup ∧ ∀ id, id ∈ group.desiredMembers ↔ shardOf id = shard ∧
        ∃ r, h.now.txn.getReplica id = some r ∧ r.state.phase ≠ .deleting ∧ r.state.phase ≠ .deleted) ∧
    (∀ id, h.now.txn.getReplicaGroup (shardOf id) = none → h.now.txn.getReplica id = none) ∧
    ∀ a h', Machine.Traced.next Server.step a h = some h' → ∀ id r, h.now.txn.getReplica id = some r →
      (r.state.phase = .deleting → ∃ r', h'.now.txn.getReplica id = some r' ∧
        (r'.state.phase = .deleting ∨ r'.state.phase = .deleted)) ∧
      (h'.now.txn.getReplica id = none → OmittedIn h.past id) := by
  obtain ⟨hgood, hwitnessed⟩ := witnessed_of_run hrun
  refine ⟨fun shard group => hgood.exact.members, fun id hnone => ?_, fun a h' hnext id r hr => ?_⟩
  · by_contra hne
    obtain ⟨r, hr⟩ := Option.ne_none_iff_exists'.mp hne
    obtain ⟨group, hgroup⟩ := hgood.catalog.recorded id r hr
    exact Option.some_ne_none group (hgroup.symm.trans hnone)
  have hfollows := Server.step_follows hgood (Machine.Traced.next_some hnext).1
  refine ⟨fun hphase => ?_, fun hnone => ?_⟩
  · rcases hfollows.records id r hr with ⟨r', hr', hage⟩ | ⟨-, hdeleted⟩
    · rw [hphase] at hage
      exact ⟨r', hr', ReplicaPhase.age_pos hage⟩
    · rw [hphase] at hdeleted
      cases hdeleted
  · rcases hfollows.records id r hr with ⟨r', hr', -⟩ | ⟨-, hdeleted⟩
    · exact absurd (hr'.symm.trans hnone) (Option.some_ne_none _)
    · exact hwitnessed.records id r hr hdeleted

/-- One node, and a table with one replica. -/
def placedReplica : List ServerAction :=
  [ .call (.createDb { dbName := [1] }) none,
    .call (.createTable 0
      { dbName := [1], tableName := [2], shardCount := 1, replicaCount := 1, resourcePool := [3] }) none,
    .call (.registerNode 0 { nodeId := [4], ip := [5], port := 6, resourcePool := [3], dc := [7] }) none,
    .call (.ensureGroup 0 0) none,
    .decide ⟨0, 0⟩, .read, .read, .call (.carryOut 1) none ]

/-- The table is dropped and its replica retired; its node reports without it. -/
def omittedReplica : List ServerAction :=
  placedReplica ++
    [ .call (.dropTable 2 { dbName := [1], tableName := [2] }) none,
      .call (.absentTable 0) none,
      .decide ⟨0, 0⟩, .call (.carryOut 3) none,
      .call (.heartbeat 4 { nodeId := [4], ip := [5], port := 6, resourcePoolName := [3], dc := [7] }) none,
      .call (.phases 5) none,
      .decide ⟨0, 0⟩ ]

theorem omitted_replica_removed : ∃ (h h' : ServerHistory) (r : Replica),
    Machine.Run (Machine.Traced.next Server.step) { now := {} } h ∧
    Machine.Traced.next Server.step (.call (.carryOut 6) none) h = some h' ∧
    h.now.txn.getReplica ⟨0, 0, 0⟩ = some r ∧ h'.now.txn.getReplica ⟨0, 0, 0⟩ = none ∧
    OmittedIn h.past ⟨0, 0, 0⟩ := by
  have hcheck : (Machine.run (Machine.Traced.next Server.step) omittedReplica { now := {} }).any (fun h =>
      (h.now.txn.getReplica ⟨0, 0, 0⟩).isSome &&
      (Machine.Traced.next Server.step (.call (.carryOut 6) none) h).any fun h' =>
        (h'.now.txn.getReplica ⟨0, 0, 0⟩).isNone) = true := by decide +kernel
  obtain ⟨h, hh, hrest⟩ := (Option.any_eq_true _ _).mp hcheck
  obtain ⟨hsome, hlast⟩ := Bool.and_eq_true_iff.mp hrest
  obtain ⟨r, hr⟩ := Option.isSome_iff_exists.mp hsome
  obtain ⟨h', hnext, hnone⟩ := (Option.any_eq_true _ _).mp hlast
  have hrun : Machine.Run (Machine.Traced.next Server.step) { now := {} } h := .of_run hh
  have hgone := Option.isNone_iff_eq_none.mp hnone
  exact ⟨h, h', r, hrun, hnext, hr, hgone,
    ((desired_members_are_live hrun).2.2 _ h' hnext _ r hr).2 hgone⟩

/-- **Anti-affinity.** In every run of Meta the desired members of a group are assigned to pairwise different
nodes. -/
theorem members_on_different_nodes (hrun : Machine.Run Server.step {} w) {shard : ShardID}
    {group : ReplicaGroup} (hgroup : w.txn.getReplicaGroup shard = some group) :
    group.desiredMembers.Pairwise fun id id' => ∃ r r', w.txn.getReplica id = some r ∧
      w.txn.getReplica id' = some r' ∧ r.spec.assignNodeId ≠ r'.spec.assignNodeId := by
  have hgood := Server.good_of_run hrun
  have hrecord : ∀ id ∈ group.desiredMembers, ∃ r, w.txn.getReplica id = some r := by
    intro id hid
    obtain ⟨r, hr, -⟩ := ((hgood.exact.members hgroup).2 id |>.mp hid).2
    exact ⟨r, hr⟩
  refine (hgood.exact.distinct shard group hgroup).imp_of_mem fun {id id'} hid hid' hne => ?_
  obtain ⟨r, hr⟩ := hrecord id hid
  obtain ⟨r', hr'⟩ := hrecord id' hid'
  refine ⟨r, r', hr, hr', fun hnode => hne (hgood.spread shard group hgroup id hid id' hid' ?_)⟩
  show (w.txn.getReplica id).map _ = (w.txn.getReplica id').map _
  rw [hr, hr', Option.map_some, Option.map_some, hnode]

/-- Two nodes, and a table with two replicas. -/
def placedPair : List ServerAction :=
  [ .call (.createDb { dbName := [1] }) none,
    .call (.createTable 0
      { dbName := [1], tableName := [2], shardCount := 1, replicaCount := 2, resourcePool := [3] }) none,
    .call (.registerNode 0 { nodeId := [4], ip := [5], port := 6, resourcePool := [3], dc := [7] }) none,
    .call (.registerNode 0 { nodeId := [8], ip := [5], port := 9, resourcePool := [3], dc := [7] }) none,
    .call (.ensureGroup 0 0) none,
    .decide ⟨0, 0⟩, .read, .read, .call (.carryOut 1) none ]

theorem placed_pair_apart : ∃ (w : Server) (group : ReplicaGroup), Machine.Run Server.step {} w ∧
    w.txn.getReplicaGroup ⟨0, 0⟩ = some group ∧ group.desiredMembers = [⟨0, 0, 0⟩, ⟨0, 0, 1⟩] ∧
    group.desiredMembers.Pairwise fun id id' => ∃ r r', w.txn.getReplica id = some r ∧
      w.txn.getReplica id' = some r' ∧ r.spec.assignNodeId ≠ r'.spec.assignNodeId := by
  have hcheck : (Machine.run Server.step placedPair {}).any (fun w =>
      (w.txn.getReplicaGroup ⟨0, 0⟩).any fun group =>
        decide (group.desiredMembers = [⟨0, 0, 0⟩, ⟨0, 0, 1⟩])) = true := by decide +kernel
  obtain ⟨w, hw, hrest⟩ := (Option.any_eq_true _ _).mp hcheck
  obtain ⟨group, hgroup, hmembers⟩ := (Option.any_eq_true _ _).mp hrest
  have hrun : Machine.Run Server.step {} w := .of_run hw
  exact ⟨w, group, hrun, hgroup, of_decide_eq_true hmembers, members_on_different_nodes hrun hgroup⟩

end AdvisKV.Meta
