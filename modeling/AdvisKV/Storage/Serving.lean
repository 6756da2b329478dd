import AdvisKV.Model.ReplicaManager

/-!
# AdvisKV — replicas that are added

`add_replica` creates the WAL of a replica before it saves the meta file and puts the replica into the map. A call
that ends in between leaves a WAL behind. The next call for the same replica takes it for the state of an earlier
run, reports success and leaves the replica waiting for a `recover` that only a process start brings.

Main results:

* `ReplicaManager.addReplica_adds` — what a call can do.
* `added_runs_iff` — when a replica that has been added runs.
-/

namespace AdvisKV

open Meta (shardOf)

/-- The data directory once `Replica::init` has opened the WAL. -/
def DataDir.prepared (disk : DataDir) (id : ReplicaID) : DataDir :=
  (disk.createDirectory (replicaDir id)).modify (replicaDir id) ReplicaDir.openWal

/-- What `Replica::init` does. -/
theorem ManagedReplica.init_cases (options : ReplicaRuntimeOptions) (disk : DataDir) (param : ReplicaInitParam)
    (openFault : Option Failure) :
    (∃ status, ManagedReplica.init options disk param openFault = (.error status, disk) ∧ status.fail = true) ∨
    (∃ status, ManagedReplica.init options disk param openFault =
      (.error status, disk.createDirectory (replicaDir param.replicaId)) ∧ status.fail = true) ∨
    ∃ r, ManagedReplica.init options disk param openFault = (.ok r, disk.prepared param.replicaId) ∧
      r.param = param ∧ r.loadedFrom = [] ∧
      r.localState = if disk.hasReplicaState param.replicaId then .awaitingRecover else .created := by
  simp only [ManagedReplica.init]
  split
  · next hchecked => exact Or.inl ⟨_, rfl, hchecked⟩
  split
  · next failure => exact Or.inr (Or.inl ⟨_, rfl, failure.2⟩)
  · exact Or.inr (Or.inr ⟨_, rfl, rfl, rfl, rfl⟩)

namespace ReplicaManager

/-- What a call of `add_replica` does. -/
inductive Adds (m : ReplicaManager) (disk : DataDir) (param : ReplicaInitParam) :
    Status × ReplicaManager × DataDir → Prop
  | present (held : (m.replicaMap.get param.replicaId).isSome) : Adds m disk param (.OK, m, disk)
  | refused {status : Status} (failed : status.fail = true) : Adds m disk param (status, m, disk)
  /-- The call ends before the meta file is renamed: with the directory, or with the WAL too. -/
  | unfinished {status : Status} {left : DataDir} (failed : status.fail = true)
    (absent : m.shardPrimaryIndex.get (shardOf param.replicaId) = none)
    (created : left = disk.createDirectory (replicaDir param.replicaId) ∨
      left = disk.prepared param.replicaId) : Adds m disk param (status, m, left)
  /-- The meta file is in place, but the call fails. -/
  | unsynced {status : Status} (failed : status.fail = true)
    (absent : m.shardPrimaryIndex.get (shardOf param.replicaId) = none) :
    Adds m disk param (status, m, (disk.prepared param.replicaId).saveReplicaMeta param)
  | added {r : ManagedReplica} (new : m.replicaMap.get param.replicaId = none)
    (absent : m.shardPrimaryIndex.get (shardOf param.replicaId) = none) (built : r.param = param)
    (fresh : r.loadedFrom = [])
    (state : r.localState = if disk.hasReplicaState param.replicaId then .awaitingRecover else .running) :
    Adds m disk param (.OK, m.insert r, (disk.prepared param.replicaId).saveReplicaMeta param)

theorem addReplica_adds (options : ReplicaRuntimeOptions) (m : ReplicaManager) (disk : DataDir)
    (param : ReplicaInitParam) (fault : AddFault) :
    Adds m disk param (addReplica options m disk param fault) := by
  simp only [addReplica]
  split
  · next hheld => exact .present hheld
  next hnew =>
  split
  · exact .refused rfl
  next habsent =>
  have hnew' : m.replicaMap.get param.replicaId = none := by simpa using hnew
  have habsent' : m.shardPrimaryIndex.get (shardOf param.replicaId) = none := by simpa using habsent
  rcases ManagedReplica.init_cases options disk param fault.openWal with
    ⟨status, hinit, hfail⟩ | ⟨status, hinit, hfail⟩ | ⟨r, hinit, hparam, hfresh, hstate⟩ <;> rw [hinit]
  · exact .refused hfail
  · exact .unfinished hfail habsent' (Or.inl rfl)
  -- a replica that has been built is started, or has to be recovered first
  obtain ⟨started, hstarted, hstartedParam, hstartedFresh, hstartedState⟩ : ∃ started : ManagedReplica,
      (if r.needsRecover then (Status.OK, r) else r.start) = (.OK, started) ∧ started.param = param ∧
      started.loadedFrom = [] ∧ started.localState =
        if disk.hasReplicaState param.replicaId then .awaitingRecover else .running := by
    by_cases hstored : disk.hasReplicaState param.replicaId = true
    · rw [if_pos hstored] at hstate ⊢
      exact ⟨r, if_pos (by simp [ManagedReplica.needsRecover, hstate]), hparam, hfresh, hstate⟩
    · rw [if_neg hstored] at hstate ⊢
      refine ⟨{ r with localState := .running }, ?_, hparam, hfresh, rfl⟩
      simp [ManagedReplica.needsRecover, ManagedReplica.start, hstate]
  simp only [hstarted, Status.fail_OK, Bool.false_eq_true, if_false]
  split
  · next failure published _ =>
    split
    · exact .unsynced failure.2 habsent'
    · exact .unfinished failure.2 habsent' (Or.inr rfl)
  · exact .added hnew' habsent' hstartedParam hstartedFresh hstartedState

end ReplicaManager

/-- **Added replicas.** A replica that `add_replica` reports as added runs exactly if its directory held no WAL, hard
state or snapshot before the call. -/
theorem added_runs_iff {options : ReplicaRuntimeOptions} {m : ReplicaManager} {disk : DataDir}
    {param : ReplicaInitParam} {fault : AddFault} (hnew : m.replicaMap.get param.replicaId = none)
    (hok : (m.addReplica options disk param fault).1.fail = false) :
    (∃ r, (m.addReplica options disk param fault).2.1.replicaMap.get param.replicaId = some r ∧
      r.localState = .running) ↔ disk.hasReplicaState param.replicaId = false := by
  have hadds := ReplicaManager.addReplica_adds options m disk param fault
  generalize m.addReplica options disk param fault = result at hadds hok ⊢
  have hnot : ∀ {status : Status} {P : Prop}, status.fail = true → status.fail = false → P :=
    fun hfail hok => absurd (hfail.symm.trans hok) (by decide)
  rcases hadds with hheld | hfail | hfail | hfail | @⟨r, _, _, hparam, _, hstate⟩
  · rw [hnew] at hheld
    cases hheld
  · exact hnot hfail hok
  · exact hnot hfail hok
  · exact hnot hfail hok
  have hget : (m.insert r).replicaMap.get param.replicaId = some r := by
    rw [← hparam]
    exact (Keyed.get_put _ _ _).trans (if_pos rfl)
  rw [hget]
  constructor
  · rintro ⟨r', hr', hrunning⟩
    obtain rfl := Option.some.inj hr'
    rw [hstate] at hrunning
    split at hrunning
    · cases hrunning
    · next hnone => simpa using hnone
  · intro hnone
    exact ⟨r, rfl, by rw [hstate, hnone]; rfl⟩

/-- A new replica in an empty data directory runs. -/
theorem first_replica_runs : ∃ r, (({} : ReplicaManager).addReplica { dataDir := "data" } .empty
    { replicaId := ⟨1, 0, 1⟩ } {}).2.1.replicaMap.get ⟨1, 0, 1⟩ = some r ∧ r.localState = .running := by
  have hiff := @added_runs_iff { dataDir := "data" } {} .empty { replicaId := ⟨1, 0, 1⟩ } {} rfl rfl
  exact hiff.mpr rfl

/-- What a call leaves that ends after the WAL has been created, by a failure or a crash. -/
def walOnly : DataDir :=
  (({} : ReplicaManager).addReplica { dataDir := "data" } .empty { replicaId := ⟨1, 0, 1⟩ }
    { saveMeta := some (⟨⟨.error, "failed to fsync"⟩, rfl⟩, false) }).2.2

/-- The next call succeeds, and the replica does not run. -/
theorem leftover_wal_blocks : ∃ r,
    (({} : ReplicaManager).addReplica { dataDir := "data" } walOnly { replicaId := ⟨1, 0, 1⟩ } {}).1 = .OK ∧
    (({} : ReplicaManager).addReplica { dataDir := "data" } walOnly
      { replicaId := ⟨1, 0, 1⟩ } {}).2.1.replicaMap.get ⟨1, 0, 1⟩ = some r ∧
    r.localState = .awaitingRecover :=
  ⟨_, rfl, rfl, rfl⟩

end AdvisKV
