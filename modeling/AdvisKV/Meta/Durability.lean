import AdvisKV.Lib.Machine
import AdvisKV.Meta.Store

/-!
# AdvisKV — what a restart of Meta finds

Meta publishes durable data only after it has saved it, and a failed save is meant to be a rollback. Two
things stand in the way. The last step of the save, syncing the directory, can fail after the rename: the
transaction reports an error and publishes nothing, and yet a restart loads its data. And the saved id
counters are raised above every id in use, so a transaction that writes a record under an id it was never
given loads with other counters than it published.

Main results:

* `MetaStoreTxn.Op.run_clean`, `Op.run_allocated` — what one operation keeps.
* `toDurable_ofDurable` — saving and loading, for data whose ids were all handed out.
* `World.step_sound` — one action keeps `World.Sound`.
* `restart_finds_last_published` — every run of transactions that use allocated ids and whose directory
  sync does not fail.
-/

namespace AdvisKV.Meta

/-! ## Saving and loading -/

/-- Every id in use lies below the counter that hands them out. -/
structure DurableData.Allocated (d : DurableData) : Prop where
  databases : ∀ db ∈ d.databases.entries, db.dbId < d.dbIdAllocator
  tables : ∀ table ∈ d.tables.entries, table.tableId < d.tableIdAllocator

theorem watermark_of_lt {α : Type} {id : α → Int} {start : Int} {records : List α}
    (h : ∀ a ∈ records, id a < start) : watermark id start records = start := by
  induction records with
  | nil => rfl
  | cons a records ih =>
    have ha := h a List.mem_cons_self
    have hmax : max start (id a + 1) = start := max_eq_left (by omega)
    show watermark id (max start (id a + 1)) records = start
    rw [hmax]
    exact ih fun b hb => h b (List.mem_cons_of_mem _ hb)

/-- **Round trip.** Data whose ids were all handed out loads as it was saved. -/
theorem toDurable_ofDurable {d : DurableData} (h : d.Allocated) :
    (MetaPersistedRecord.ofDurable d).toDurable = d := by
  obtain ⟨dbs, tables⟩ := h
  simp only [MetaPersistedRecord.ofDurable, MetaPersistedRecord.toDurable, Keyed.fill_entries,
    watermark_of_lt dbs, watermark_of_lt tables]

/-- **Saving**: both versions of the file are the new one; or it fails and the disk is as before; or the
directory sync fails. -/
theorem Disk.saveMeta_spec (disk : Disk) (record : MetaPersistedRecord) (fault : Fault) :
    ((disk.saveMeta record fault).1.fail = false ∧ record.validate.fail = false ∧
        (disk.saveMeta record fault).2 = ⟨some record, some record⟩) ∨
      ((disk.saveMeta record fault).1.fail = true ∧ (disk.saveMeta record fault).2 = disk) ∨
      ((disk.saveMeta record fault).1.fail = true ∧ (∃ st, fault = some (.syncDir, st)) ∧
        record.validate.fail = false ∧
        (disk.saveMeta record fault).2 = { disk with visible := some record }) := by
  unfold saveMeta
  by_cases hvalid : record.validate.fail = true
  · rw [if_pos hvalid]
    exact Or.inr (Or.inl ⟨hvalid, rfl⟩)
  rw [if_neg hvalid]
  rw [Bool.not_eq_true] at hvalid
  rcases fault with _ | ⟨step, st⟩
  · exact Or.inl ⟨rfl, hvalid, rfl⟩
  · cases step with
    | syncDir => exact Or.inr (Or.inr ⟨st.2, ⟨st, rfl⟩, hvalid, rfl⟩)
    | _ => exact Or.inr (Or.inl ⟨st.2, rfl⟩)

/-! ## Operations -/

namespace MetaStoreTxn

/-- The records an operation writes under a counted id have an id that was handed out. -/
def Op.Allocated : Op → MetaStoreTxn → Prop
  | .putDatabase db, t => db.dbId < t.durable.dbIdAllocator
  | .putTable table, t => table.tableId < t.durable.tableIdAllocator
  | _, _ => True

variable {t t' : MetaStoreTxn}

/-- An operation that first looks whether there is anything to do: if it modifies the durable data it raises
the flag. -/
theorem clean_of_ite {c : Prop} [Decidable c] (hdirty : t'.durableDirty = true)
    (h : (if c then t else t').durableDirty = false) :
    (if c then t else t').durable = t.durable ∧ t.durableDirty = false := by
  by_cases hc : c
  · rw [if_pos hc] at h ⊢
    exact ⟨rfl, h⟩
  · rw [if_neg hc, hdirty] at h
    cases h

/-- **The dirty flag.** An operation that leaves the flag down leaves the durable data alone. -/
theorem Op.run_clean (op : Op) (h : (op.run t).durableDirty = false) :
    (op.run t).durable = t.durable ∧ t.durableDirty = false := by
  cases op with
  | deleteDatabase dbId => exact clean_of_ite rfl h
  | deleteTable tableId => exact clean_of_ite rfl h
  | putReplicas replicas => exact clean_of_ite rfl h
  | deleteReplica id => exact clean_of_ite rfl h
  | deleteReplicaGroup id => exact clean_of_ite rfl h
  | deleteShardRoute id =>
    -- routes are runtime data: neither branch touches the durable part
    simp only [run, MetaStoreTxn.deleteShardRoute] at h ⊢
    split at h
    · next hnone => rw [if_pos hnone]; exact ⟨rfl, h⟩
    · next hsome => rw [if_neg hsome]; exact ⟨rfl, h⟩
  | putNode node => exact ⟨rfl, h⟩
  | putReplicaObserved id observed => exact ⟨rfl, h⟩
  | putMembershipObserved id observed => exact ⟨rfl, h⟩
  | putShardRoute route => exact ⟨rfl, h⟩
  | _ => cases h

/-- Tables that only lost records, under counters that only grew, stay allocated. -/
theorem allocated_of_subset {d d' : DurableData} (h : d.Allocated)
    (hdbs : ∀ db ∈ d'.databases.entries, db ∈ d.databases.entries)
    (htables : ∀ table ∈ d'.tables.entries, table ∈ d.tables.entries)
    (hdb : d.dbIdAllocator ≤ d'.dbIdAllocator) (htable : d.tableIdAllocator ≤ d'.tableIdAllocator) :
    d'.Allocated :=
  ⟨fun db hmem => (h.databases db (hdbs db hmem)).trans_le hdb,
    fun table hmem => (h.tables table (htables table hmem)).trans_le htable⟩

/-- **Handed-out ids** stay handed out. -/
theorem Op.run_allocated (op : Op) (h : t.durable.Allocated) (hop : op.Allocated t) :
    (op.run t).durable.Allocated := by
  cases op with
  | putDatabase db =>
    refine ⟨fun x hx => ?_, h.tables⟩
    rcases Keyed.mem_putList hx with rfl | hmem
    · exact hop
    · exact h.databases x hmem
  | putTable table =>
    refine ⟨h.databases, fun x hx => ?_⟩
    rcases Keyed.mem_putList hx with rfl | hmem
    · exact hop
    · exact h.tables x hmem
  | allocateDbId =>
    refine allocated_of_subset h (fun _ hx => hx) (fun _ hx => hx) ?_ le_rfl
    show t.durable.dbIdAllocator ≤ t.durable.dbIdAllocator + 1
    omega
  | allocateTableId =>
    refine allocated_of_subset h (fun _ hx => hx) (fun _ hx => hx) le_rfl ?_
    show t.durable.tableIdAllocator ≤ t.durable.tableIdAllocator + 1
    omega
  | deleteDatabase dbId =>
    simp only [run, MetaStoreTxn.deleteDatabase]
    split
    · exact h
    · exact allocated_of_subset h (fun _ hx => (List.mem_filter.mp hx).1) (fun _ hx => hx) le_rfl le_rfl
  | deleteTable tableId =>
    simp only [run, MetaStoreTxn.deleteTable]
    split
    · exact h
    · exact allocated_of_subset h (fun _ hx => hx) (fun _ hx => (List.mem_filter.mp hx).1) le_rfl le_rfl
  | putReplicas replicas =>
    simp only [run, MetaStoreTxn.putReplicas]
    split <;> exact ⟨h.databases, h.tables⟩
  | deleteReplica id =>
    simp only [run, MetaStoreTxn.deleteReplica]
    split <;> exact ⟨h.databases, h.tables⟩
  | deleteReplicaGroup id =>
    simp only [run, MetaStoreTxn.deleteReplicaGroup]
    split <;> exact ⟨h.databases, h.tables⟩
  | deleteShardRoute id =>
    simp only [run, MetaStoreTxn.deleteShardRoute]
    split <;> exact ⟨h.databases, h.tables⟩
  | putReplica replica => exact ⟨h.databases, h.tables⟩
  | putReplicaGroup group => exact ⟨h.databases, h.tables⟩
  | putNode node => exact h
  | putReplicaObserved id observed => exact h
  | putMembershipObserved id observed => exact h
  | putShardRoute route => exact h

/-- `t'` is reached from `t` by operations that each meet `P`. -/
def Runs (P : Op → MetaStoreTxn → Prop) : MetaStoreTxn → MetaStoreTxn → Prop :=
  Relation.ReflTransGen fun t t' => ∃ op, P op t ∧ t' = op.run t

theorem Runs.clean {P : Op → MetaStoreTxn → Prop} (h : Runs P t t') (hclean : t'.durableDirty = false) :
    t'.durable = t.durable := by
  induction h with
  | refl => rfl
  | tail _ hlast ih =>
    obtain ⟨op, -, rfl⟩ := hlast
    obtain ⟨hsame, hbefore⟩ := op.run_clean hclean
    rw [hsame]
    exact ih hbefore

theorem Runs.allocated (h : Runs Op.Allocated t t') (ht : t.durable.Allocated) : t'.durable.Allocated := by
  induction h with
  | refl => exact ht
  | tail _ hlast ih =>
    obtain ⟨op, hop, rfl⟩ := hlast
    exact op.run_allocated ih hop

end MetaStoreTxn

/-! ## Runs -/

/-- A function for `write_with`: it changes the transaction by operations only. -/
structure Transaction where
  func : MetaStoreTxn → Status × MetaStoreTxn
  built : ∀ t, MetaStoreTxn.Runs (fun _ _ => True) t (func t).2

/-- How far the save of a transaction has come when Meta dies. -/
inductive CrashPoint where
  | beforeRename
  | renamed
  | synced
deriving DecidableEq, Repr

def Disk.during (disk : Disk) (record : MetaPersistedRecord) : CrashPoint → Disk
  | .beforeRename => disk
  | .renamed => { disk with visible := some record }
  | .synced => ⟨some record, some record⟩

/-- What a new process finds. After a loss of power a rename that was not synced is gone; without one it is taken
to reach the disk before the next loss. -/
def Disk.reopen (disk : Disk) (powerLoss : Bool) : Disk :=
  if powerLoss then ⟨disk.synced, disk.synced⟩ else ⟨disk.visible, disk.visible⟩

/-- The disk when Meta dies inside a transaction; only a transaction that saves gets to it. -/
def MetaStore.crashDisk (s : MetaStore) (tx : Transaction) (point : CrashPoint) : Disk :=
  let r := tx.func (.start s.published)
  if r.1.fail || !r.2.durableDirty || (MetaPersistedRecord.ofDurable r.2.durable).validate.fail then
    s.disk
  else s.disk.during (.ofDurable r.2.durable) point

/-- Meta and, as bookkeeping, the durable data that the last transaction to return OK published. -/
structure World where
  store : MetaStore := {}
  lastOk : DurableData := {}

inductive Action where
  | write (tx : Transaction) (fault : Fault)
  | restart (powerLoss : Bool)
  | crash (tx : Transaction) (point : CrashPoint) (powerLoss : Bool)

namespace World

def reboot (disk : Disk) : Option World :=
  match MetaStore.init disk with
  | .ok s => some ⟨s, s.published.durable⟩
  | .error _ => none

def step : Action → World → Option World
  | .write tx fault, w =>
    let r := w.store.writeWith tx.func fault
    some ⟨r.2, if r.1.fail then w.lastOk else r.2.published.durable⟩
  | .restart powerLoss, w => reboot (w.store.disk.reopen powerLoss)
  | .crash tx point powerLoss, w => reboot ((w.store.crashDisk tx point).reopen powerLoss)

/-- The transaction writes records only under ids it was given. -/
def UsesAllocated (w : World) (tx : Transaction) : Prop :=
  MetaStoreTxn.Runs MetaStoreTxn.Op.Allocated (.start w.store.published)
    (tx.func (.start w.store.published)).2

/-- The condition on one action. -/
def Safe (w : World) : Action → Prop
  | .write tx fault => w.UsesAllocated tx ∧ ∀ st, fault ≠ some (.syncDir, st)
  | .restart _ => True
  | .crash tx _ _ => w.UsesAllocated tx

/-- The file loads as `d`. -/
def Loads (file : Option MetaPersistedRecord) (d : DurableData) : Prop :=
  ∃ record, loadMeta file = .ok record ∧ record.toDurable = d

/-- Both versions of the file load as the published data. -/
structure Sound (w : World) : Prop where
  published : w.store.published.durable = w.lastOk
  allocated : w.lastOk.Allocated
  visible : Loads w.store.disk.visible w.lastOk
  synced : Loads w.store.disk.synced w.lastOk

variable {w w' : World}

theorem sound_start : Sound {} := by
  have hempty : Loads none ({} : DurableData) := ⟨{}, rfl, rfl⟩
  refine ⟨rfl, ⟨?_, ?_⟩, hempty, hempty⟩
  · intro db hdb
    cases hdb
  · intro table htable
    cases htable

variable {d : DurableData} {disk : Disk} {tx : Transaction}

/-- A record that passed validation before it was saved passes it again. -/
theorem loads_saved (hd : d.Allocated) (hvalid : (MetaPersistedRecord.ofDurable d).validate.fail = false) :
    Loads (some (.ofDurable d)) d := by
  refine ⟨.ofDurable d, ?_, toDurable_ofDurable hd⟩
  simp [loadMeta, hvalid]

/-- A restart on a file that loads as `d` publishes `d`. -/
theorem init_of_loads (h : Loads disk.visible d) :
    ∃ s, MetaStore.init disk = .ok s ∧ s.published.durable = d ∧ s.disk = disk := by
  obtain ⟨record, hload, hd⟩ := h
  refine ⟨⟨.loaded record.toDurable, disk⟩, ?_, hd, rfl⟩
  simp [MetaStore.init, hload]

theorem reopen_loads (hv : Loads disk.visible d) (hs : Loads disk.synced d) (powerLoss : Bool) :
    Loads (disk.reopen powerLoss).visible d ∧ Loads (disk.reopen powerLoss).synced d := by
  unfold Disk.reopen
  split
  · exact ⟨hs, hs⟩
  · exact ⟨hv, hv⟩

theorem Sound.next_allocated (h : Sound w) (htx : w.UsesAllocated tx) :
    (tx.func (.start w.store.published)).2.durable.Allocated := by
  refine htx.allocated ?_
  show w.store.published.durable.Allocated
  rw [h.published]
  exact h.allocated

/-- **Errors roll back.** -/
theorem writeWith_error {fault : Fault} (hfault : ∀ st, fault ≠ some (.syncDir, st))
    (h : (w.store.writeWith tx.func fault).1.fail = true) :
    (w.store.writeWith tx.func fault).2 = w.store := by
  -- a save that fails before the directory is synced leaves the disk alone
  have hsave : ∀ record, (w.store.disk.saveMeta record fault).1.fail = true →
      (w.store.disk.saveMeta record fault).2 = w.store.disk := by
    intro record hfail
    rcases w.store.disk.saveMeta_spec record fault with ⟨hok, -, -⟩ | ⟨-, hsame⟩ | ⟨-, ⟨st, hst⟩, -⟩
    · rw [hok] at hfail
      cases hfail
    · exact hsame
    · exact absurd hst (hfault st)
  simp only [MetaStore.writeWith] at h ⊢
  split at h
  · next hfunc => rw [if_pos hfunc]
  next hfunc =>
  rw [if_neg hfunc]
  split at h
  · next hdirty =>
    rw [if_pos hdirty]
    split at h
    · next hfail => rw [if_pos hfail, hsave _ hfail]
    · cases h
  · cases h

/-- **Success persists first.** -/
theorem Sound.writeWith_ok (h : Sound w) {fault : Fault} (htx : w.UsesAllocated tx)
    (hok : (w.store.writeWith tx.func fault).1.fail = false) :
    Sound ⟨(w.store.writeWith tx.func fault).2,
      (w.store.writeWith tx.func fault).2.published.durable⟩ := by
  have halloc := h.next_allocated htx
  simp only [MetaStore.writeWith] at hok ⊢
  split at hok
  · next hfunc => rw [hfunc] at hok; cases hok
  next hfunc =>
  rw [if_neg hfunc]
  split at hok
  · next hdirty =>
    rw [if_pos hdirty]
    split at hok
    · next hfail => rw [hfail] at hok; cases hok
    · next hsaved =>
      rw [if_neg hsaved]
      rcases w.store.disk.saveMeta_spec (.ofDurable (tx.func (.start w.store.published)).2.durable)
        fault with ⟨-, hvalid, hdisk⟩ | ⟨hfail, -⟩ | ⟨hfail, -⟩
      · have hfile := loads_saved halloc hvalid
        rw [hdisk]
        exact ⟨rfl, halloc, hfile, hfile⟩
      · exact absurd hfail hsaved
      · exact absurd hfail hsaved
  · -- nothing durable has changed, so the file of the last save is still right
    next hclean =>
    rw [if_neg hclean]
    have hsame := (tx.built (.start w.store.published)).clean (by simpa using hclean)
    have hlast : (tx.func (.start w.store.published)).2.durable = w.lastOk :=
      hsame.trans h.published
    refine ⟨rfl, ?_, ?_, ?_⟩
    · exact halloc
    · show Loads w.store.disk.visible (tx.func (.start w.store.published)).2.durable
      rw [hlast]
      exact h.visible
    · show Loads w.store.disk.synced (tx.func (.start w.store.published)).2.durable
      rw [hlast]
      exact h.synced

/-- **Dying inside a transaction** leaves the old data or that of the transaction. -/
theorem Sound.crash (h : Sound w) (htx : w.UsesAllocated tx) (point : CrashPoint) (powerLoss : Bool) :
    ∃ d, (d = w.lastOk ∨ d = (tx.func (.start w.store.published)).2.durable) ∧
      d.Allocated ∧ Loads ((w.store.crashDisk tx point).reopen powerLoss).visible d ∧
      Loads ((w.store.crashDisk tx point).reopen powerLoss).synced d := by
  have halloc := h.next_allocated htx
  have hold : ∀ disk : Disk, Loads disk.visible w.lastOk → Loads disk.synced w.lastOk →
      ∃ d, (d = w.lastOk ∨ d = (tx.func (.start w.store.published)).2.durable) ∧ d.Allocated ∧
        Loads (disk.reopen powerLoss).visible d ∧ Loads (disk.reopen powerLoss).synced d := by
    intro disk hv hs
    obtain ⟨hv', hs'⟩ := reopen_loads hv hs powerLoss
    exact ⟨w.lastOk, Or.inl rfl, h.allocated, hv', hs'⟩
  simp only [MetaStore.crashDisk]
  split
  · exact hold _ h.visible h.synced
  · next hsaves =>
    have hvalid : (MetaPersistedRecord.ofDurable
        (tx.func (.start w.store.published)).2.durable).validate.fail = false := by
      simp only [Bool.or_eq_true, not_or] at hsaves
      simpa using hsaves.2
    have hfile := loads_saved halloc hvalid
    cases point with
    | beforeRename => exact hold _ h.visible h.synced
    -- the new file has its name, but only a directory sync makes that survive a power loss
    | renamed =>
      cases powerLoss with
      | true => exact ⟨w.lastOk, Or.inl rfl, h.allocated, h.synced, h.synced⟩
      | false => exact ⟨_, Or.inr rfl, halloc, hfile, hfile⟩
    | synced =>
      refine ⟨_, Or.inr rfl, halloc, ?_⟩
      exact reopen_loads hfile hfile powerLoss

theorem sound_reboot (hd : d.Allocated) (hv : Loads disk.visible d) (hs : Loads disk.synced d)
    (h : reboot disk = some w') : Sound w' := by
  obtain ⟨s, hinit, hpub, hdisk⟩ := init_of_loads hv
  simp only [reboot, hinit, Option.some.injEq] at h
  subst h
  refine ⟨rfl, ?_, ?_, ?_⟩
  · show s.published.durable.Allocated
    rw [hpub]
    exact hd
  · show Loads s.disk.visible s.published.durable
    rw [hpub, hdisk]
    exact hv
  · show Loads s.disk.synced s.published.durable
    rw [hpub, hdisk]
    exact hs

/-- **One action.** -/
theorem step_sound (w : World) (a : Action) (w' : World) (h : Sound w) (hsafe : Safe w a)
    (hstep : step a w = some w') : Sound w' := by
  cases a with
  | write tx fault =>
    obtain ⟨htx, hfault⟩ := hsafe
    simp only [step, Option.some.injEq] at hstep
    subst hstep
    by_cases hfail : (w.store.writeWith tx.func fault).1.fail = true
    · rw [if_pos hfail, writeWith_error hfault hfail]
      exact h
    · rw [if_neg hfail]
      exact h.writeWith_ok htx (by simpa using hfail)
  | restart powerLoss =>
    obtain ⟨hv, hs⟩ := reopen_loads h.visible h.synced powerLoss
    exact sound_reboot h.allocated hv hs hstep
  | crash tx point powerLoss =>
    obtain ⟨d, -, hd, hv, hs⟩ := h.crash hsafe point powerLoss
    exact sound_reboot hd hv hs hstep

end World

/-- A restart on this disk publishes `d`. -/
def RestartFinds (disk : Disk) (d : DurableData) : Prop :=
  ∃ s, MetaStore.init disk = .ok s ∧ s.published.durable = d

/-- **Durability and rollback.** An error of any transaction other than a failed directory sync changes neither
the published data nor the disk. In every run whose transactions write records only under ids they were given,
and whose directory syncs do not fail: a restart finds what the last successful transaction published; a success
is on disk before it is published; and after dying inside a transaction a restart finds the old data or that of
the transaction. -/
theorem restart_finds_last_published {w : World}
    (h : Machine.GuardedRun World.step World.Safe {} w) :
    w.store.published.durable = w.lastOk ∧
    (∀ powerLoss, RestartFinds (w.store.disk.reopen powerLoss) w.lastOk) ∧
    (∀ (tx : Transaction) (fault : Fault), (∀ st, fault ≠ some (.syncDir, st)) →
      (w.store.writeWith tx.func fault).1.fail = true → (w.store.writeWith tx.func fault).2 = w.store) ∧
    ∀ tx fault, World.Safe w (.write tx fault) →
      ((w.store.writeWith tx.func fault).1.fail = false → ∀ powerLoss,
        RestartFinds ((w.store.writeWith tx.func fault).2.disk.reopen powerLoss)
          (w.store.writeWith tx.func fault).2.published.durable) ∧
      ∀ point powerLoss, ∃ d, (d = w.lastOk ∨ d = (tx.func (.start w.store.published)).2.durable) ∧
        RestartFinds ((w.store.crashDisk tx point).reopen powerLoss) d := by
  have hsound : World.Sound w := h.invariant World.step_sound World.sound_start
  have hfinds : ∀ {disk : Disk} {d : DurableData}, World.Loads disk.visible d → RestartFinds disk d := by
    intro disk d hload
    obtain ⟨s, hinit, hpub, -⟩ := World.init_of_loads hload
    exact ⟨s, hinit, hpub⟩
  refine ⟨hsound.published, fun powerLoss => ?_, fun _ _ => World.writeWith_error, fun tx fault hsafe => ⟨?_, ?_⟩⟩
  · exact hfinds (World.reopen_loads hsound.visible hsound.synced powerLoss).1
  · intro hok powerLoss
    have hnext := hsound.writeWith_ok hsafe.1 hok
    exact hfinds (World.reopen_loads hnext.visible hnext.synced powerLoss).1
  · intro point powerLoss
    obtain ⟨d, hd, -, hv, -⟩ := hsound.crash hsafe.1 point powerLoss
    exact ⟨d, hd, hfinds hv⟩

/-! ## Examples of runs -/

/-- The body of `create_db`: take an id and write the database under it. -/
def createDatabase : Transaction where
  func t := (.OK, t.allocateDbId.2.putDatabase { dbId := t.allocateDbId.1 })
  built t := by
    refine .head ⟨.allocateDbId, trivial, rfl⟩ (.single ?_)
    exact ⟨.putDatabase { dbId := t.allocateDbId.1 }, trivial, rfl⟩

/-- Write a database under an id nobody handed out. -/
def importDatabase : Transaction where
  func t := (.OK, t.putDatabase { dbId := 5 })
  built _ := .single ⟨.putDatabase { dbId := 5 }, trivial, rfl⟩

theorem createDatabase_usesAllocated (w : World) : w.UsesAllocated createDatabase := by
  refine .head ⟨.allocateDbId, trivial, rfl⟩ (.single ?_)
  refine ⟨.putDatabase { dbId := w.store.published.durable.dbIdAllocator }, ?_, rfl⟩
  show w.store.published.durable.dbIdAllocator < w.store.published.durable.dbIdAllocator + 1
  omega

/-- One database created and one creation that fails while the temporary file is written. -/
theorem database_survives_failed_write :
    ∃ w, Machine.GuardedRun World.step World.Safe {} w ∧ w.lastOk.dbIdAllocator = 1 ∧
      RestartFinds (w.store.disk.reopen true) w.lastOk := by
  have hfirst : World.Safe {} (.write createDatabase none) :=
    ⟨createDatabase_usesAllocated _, fun st hst => by cases hst⟩
  obtain ⟨w, hw⟩ : ∃ w, World.step (.write createDatabase none) {} = some w := ⟨_, rfl⟩
  have hsecond : World.Safe w
      (.write createDatabase (some (.writeTmp, ⟨⟨.error, "write failed"⟩, rfl⟩))) :=
    ⟨createDatabase_usesAllocated _, fun st hst => by cases hst⟩
  obtain ⟨w', hw'⟩ : ∃ w', World.step
      (.write createDatabase (some (.writeTmp, ⟨⟨.error, "write failed"⟩, rfl⟩))) w = some w' :=
    ⟨_, rfl⟩
  have hrun : Machine.GuardedRun World.step World.Safe {} w' :=
    .tail (.single ⟨_, hfirst, hw⟩) ⟨_, hsecond, hw'⟩
  refine ⟨w', hrun, ?_, (restart_finds_last_published hrun).2.1 true⟩
  cases hw
  cases hw'
  rfl

/-- A failed directory sync: the caller gets an error and nothing is published, but a restart finds the
database. And a database under an id nobody handed out: the published counter is 0, the one a restart
finds is 6. -/
theorem failed_sync_is_not_rolled_back :
    (MetaStore.writeWith {} createDatabase.func
        (some (.syncDir, ⟨⟨.error, "fsync failed"⟩, rfl⟩))).1.fail = true ∧
    (MetaStore.writeWith {} createDatabase.func
        (some (.syncDir, ⟨⟨.error, "fsync failed"⟩, rfl⟩))).2.published = {} ∧
    ¬ RestartFinds ((MetaStore.writeWith {} createDatabase.func
        (some (.syncDir, ⟨⟨.error, "fsync failed"⟩, rfl⟩))).2.disk.reopen false) {} ∧
    (MetaStore.writeWith {} importDatabase.func none).1.fail = false ∧
    (MetaStore.writeWith {} importDatabase.func none).2.published.durable.dbIdAllocator = 0 ∧
    ∃ s, MetaStore.init ((MetaStore.writeWith {} importDatabase.func none).2.disk.reopen false) = .ok s ∧
      s.published.durable.dbIdAllocator = 6 := by
  refine ⟨rfl, rfl, ?_, rfl, rfl, ⟨_, rfl, rfl⟩⟩
  rintro ⟨s, hinit, hpub⟩
  cases hinit
  exact absurd (congrArg DurableData.dbIdAllocator hpub) (by decide)

end AdvisKV.Meta
