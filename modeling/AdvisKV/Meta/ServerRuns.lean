import AdvisKV.Meta.Tasks

/-!
# AdvisKV — runs of the Meta server

One step of the server is a step of `MetaState` on what it shows, or leaves that alone, or starts a new process
on the file. A save whose directory sync fails is reported as an error and publishes nothing, and yet a restart
may load it. So beside the published data there is a second candidate for the next state: the data of a
transaction that was tried on the same durable data.

Main results:

* `Server.Steps.of_step` — everything one step can do.
* `Server.Good` with `step_good` — what holds in every state of every run.
* `Server.step_follows` — how durable data moves on, over transactions and restarts alike.
* `Server.simulates` — as long as no directory sync fails, what the server shows is a run of `MetaState`.
-/

namespace AdvisKV.Meta

open MetaStoreTxn

namespace Server

variable {w w' : Server} {a : ServerAction} {d : DurableData}

/-! ## Steps -/

/-- **Everything one step can do.** -/
inductive Steps (w : Server) (a : ServerAction) (w' : Server) : Prop
  /-- A call is a step of what the server shows, and is saved first if it wrote durable data. -/
  | committed (c : Call) (fault : Fault) (haction : a = .call c fault)
      (hstep : MetaState.step (.call c) w.view = some w'.view)
      (hdisk : (w'.store.disk = ⟨some (.ofDurable w'.txn.durable), some (.ofDurable w'.txn.durable)⟩ ∧
          (MetaPersistedRecord.ofDurable w'.txn.durable).validate.fail = false) ∨
        (w'.store.disk = w.store.disk ∧ w'.txn.durable = w.txn.durable))
  /-- A call fails; when the sync of its directory has failed, the file is replaced all the same. -/
  | failed (c : Call) (fault : Fault) (haction : a = .call c fault)
      (hview : w'.view = w.view ∨ MetaState.step .abandon w.view = some w'.view)
      (hdisk : w'.store.disk = w.store.disk ∨ (∃ st, fault = some (.syncDir, st)) ∧
        ∃ s', MetaState.step (.call c) w.view = some s' ∧
          (MetaPersistedRecord.ofDurable s'.data.durable).validate.fail = false ∧
          w'.store.disk = { w.store.disk with visible := some (.ofDurable s'.data.durable) })
  /-- The background thread decides or reads. -/
  | thought (b : MetaAction) (hstep : MetaState.step b w.view = some w'.view) (hstore : w'.store = w.store)
  | restarted (powerLoss : Bool) (d : DurableData) (haction : a = .restart powerLoss)
      (hload : World.Loads (w.store.disk.reopen powerLoss).visible d)
      (hview : w'.view = { data := .loaded d }) (hdisk : w'.store.disk = w.store.disk.reopen powerLoss)

/-- **`write_with`** publishes what the function left, or fails. -/
theorem writeWith_cases (s : MetaStore) (f : WriteFunc) (fault : Fault) :
    ((f (.start s.published)).1.fail = false ∧
        (s.writeWith f fault).2.published = (f (.start s.published)).2.finish ∧
        (((s.writeWith f fault).2.disk = ⟨some (.ofDurable (f (.start s.published)).2.durable),
            some (.ofDurable (f (.start s.published)).2.durable)⟩ ∧
          (MetaPersistedRecord.ofDurable (f (.start s.published)).2.durable).validate.fail = false) ∨
        ((s.writeWith f fault).2.disk = s.disk ∧ (f (.start s.published)).2.durableDirty = false))) ∨
      ((s.writeWith f fault).2.published = s.published ∧
        ((s.writeWith f fault).2.disk = s.disk ∨
          ((∃ st, fault = some (.syncDir, st)) ∧ (f (.start s.published)).1.fail = false ∧
          (MetaPersistedRecord.ofDurable (f (.start s.published)).2.durable).validate.fail = false ∧
          (s.writeWith f fault).2.disk =
            { s.disk with visible := some (.ofDurable (f (.start s.published)).2.durable) }))) := by
  unfold MetaStore.writeWith
  dsimp only
  split
  · exact Or.inr ⟨rfl, Or.inl rfl⟩
  next hok =>
  rw [Bool.not_eq_true] at hok
  split
  · -- a save fails before the rename, or after it in the sync of the directory
    rcases s.disk.saveMeta_spec (.ofDurable (f (.start s.published)).2.durable) fault with
      ⟨hsaved, hvalid, hdisk⟩ | ⟨hfail, hdisk⟩ | ⟨hfail, hsync, hvalid, hdisk⟩
    · rw [if_neg (by simp [hsaved])]
      exact Or.inl ⟨hok, rfl, Or.inl ⟨hdisk, hvalid⟩⟩
    · rw [if_pos hfail]
      exact Or.inr ⟨rfl, Or.inl hdisk⟩
    · rw [if_pos hfail]
      exact Or.inr ⟨rfl, Or.inr ⟨hsync, hok, hvalid, hdisk⟩⟩
  · next hclean => exact Or.inl ⟨hok, rfl, Or.inr ⟨rfl, by simpa using hclean⟩⟩

/-- A call runs one transaction on what is published. -/
theorem Steps.of_call (hw : w.view.Whole) {c : Call} {fault : Fault} (h : step (.call c fault) w = some w') :
    Steps w (.call c fault) w' := by
  obtain ⟨f, hf, rfl⟩ := Option.map_eq_some_iff.mp h
  -- what the call leaves, if its function succeeds
  have hleaves : (f w.txn).1.fail = false → MetaState.step (.call c) w.view = some (w.view.leaves c f) := by
    intro hok
    simp only [MetaState.step, hf, Option.bind_some]
    exact if_neg (by rw [show (f w.view.txn).1.fail = false from hok]; simp)
  rcases writeWith_cases w.store f fault with ⟨hok, hpublished, hdisk⟩ | ⟨hpublished, hdisk⟩
  · have hwrites := hw.func_writes hf
    have hdurable : (w.store.writeWith f fault).2.published.durable = (f w.txn).2.durable :=
      congrArg MetaSnapshot.durable hpublished
    refine .committed c fault rfl ?_ ?_
    · rw [hleaves hok]
      exact congrArg (fun data => some (MetaState.mk data _)) hpublished.symm
    · unfold txn
      dsimp only [start]
      rw [hdurable]
      -- a transaction that is not dirty has written no durable data
      rcases hdisk with hsaved | ⟨hsame, hclean⟩
      · exact Or.inl hsaved
      · exact Or.inr ⟨hsame, hwrites.clean hclean⟩
  · refine .failed c fault rfl ?_ (hdisk.imp_right ?_)
    · have hview : ∀ task, (⟨(w.store.writeWith f fault).2.published, task⟩ : MetaState) =
          ⟨w.store.published, task⟩ := fun task => congrArg (MetaState.mk · task) hpublished
      rcases MetaState.taskAfter_cases w.task c with hsame | hnone
      · refine Or.inl ((hview _).trans ?_)
        rw [hsame]
        rfl
      · refine Or.inr (congrArg some (Eq.trans ?_ (hview _).symm))
        rw [hnone]
        rfl
    · rintro ⟨hsync, hok, hvalid, hdisk⟩
      exact ⟨hsync, _, hleaves hok, hvalid, hdisk⟩

/-- **One step.** -/
theorem Steps.of_step (hw : w.view.Whole) (h : step a w = some w') : Steps w a w' := by
  cases a with
  | call c fault => exact .of_call hw h
  | decide shard =>
    simp only [step] at h
    split at h <;> cases h
    next htask => exact .thought (.decide shard) (if_neg htask) rfl
  | read =>
    obtain ⟨task, htask, rfl⟩ := Option.map_eq_some_iff.mp h
    exact .thought .read (Option.map_eq_some_iff.mpr ⟨task, htask, rfl⟩) rfl
  | restart powerLoss =>
    simp only [step, boot] at h
    split at h <;> cases h
    next store hinit =>
    unfold MetaStore.init at hinit
    split at hinit <;> cases hinit
    next record hload =>
    exact .restarted powerLoss record.toDurable rfl ⟨record, hload, rfl⟩ rfl rfl

/-! ## The file -/

/-- What a restart may find instead of the data of `w`: that of a transaction on it. -/
def Tried (w : Server) (d : DurableData) : Prop :=
  ∃ s c s', MetaState.Whole s ∧ s.data.durable = w.txn.durable ∧ MetaState.step (.call c) s = some s' ∧
    d = s'.data.durable

/-- What a restart may find. -/
def Finds (w : Server) (d : DurableData) : Prop := d = w.txn.durable ∨ w.Tried d

/-- **What the file holds**: the published data, or what a transaction on it left whose save did not get to its
end. -/
structure Stored (w : Server) : Prop where
  synced : World.Loads w.store.disk.synced w.txn.durable
  visible : ∃ d, World.Loads w.store.disk.visible d ∧ w.Finds d

/-- What holds in every state of a run. -/
structure Good (w : Server) : Prop extends MetaState.Whole w.view, Stored w

/-- An empty file is a file of the first state. -/
theorem good_start : Good {} where
  toWhole := MetaState.whole_start
  synced := ⟨{}, rfl, rfl⟩
  visible := ⟨{}, ⟨{}, rfl, rfl⟩, Or.inl rfl⟩

/-- What is found is what was published or one transaction later. -/
theorem Finds.follows (h : w.Finds d) : Follows w.txn.durable d := by
  rcases h with rfl | ⟨s, c, s', hs, hsame, hstep, rfl⟩
  · exact .refl _
  · rw [← hsame]
    exact MetaState.step_follows hs hstep

/-- A new process on what a restart may find. -/
theorem Finds.whole (hw : w.view.Whole) (h : w.Finds d) : MetaState.Whole { data := .loaded d } := by
  have hrestart : ∀ s : MetaState, s.Whole → MetaState.Whole { data := .loaded s.data.durable } :=
    fun s hs => MetaState.step_whole (a := .restart) hs rfl
  rcases h with rfl | ⟨s, c, s', hs, -, hstep, rfl⟩
  · exact hrestart w.view hw
  · exact hrestart s' (MetaState.step_whole hs hstep)

/-- A file loads as one state. -/
theorem loads_unique {file : Option MetaPersistedRecord} {d d' : DurableData} (h : World.Loads file d)
    (h' : World.Loads file d') : d = d' := by
  obtain ⟨record, hload, rfl⟩ := h
  obtain ⟨record', hload', rfl⟩ := h'
  rw [hload] at hload'
  cases hload'
  rfl

/-- A restart sees the last rename, or after a power loss the last sync. -/
theorem reopen_cases (disk : Disk) (powerLoss : Bool) :
    disk.reopen powerLoss = ⟨disk.synced, disk.synced⟩ ∨
      disk.reopen powerLoss = ⟨disk.visible, disk.visible⟩ := by
  cases powerLoss with
  | true => exact Or.inl rfl
  | false => exact Or.inr rfl

/-- **Restarts** find what they may find. -/
theorem Stored.finds (h : w.Stored) {powerLoss : Bool}
    (hload : World.Loads (w.store.disk.reopen powerLoss).visible d) : w.Finds d := by
  rcases reopen_cases w.store.disk powerLoss with heq | heq
  · rw [heq] at hload
    exact Or.inl (loads_unique hload h.synced)
  · rw [heq] at hload
    obtain ⟨d', hload', hfinds⟩ := h.visible
    rw [loads_unique hload hload']
    exact hfinds

/-- What is found depends on the durable data only. -/
theorem Stored.congr (h : w.Stored) (hsame : w'.txn.durable = w.txn.durable)
    (hdisk : w'.store.disk = w.store.disk) : w'.Stored := by
  obtain ⟨hsynced, d, hload, hfinds⟩ := h
  refine ⟨?_, d, ?_, ?_⟩
  · rw [hdisk, hsame]
    exact hsynced
  · rw [hdisk]
    exact hload
  · unfold Finds Tried
    rw [hsame]
    exact hfinds

/-- A call that failed has published nothing. -/
theorem durable_of_view (h : w'.view = w.view ∨ MetaState.step .abandon w.view = some w'.view) :
    w'.txn = w.txn := by
  rcases h with hsame | habandon
  · exact congrArg MetaState.txn hsame
  · exact congrArg MetaState.txn (Option.some.inj habandon).symm

/-- The record of a saved transaction loads as its data. -/
theorem loads_step {s s' : MetaState} {c : Call} (hs : s.Whole) (h : MetaState.step (.call c) s = some s')
    (hvalid : (MetaPersistedRecord.ofDurable s'.data.durable).validate.fail = false) :
    World.Loads (some (.ofDurable s'.data.durable)) s'.data.durable :=
  World.loads_saved (MetaState.step_whole hs h).catalog.allocated hvalid

/-- **One step** keeps a state good. -/
theorem Steps.good (hw : w.Good) (h : Steps w a w') : w'.Good := by
  cases h with
  | committed c fault haction hstep hdisk =>
    refine ⟨MetaState.step_whole hw.toWhole hstep, ?_⟩
    rcases hdisk with ⟨hdisk, hvalid⟩ | ⟨hdisk, hsame⟩
    · have hload := loads_step hw.toWhole hstep hvalid
      refine ⟨?_, w'.txn.durable, ?_, Or.inl rfl⟩ <;> rw [hdisk] <;> exact hload
    · exact hw.toStored.congr hsame hdisk
  | failed c fault haction hview hdisk =>
    have htxn := durable_of_view hview
    refine ⟨?_, ?_⟩
    · rcases hview with hsame | habandon
      · rw [hsame]
        exact hw.toWhole
      · exact MetaState.step_whole hw.toWhole habandon
    · -- a failed directory sync leaves the new file visible and the old data published
      rcases hdisk with hdisk | ⟨-, s', hstep, hvalid, hdisk⟩
      · exact hw.toStored.congr (congrArg durable htxn) hdisk
      · refine ⟨?_, s'.data.durable, ?_, Or.inr ⟨w.view, c, s', hw.toWhole, ?_, hstep, rfl⟩⟩
        · rw [hdisk, htxn]
          exact hw.synced
        · rw [hdisk]
          exact loads_step hw.toWhole hstep hvalid
        · rw [htxn]
          rfl
  | thought b hstep hstore =>
    refine ⟨MetaState.step_whole hw.toWhole hstep, hw.toStored.congr ?_ (by rw [hstore])⟩
    show w'.store.published.durable = w.store.published.durable
    rw [hstore]
  | restarted powerLoss d haction hload hview hdisk =>
    have hfinds := hw.toStored.finds hload
    have hdurable : w'.txn.durable = d := congrArg (fun s : MetaState => s.data.durable) hview
    refine ⟨hview ▸ hfinds.whole hw.toWhole, ?_, d, ?_, Or.inl hdurable.symm⟩
    · rw [hdisk, hdurable]
      rcases reopen_cases w.store.disk powerLoss with heq | heq <;> rw [heq] at hload ⊢ <;> exact hload
    · rw [hdisk]
      exact hload

/-- **Steps.** -/
theorem step_good (w : Server) (a : ServerAction) (w' : Server) (hw : w.Good)
    (h : step a w = some w') : w'.Good :=
  (Steps.of_step hw.toWhole h).good hw

/-- **Durable data** over one step. -/
theorem step_follows (hw : w.Good) (h : step a w = some w') : Follows w.txn.durable w'.txn.durable := by
  cases Steps.of_step hw.toWhole h with
  | committed c fault haction hstep hdisk => exact MetaState.step_follows hw.toWhole hstep
  | failed c fault haction hview hdisk =>
    rw [durable_of_view hview]
    exact .refl _
  | thought b hstep hstore => exact MetaState.step_follows hw.toWhole hstep
  | restarted powerLoss d haction hload hview hdisk =>
    have hdurable : w'.txn.durable = d := congrArg (fun s : MetaState => s.data.durable) hview
    rw [hdurable]
    exact (hw.toStored.finds hload).follows

/-- **Runs.** -/
theorem good_of_run (h : Machine.Run step {} w) : w.Good :=
  h.invariant (fun w a w' hw _ => step_good w a w' hw) good_start

/-! ## What the server shows -/

/-- No directory sync fails. -/
def Syncs : ServerAction → Prop
  | .call _ fault => ∀ st, fault ≠ some (.syncDir, st)
  | _ => True

/-- The file holds the published data, and what the server shows is a run of `MetaState`. -/
structure Shows (w : Server) : Prop extends Good w where
  current : World.Loads w.store.disk.visible w.txn.durable
  run : Machine.Run MetaState.step {} w.view

/-- **One step** of the server is a step of what it shows, or none. -/
theorem Steps.shows (hw : w.Shows) (hsyncs : Syncs a) (h : Steps w a w') : w'.Shows := by
  have hgood := h.good hw.toGood
  cases h with
  | committed c fault haction hstep hdisk =>
    refine ⟨hgood, ?_, hw.run.tail ⟨_, trivial, hstep⟩⟩
    rcases hdisk with ⟨hdisk, hvalid⟩ | ⟨hdisk, hsame⟩
    · rw [hdisk]
      exact loads_step hw.toWhole hstep hvalid
    · rw [hdisk, hsame]
      exact hw.current
  | failed c fault haction hview hdisk =>
    subst haction
    refine ⟨hgood, ?_, ?_⟩
    · rcases hdisk with hdisk | ⟨⟨st, hsync⟩, -⟩
      · rw [hdisk, durable_of_view hview]
        exact hw.current
      · exact absurd hsync (hsyncs st)
    · rcases hview with hsame | habandon
      · rw [hsame]
        exact hw.run
      · exact hw.run.tail ⟨_, trivial, habandon⟩
  | thought b hstep hstore =>
    refine ⟨hgood, ?_, hw.run.tail ⟨_, trivial, hstep⟩⟩
    have htxn : w'.txn = w.txn := congrArg (fun s : MetaStore => MetaStoreTxn.start s.published) hstore
    rw [hstore, htxn]
    exact hw.current
  | restarted powerLoss d haction hload hview hdisk =>
    have hdurable : w'.txn.durable = d := congrArg (fun s : MetaState => s.data.durable) hview
    -- both names of the file hold the published data
    have hsame : d = w.txn.durable := by
      rcases reopen_cases w.store.disk powerLoss with heq | heq
      · rw [heq] at hload
        exact loads_unique hload hw.synced
      · rw [heq] at hload
        exact loads_unique hload hw.current
    refine ⟨hgood, ?_, hw.run.tail ⟨.restart, trivial, ?_⟩⟩
    · rw [hdisk, hdurable]
      exact hload
    · rw [hview, hsame]
      rfl

/-- **The server refines the machine.** As long as no directory sync fails, what the server shows along a run,
with failed calls and restarts, is a run of `MetaState`. -/
theorem simulates (h : Machine.GuardedRun step (fun _ => Syncs) {} w) : Machine.Run MetaState.step {} w.view := by
  have hstart : Shows {} := ⟨good_start, ⟨{}, rfl, rfl⟩, .refl _⟩
  have hshows : w.Shows := h.invariant
    (fun _ _ _ hw hsyncs hstep => (Steps.of_step hw.toWhole hstep).shows hw hsyncs) hstart
  exact hshows.run

end Server

end AdvisKV.Meta
