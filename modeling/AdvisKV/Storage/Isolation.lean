import AdvisKV.Lib.Machine
import AdvisKV.Model.SampleCodec
import AdvisKV.Storage.Serving

/-!
# AdvisKV — the replicas of one shard on one node

The directory of a replica is named after its table and shard, so two replicas of a shard that live on a node one
after the other, or of which one is only asked to be deleted, share a directory. The manager tells replicas apart by
their whole id. Here is what keeps the two views together, and what goes wrong without it: a removal that was cut
short leaves files that the next replica of the shard is recovered from, and the deletion of one replica removes the
files of another.

Main results:

* `replicaDir_eq_iff` — directories belong to shards.
* `Separated.step` — calls, crashes and running replicas keep the files of each replica its own, under the
  conditions `NodeAction.Separate`.
* `replica_data_separate` — the same for runs, and for what a deletion touches.
-/

namespace AdvisKV

open Meta (shardOf)

/-! ## Names of directories -/

theorem dash_notMem_toDigits (n : Nat) : '-' ∉ Nat.toDigits 10 n := fun hmem =>
  absurd (Nat.isDigit_of_mem_toDigits (by decide) (by decide) hmem) (by decide)

/-- A number is written as digits, with a dash in front if it is negative. -/
theorem toList_toString_int (i : Int) : (toString i).toList =
    if 0 ≤ i then Nat.toDigits 10 i.natAbs else '-' :: Nat.toDigits 10 i.natAbs := by
  rw [Int.toString_eq_repr, Int.repr_eq_if]
  by_cases hi : 0 ≤ i
  · rw [if_pos hi, if_pos hi, Nat.toList_repr, show i.toNat = i.natAbs by omega]
  · rw [if_neg hi, if_neg hi, String.toList_append, Nat.toList_repr, show (-i).toNat = i.natAbs by omega]
    rfl

/-- Digits determine the number. -/
theorem toDigits_inj {m n : Nat} (h : Nat.toDigits 10 m = Nat.toDigits 10 n) : m = n := by
  have hvalue := congrArg (Nat.ofDigitChars 10 · 0) h
  simpa only [Nat.ofDigitChars_toDigits (show 1 < 10 by decide) le_rfl] using hvalue

/-- A text splits in one way at its first dash. -/
theorem split_at_dash {as bs cs ds : List Char} (ha : '-' ∉ as) (hc : '-' ∉ cs)
    (h : as ++ '-' :: bs = cs ++ '-' :: ds) : as = cs ∧ bs = ds := by
  induction as generalizing cs with
  | nil =>
    rcases cs with _ | ⟨c, cs⟩
    · exact ⟨rfl, List.tail_eq_of_cons_eq h⟩
    · exact absurd (List.head_eq_of_cons_eq h ▸ List.mem_cons_self) hc
  | cons a as ih =>
    rcases cs with _ | ⟨c, cs⟩
    · exact absurd (List.head_eq_of_cons_eq h ▸ List.mem_cons_self) ha
    · obtain ⟨hhead, htail⟩ := List.cons_eq_cons.mp h
      obtain ⟨has, hbs⟩ := ih (fun h => ha (List.mem_cons_of_mem _ h))
        (fun h => hc (List.mem_cons_of_mem _ h)) htail
      exact ⟨by rw [hhead, has], hbs⟩

/-- A number followed by a dash can be read back. -/
theorem int_dash_inj {i j : Int} {bs ds : List Char}
    (h : (toString i).toList ++ '-' :: bs = (toString j).toList ++ '-' :: ds) : i = j ∧ bs = ds := by
  have hhead : ∀ (n : Nat) (rest cs : List Char), Nat.toDigits 10 n ++ rest ≠ '-' :: cs := by
    intro n rest cs heq
    rcases hn : Nat.toDigits 10 n with _ | ⟨c, digits⟩
    · exact Nat.toDigits_ne_nil hn
    · rw [hn] at heq
      have := dash_notMem_toDigits n
      rw [hn, ← List.head_eq_of_cons_eq heq] at this
      exact this List.mem_cons_self
  rw [toList_toString_int, toList_toString_int] at h
  split at h <;> split at h
  · obtain ⟨hdigits, hrest⟩ := split_at_dash (dash_notMem_toDigits _) (dash_notMem_toDigits _) h
    have := toDigits_inj hdigits
    exact ⟨by omega, hrest⟩
  · exact absurd h (hhead _ _ _)
  · exact absurd h.symm (hhead _ _ _)
  · obtain ⟨hdigits, hrest⟩ := split_at_dash (dash_notMem_toDigits _) (dash_notMem_toDigits _)
      (List.tail_eq_of_cons_eq h)
    have := toDigits_inj hdigits
    exact ⟨by omega, hrest⟩

/-- **Directories belong to shards.** -/
theorem replicaDir_eq_iff {a b : ReplicaID} : replicaDir a = replicaDir b ↔ shardOf a = shardOf b := by
  constructor
  · intro h
    have hlist := congrArg String.toList h
    simp only [replicaDir, String.toList_append, List.append_assoc] at hlist
    obtain ⟨htable, hrest⟩ := int_dash_inj hlist
    have hshard : a.shardIndex = b.shardIndex :=
      (int_dash_inj (congrArg (· ++ ['-']) hrest)).1
    simp only [shardOf, htable, hshard]
  · intro h
    have htable : a.tableId = b.tableId := congrArg Meta.ShardID.tableId h
    have hshard : a.shardIndex = b.shardIndex := congrArg Meta.ShardID.shardIndex h
    rw [replicaDir, replicaDir, htable, hshard]

/-! ## Operations on one directory -/

namespace DataDir

variable {disk : DataDir}

/-- Changing one directory leaves the others. -/
theorem get_modify (disk : DataDir) (name k : String) (f : ReplicaDir → ReplicaDir) :
    (disk.modify name f).get k =
      if name = k then (disk.get k).map fun d => { f d with name } else disk.get k := by
  unfold modify
  by_cases hk : name = k
  · subst hk
    rw [if_pos rfl]
    rcases hget : disk.get name with _ | d
    · exact hget
    · exact (Keyed.get_put _ _ _).trans (if_pos rfl)
  · rw [if_neg hk]
    rcases hget : disk.get name with _ | d
    · rfl
    · exact (Keyed.get_put _ _ _).trans (if_neg hk)

theorem get_createDirectory (disk : DataDir) (name k : String) :
    (disk.createDirectory name).get k =
      if name = k then some ((disk.get k).getD { name }) else disk.get k := by
  unfold createDirectory
  by_cases hk : name = k
  · subst hk
    rw [if_pos rfl]
    rcases hget : disk.get name with _ | d
    · exact (Keyed.get_put _ _ _).trans (if_pos rfl)
    · exact hget
  · rw [if_neg hk]
    rcases hget : disk.get name with _ | d
    · exact (Keyed.get_put _ _ _).trans (if_neg hk)
    · rfl

/-- What a directory looks like before its replica is recovered. -/
theorem get_prepared (disk : DataDir) (id : ReplicaID) (k : String) :
    (disk.prepared id).get k =
      if replicaDir id = k then some ((disk.get k).getD { name := k }).openWal else disk.get k := by
  rw [prepared, get_modify, get_createDirectory]
  split
  · next hk =>
    subst hk
    rcases hget : disk.get (replicaDir id) with _ | d
    · rfl
    · rw [← Keyed.key_of_get hget]
      rfl
  · rfl

/-- The deletion of a replica touches one directory. -/
theorem get_deleteReplicaData {id : ReplicaID} {k : String} (hk : replicaDir id ≠ k) (removal : Removal) :
    (disk.deleteReplicaData id removal).2.get k = disk.get k := by
  unfold deleteReplicaData
  split
  · rfl
  · rw [Keyed.get_erase, if_neg hk]
  · rw [get_modify, if_neg hk]
  · rw [Keyed.get_erase, if_neg hk]

end DataDir

/-! ## Whose files -/

/-- A directory with a meta file is the directory of the replica named there, and holds only its data. -/
def ReplicaDir.Sound (d : ReplicaDir) : Prop :=
  ∀ p, d.replicaMeta = some p → replicaDir p.replicaId = d.name ∧ ∀ w ∈ d.writers, w = p.replicaId

namespace ReplicaDir

variable {d : ReplicaDir} {id : ReplicaID}

variable {w : ReplicaID}

/-- Whose data is in a directory: the union over its three files. -/
theorem mem_writers : w ∈ d.writers ↔
    (∃ f, d.wal = some f ∧ w ∈ f.writers) ∨ (∃ f, d.raftMeta = some f ∧ w ∈ f.writers) ∨
      ∃ f, d.snapshot = some f ∧ w ∈ f.writers := by
  obtain ⟨name, wal, raftMeta, snapshot, replicaMeta⟩ := d
  rcases wal with _ | wal <;> rcases raftMeta with _ | raftMeta <;> rcases snapshot with _ | snapshot <;>
    simp [writers]

/-- An empty WAL holds nobody's data. -/
theorem writers_openWal (d : ReplicaDir) : d.openWal.writers = d.writers := by
  obtain ⟨name, wal, raftMeta, snapshot, replicaMeta⟩ := d
  rcases wal with _ | wal <;> rfl

/-- Removing files removes writers only. -/
theorem writers_keep {kept : ReplicaFile → Bool} (h : w ∈ (d.keep kept).writers) :
    w ∈ d.writers := by
  rw [mem_writers] at h ⊢
  rcases h with ⟨f, hf, hw⟩ | ⟨f, hf, hw⟩ | ⟨f, hf, hw⟩ <;> simp only [keep] at hf <;> split at hf
  · exact Or.inl ⟨f, hf, hw⟩
  · cases hf
  · exact Or.inr (Or.inl ⟨f, hf, hw⟩)
  · cases hf
  · exact Or.inr (Or.inr ⟨f, hf, hw⟩)
  · cases hf

/-- A replica that writes adds nobody's data but its own. -/
theorem writers_write {p : PersistEngine} {stored : ReplicaFile → Bool}
    (h : w ∈ (d.write id p stored).writers) : w = id ∨ w ∈ d.writers := by
  -- an appended WAL keeps its old writers, a rewritten or empty one does not
  have hwal : ∀ f, d.writeWal id p.wal = some f → w ∈ f.writers → w = id ∨ w ∈ d.writers := by
    intro f hf hw
    unfold writeWal at hf
    split at hf
    · exact Or.inr (mem_writers.mpr (Or.inl ⟨f, hf, hw⟩))
    · obtain rfl := Option.some.inj hf
      dsimp only at hw
      split at hw
      · cases hw
      · rcases List.mem_cons.mp hw with hself | hold
        · exact Or.inl hself
        · rcases hget : d.wal with _ | f
          · rw [hget] at hold
            cases hold
          · rw [hget] at hold
            exact Or.inr (mem_writers.mpr (Or.inl ⟨f, hget, hold⟩))
  rcases mem_writers.mp h with ⟨f, hf, hw⟩ | ⟨f, hf, hw⟩ | ⟨f, hf, hw⟩ <;> simp only [write] at hf <;>
    split at hf
  · exact hwal f hf hw
  · exact Or.inr (mem_writers.mpr (Or.inl ⟨f, hf, hw⟩))
  · obtain rfl := Option.some.inj hf
    exact Or.inl (List.mem_singleton.mp hw)
  · exact Or.inr (mem_writers.mpr (Or.inr (Or.inl ⟨f, hf, hw⟩)))
  · obtain ⟨d', -, rfl⟩ := Option.map_eq_some_iff.mp hf
    exact Or.inl (List.mem_singleton.mp hw)
  · exact Or.inr (mem_writers.mpr (Or.inr (Or.inr ⟨f, hf, hw⟩)))

end ReplicaDir

namespace DataDir

/-- Every directory is sound. -/
def Sound (disk : DataDir) : Prop := ∀ k d, disk.get k = some d → d.Sound

/-- The directory of `id` has its meta file. -/
def Holds (disk : DataDir) (id : ReplicaID) : Prop :=
  ∃ d p, disk.get (replicaDir id) = some d ∧ d.replicaMeta = some p ∧ p.replicaId = id

variable {disk disk' : DataDir} {id : ReplicaID}

/-- In the directory of a replica there is nobody else's data. -/
theorem Sound.writers (h : disk.Sound) (hid : disk.Holds id) {w : ReplicaID} (hw : w ∈ disk.writers id) :
    w = id := by
  obtain ⟨d, p, hget, hmeta, rfl⟩ := hid
  unfold DataDir.writers at hw
  rw [hget] at hw
  exact (h _ d hget p hmeta).2 w hw

/-- The directory of one replica is replaced by a sound one. -/
theorem Sound.replace (h : disk.Sound) {name : String} (hother : ∀ k, name ≠ k → disk'.get k = disk.get k)
    (hname : ∀ d, disk'.get name = some d → d.Sound) : disk'.Sound := by
  intro k d hget
  by_cases hk : name = k
  · subst hk
    exact hname d hget
  · exact h k d (hother k hk ▸ hget)

/-- The meta file is where its directory has not changed. -/
theorem Holds.of_eq (h : disk.Holds id) (heq : disk'.get (replicaDir id) = disk.get (replicaDir id)) :
    disk'.Holds id := by
  obtain ⟨d, p, hget, hmeta, hp⟩ := h
  exact ⟨d, p, heq.trans hget, hmeta, hp⟩

/-- Creating a directory, with or without a WAL in it. -/
structure Extends (disk disk' : DataDir) : Prop where
  sound : disk.Sound → disk'.Sound
  holds : ∀ id, disk.Holds id → disk'.Holds id
  writers : ∀ id, disk'.writers id = disk.writers id

/-- A new directory has no meta file, and one that was there stays. -/
theorem createDirectory_extends (disk : DataDir) (name : String) : disk.Extends (disk.createDirectory name) := by
  have hget := get_createDirectory disk name
  refine ⟨fun h => h.replace (fun k hk => (hget k).trans (if_neg hk)) fun d hd => ?_, fun id h => ?_, fun id => ?_⟩
  · rw [hget, if_pos rfl] at hd
    rcases hold : disk.get name with _ | d₀
    · rw [hold] at hd
      obtain rfl := Option.some.inj hd
      intro p hp
      cases hp
    · rw [hold] at hd
      obtain rfl := Option.some.inj hd
      exact h name _ hold
  · obtain ⟨d, p, hd, hmeta, hp⟩ := h
    refine ⟨d, p, ?_, hmeta, hp⟩
    rw [hget, hd]
    split <;> rfl
  · unfold DataDir.writers
    rw [hget]
    split
    · rcases disk.get (replicaDir id) with _ | d <;> rfl
    · rfl

/-- Opening a WAL writes nobody's data. -/
theorem prepared_extends (disk : DataDir) (id : ReplicaID) : disk.Extends (disk.prepared id) := by
  have hget := get_prepared disk id
  refine ⟨fun h => h.replace (fun k hk => (hget k).trans (if_neg hk)) fun d hd => ?_, fun x h => ?_, fun x => ?_⟩
  · rw [hget, if_pos rfl] at hd
    obtain rfl := Option.some.inj hd
    intro p hp
    rw [ReplicaDir.writers_openWal]
    rcases hold : disk.get (replicaDir id) with _ | d₀
    · rw [hold] at hp
      cases hp
    · rw [hold] at hp
      exact h _ d₀ hold p hp
  · obtain ⟨d, p, hd, hmeta, hp⟩ := h
    by_cases hk : replicaDir id = replicaDir x
    · exact ⟨d.openWal, p, by rw [hget, if_pos hk, hd]; rfl, hmeta, hp⟩
    · exact ⟨d, p, by rw [hget, if_neg hk, hd], hmeta, hp⟩
  · unfold DataDir.writers
    rw [hget]
    split
    · rcases disk.get (replicaDir x) with _ | d
      · rfl
      · exact d.writers_openWal
    · rfl

variable {param : ReplicaInitParam}

/-- Saving the meta file of a replica in a directory that holds nobody else's data. -/
theorem saveReplicaMeta_sound (h : disk.Sound)
    (hown : ∀ w ∈ disk.writers param.replicaId, w = param.replicaId) :
    (disk.saveReplicaMeta param).Sound := by
  have hget := fun k => get_modify disk (replicaDir param.replicaId) k fun d => { d with replicaMeta := some param }
  refine h.replace (fun k hk => (hget k).trans (if_neg hk)) fun d hd => ?_
  rw [saveReplicaMeta, hget, if_pos rfl] at hd
  obtain ⟨d₀, hold, rfl⟩ := Option.map_eq_some_iff.mp hd
  intro p hp
  obtain rfl := Option.some.inj hp
  refine ⟨rfl, fun w hw => hown w ?_⟩
  unfold DataDir.writers
  rw [hold]
  exact hw

theorem saveReplicaMeta_get {k : String} (hk : replicaDir param.replicaId ≠ k) :
    (disk.saveReplicaMeta param).get k = disk.get k :=
  (get_modify disk _ k _).trans (if_neg hk)

theorem saveReplicaMeta_holds {d : ReplicaDir} (h : disk.get (replicaDir param.replicaId) = some d) :
    (disk.saveReplicaMeta param).Holds param.replicaId := by
  refine ⟨{ d with name := replicaDir param.replicaId, replicaMeta := some param }, param, ?_, rfl, rfl⟩
  rw [saveReplicaMeta, get_modify, if_pos rfl, h]
  rfl

/-- A replica writes to the directory that has its meta file. -/
theorem write_keeps {p : PersistEngine} {stored : ReplicaFile → Bool} (h : disk.Sound) (hid : disk.Holds id) :
    (disk.modify (replicaDir id) fun d => d.write id p stored).Sound ∧
      ∀ x, disk.Holds x → (disk.modify (replicaDir id) fun d => d.write id p stored).Holds x := by
  have hget := fun k => get_modify disk (replicaDir id) k fun d => d.write id p stored
  refine ⟨h.replace (fun k hk => (hget k).trans (if_neg hk)) fun d hd => ?_, fun x hx => ?_⟩
  · rw [hget, if_pos rfl] at hd
    obtain ⟨d₀, hold, rfl⟩ := Option.map_eq_some_iff.mp hd
    obtain ⟨d₁, p₁, hd₁, hmeta, hp₁⟩ := hid
    obtain rfl := Option.some.inj (hold.symm.trans hd₁)
    intro p' hp'
    obtain rfl := Option.some.inj (hmeta.symm.trans hp')
    refine ⟨by rw [hp₁], fun w hw => ?_⟩
    rcases ReplicaDir.writers_write hw with hself | hold'
    · exact hself.trans hp₁.symm
    · exact (h _ _ hold p₁ hmeta).2 w hold'
  · obtain ⟨d, p', hd, hmeta, hp'⟩ := hx
    by_cases hk : replicaDir id = replicaDir x
    · exact ⟨{ d.write id p stored with name := replicaDir id }, p', by rw [hget, if_pos hk, hd]; rfl, hmeta, hp'⟩
    · exact ⟨d, p', by rw [hget, if_neg hk, hd], hmeta, hp'⟩

/-- A removal, complete or cut short, leaves a sound directory or none. -/
theorem deleteReplicaData_sound (h : disk.Sound) (id : ReplicaID) (removal : Removal) :
    (disk.deleteReplicaData id removal).2.Sound := by
  refine h.replace (fun k hk => get_deleteReplicaData hk removal) fun d hd => ?_
  unfold deleteReplicaData at hd
  split at hd
  · exact h _ d hd
  · rw [Keyed.get_erase, if_pos rfl] at hd
    cases hd
  · rw [get_modify, if_pos rfl] at hd
    obtain ⟨d₀, hold, rfl⟩ := Option.map_eq_some_iff.mp hd
    -- a meta file that outlived the removal still names its own directory
    intro p hp
    have hmeta : d₀.replicaMeta = some p := by
      simp only [ReplicaDir.keep] at hp
      split at hp
      · exact hp
      · cases hp
    obtain ⟨hname, hown⟩ := h _ d₀ hold p hmeta
    exact ⟨hname.trans (Keyed.key_of_get hold), fun w hw => hown w (ReplicaDir.writers_keep hw)⟩
  · rw [Keyed.get_erase, if_pos rfl] at hd
    cases hd

end DataDir

/-! ## The manager -/

/-- What `Replica::recover` does to a replica and to its files. -/
theorem ManagedReplica.recover_cases (options : ReplicaRuntimeOptions) (disk : DataDir) (r : ManagedReplica)
    (fault : Option Failure) :
    (r.recover options disk fault).2.1.param = r.param ∧
    ((r.recover options disk fault).2.1.loadedFrom = r.loadedFrom ∨
      (r.recover options disk fault).2.1.loadedFrom = disk.writers r.replicaId) ∧
    ((r.recover options disk fault).2.2 = disk ∨ ∃ p stored, (r.recover options disk fault).2.2 =
      disk.modify (replicaDir r.replicaId) fun d => d.write r.replicaId p stored) := by
  unfold ManagedReplica.recover
  split
  · exact ⟨rfl, Or.inl rfl, Or.inl rfl⟩
  · exact ⟨rfl, Or.inl rfl, Or.inl rfl⟩
  split
  · exact ⟨rfl, Or.inl rfl, Or.inl rfl⟩
  dsimp only
  split
  · exact ⟨rfl, Or.inl rfl, Or.inr ⟨_, _, rfl⟩⟩
  · exact ⟨rfl, Or.inr rfl, Or.inr ⟨_, _, rfl⟩⟩

/-- Starting changes neither the parameters nor the origin of the data. -/
theorem ManagedReplica.start_same (r : ManagedReplica) :
    r.start.2.param = r.param ∧ r.start.2.loadedFrom = r.loadedFrom := by
  unfold ManagedReplica.start
  split <;> exact ⟨rfl, rfl⟩

namespace ReplicaManager

/-- A replica of the manager has its own directory, was recovered from its own data alone and is indexed under its
shard. -/
structure Owns (m : ReplicaManager) (disk : DataDir) (r : ManagedReplica) : Prop where
  holds : disk.Holds r.replicaId
  loaded : ∀ w ∈ r.loadedFrom, w = r.replicaId
  indexed : m.shardPrimaryIndex.get (shardOf r.replicaId) = some (shardOf r.replicaId, r.replicaId)

/-- Every replica of the manager. -/
def Separated (m : ReplicaManager) (disk : DataDir) : Prop :=
  disk.Sound ∧ ∀ id r, m.replicaMap.get id = some r → m.Owns disk r

variable {m : ReplicaManager} {disk disk' : DataDir} {options : ReplicaRuntimeOptions}

variable {r : ManagedReplica} {param : ReplicaInitParam}

/-- New directories take nothing from a replica. -/
theorem Owns.extend (h : m.Owns disk r) (hext : disk.Extends disk') : m.Owns disk' r :=
  ⟨hext.holds _ h.holds, h.loaded, h.indexed⟩

theorem Separated.extend (h : m.Separated disk) (hext : disk.Extends disk') : m.Separated disk' :=
  ⟨hext.sound h.1, fun id r hr => (h.2 id r hr).extend hext⟩

/-- A shard that is not indexed has no replica. -/
theorem Separated.shard_ne (h : m.Separated disk) {id x : ReplicaID}
    (habsent : m.shardPrimaryIndex.get (shardOf id) = none) (hr : m.replicaMap.get x = some r) :
    shardOf id ≠ shardOf x := by
  intro heq
  have hindexed := (h.2 x r hr).indexed
  rw [show r.replicaId = x from Keyed.key_of_get hr, ← heq, habsent] at hindexed
  cases hindexed

/-- A new replica of a shard that has none. -/
theorem Separated.insert (h : m.Separated disk) (hsound : disk'.Sound)
    (habsent : m.shardPrimaryIndex.get (shardOf r.replicaId) = none) (hfresh : r.loadedFrom = [])
    (hholds : disk'.Holds r.replicaId)
    (hothers : ∀ x, shardOf r.replicaId ≠ shardOf x → disk.Holds x → disk'.Holds x) :
    (m.insert r).Separated disk' := by
  have hindex : ∀ k, (m.insert r).shardPrimaryIndex.get k =
      if shardOf r.replicaId = k then some (shardOf r.replicaId, r.replicaId) else m.shardPrimaryIndex.get k :=
    fun k => Keyed.get_put _ _ k
  refine ⟨hsound, fun x r' hr' => ?_⟩
  have hget : (m.insert r).replicaMap.get x = if r.replicaId = x then some r else m.replicaMap.get x :=
    Keyed.get_put _ _ x
  rw [hget] at hr'
  split at hr'
  · obtain rfl := Option.some.inj hr'
    refine ⟨hholds, fun w hw => ?_, (hindex _).trans (if_pos rfl)⟩
    rw [hfresh] at hw
    cases hw
  · have hne := h.shard_ne habsent hr'
    have hkey : r'.replicaId = x := Keyed.key_of_get hr'
    obtain ⟨hold, hloaded, hindexed⟩ := h.2 x r' hr'
    rw [← hkey] at hne
    exact ⟨hothers _ hne hold, hloaded, (hindex _).trans ((if_neg hne).trans hindexed)⟩

/-- An added replica has a directory of its own, if nobody's data was left in it. -/
theorem addReplica_separated (h : m.Separated disk) (fault : AddFault)
    (hown : m.shardPrimaryIndex.get (shardOf param.replicaId) = none →
      ∀ w ∈ disk.writers param.replicaId, w = param.replicaId) :
    (m.addReplica options disk param fault).2.1.Separated (m.addReplica options disk param fault).2.2 := by
  have hadds := addReplica_adds options m disk param fault
  generalize m.addReplica options disk param fault = result at hadds ⊢
  have hprepared := disk.prepared_extends param.replicaId
  have hsaved : m.shardPrimaryIndex.get (shardOf param.replicaId) = none →
      ((disk.prepared param.replicaId).saveReplicaMeta param).Sound := fun habsent =>
    DataDir.saveReplicaMeta_sound (hprepared.sound h.1) fun w hw =>
      hown habsent w (by rwa [hprepared.writers] at hw)
  -- replicas of other shards live in other directories
  have hothers : ∀ x, shardOf param.replicaId ≠ shardOf x → disk.Holds x →
      ((disk.prepared param.replicaId).saveReplicaMeta param).Holds x := fun x hne hx =>
    (hprepared.holds x hx).of_eq (DataDir.saveReplicaMeta_get (mt replicaDir_eq_iff.mp hne))
  cases hadds with
  | present held => exact h
  | refused failed => exact h
  | unfinished failed absent created =>
    rcases created with rfl | rfl
    · exact h.extend (DataDir.createDirectory_extends _ _)
    · exact h.extend hprepared
  | unsynced failed absent =>
    refine ⟨hsaved absent, fun x r hr => ?_⟩
    obtain ⟨hholds, hloaded, hindexed⟩ := h.2 x r hr
    have hkey : r.replicaId = x := Keyed.key_of_get hr
    exact ⟨hothers _ (hkey ▸ h.shard_ne absent hr) hholds, hloaded, hindexed⟩
  | @added r new absent built fresh state =>
    have hid : r.replicaId = param.replicaId := congrArg ReplicaInitParam.replicaId built
    have hdir : (disk.prepared param.replicaId).get (replicaDir param.replicaId) = some _ :=
      (DataDir.get_prepared _ _ _).trans (if_pos rfl)
    refine h.insert (hsaved absent) (hid ▸ absent) fresh ?_ ?_
    · rw [hid]
      exact DataDir.saveReplicaMeta_holds hdir
    · rw [hid]
      exact hothers

/-- A deletion leaves the replicas of other shards theirs. -/
theorem deleteReplica_separated (h : m.Separated disk) {id : ReplicaID} (removal : Removal)
    (halone : ∀ x r, m.replicaMap.get x = some r → x ≠ id → shardOf x ≠ shardOf id) :
    (m.deleteReplica disk id removal).2.1.Separated (m.deleteReplica disk id removal).2.2 := by
  refine ⟨DataDir.deleteReplicaData_sound h.1 id removal, fun x r hr => ?_⟩
  -- what is left in the map is of another shard
  have hleft : m.replicaMap.get x = some r ∧ x ≠ id ∧
      ∀ k, shardOf id ≠ k → (m.deleteReplica disk id removal).2.1.shardPrimaryIndex.get k =
        m.shardPrimaryIndex.get k := by
    simp only [deleteReplica] at hr ⊢
    split at hr
    · next r₀ hr₀ =>
      rw [Keyed.get_erase] at hr
      split at hr
      · cases hr
      · next hne =>
        refine ⟨hr, Ne.symm hne, fun k hk => ?_⟩
        rw [Keyed.get_erase, if_neg]
        rwa [show r₀.replicaId = id from Keyed.key_of_get hr₀]
    · next hnone =>
      refine ⟨hr, ?_, fun _ _ => rfl⟩
      rintro rfl
      rw [hnone] at hr
      cases hr
  obtain ⟨hold, hne, hindex⟩ := hleft
  have hshard := halone x r hold hne
  have hkey : r.replicaId = x := Keyed.key_of_get hold
  obtain ⟨hholds, hloaded, hindexed⟩ := h.2 x r hold
  rw [hkey] at hholds hindexed
  refine ⟨?_, hloaded, ?_⟩
  · rw [hkey]
    exact hholds.of_eq (DataDir.get_deleteReplicaData (mt replicaDir_eq_iff.mp (Ne.symm hshard)) removal)
  · rw [hkey, hindex _ (Ne.symm hshard), hindexed]

/-- A replica is replaced by itself at a later time. -/
theorem Separated.replace (h : m.Separated disk) {r' : ManagedReplica} (hsound : disk'.Sound)
    (hholds : ∀ x, disk.Holds x → disk'.Holds x) (hown : m.Owns disk r) (hsame : r'.param = r.param)
    (hloaded : ∀ w ∈ r'.loadedFrom, w = r'.replicaId) :
    ({ m with replicaMap := m.replicaMap.put r' } : ReplicaManager).Separated disk' := by
  have hid : r'.replicaId = r.replicaId := congrArg ReplicaInitParam.replicaId hsame
  refine ⟨hsound, fun x r'' hr'' => ?_⟩
  have hget : (m.replicaMap.put r').get x = if r'.replicaId = x then some r' else m.replicaMap.get x :=
    Keyed.get_put _ _ x
  rw [hget] at hr''
  split at hr''
  · obtain rfl := Option.some.inj hr''
    refine ⟨?_, hloaded, ?_⟩
    · rw [hid]
      exact hholds _ hown.holds
    · rw [hid]
      exact hown.indexed
  · obtain ⟨hold, hloaded', hindexed⟩ := h.2 x r'' hr''
    exact ⟨hholds _ hold, hloaded', hindexed⟩

section

variable (options) (fault : ReplicaID → RecoverFault)

/-- One meta file: what is built for it keeps every meta file in place. -/
theorem rebuild_separated (h : m.Separated disk) (hparam : disk.Holds param.replicaId) :
    (rebuild options fault (m, disk) param).1.Separated (rebuild options fault (m, disk) param).2 ∧
      disk.Extends (rebuild options fault (m, disk) param).2 := by
  have hsame : disk.Extends disk := ⟨fun h => h, fun _ h => h, fun _ => rfl⟩
  simp only [rebuild]
  split
  · exact ⟨h, hsame⟩
  next hnew =>
  simp only [Bool.or_eq_true, not_or, Bool.not_eq_true, Option.isSome_eq_false_iff,
    Option.isNone_iff_eq_none] at hnew
  rcases ManagedReplica.init_cases options disk param (fault param.replicaId).openWal with
    ⟨status, hinit, -⟩ | ⟨status, hinit, -⟩ | ⟨r, hinit, hbuilt, hfresh, -⟩ <;> rw [hinit]
  · exact ⟨h, hsame⟩
  · exact ⟨h.extend (DataDir.createDirectory_extends _ _), DataDir.createDirectory_extends _ _⟩
  · have hprepared := disk.prepared_extends param.replicaId
    have hid : r.replicaId = param.replicaId := congrArg ReplicaInitParam.replicaId hbuilt
    refine ⟨h.insert (hprepared.sound h.1) (hid ▸ hnew.2) hfresh ?_ fun x _ hx => hprepared.holds x hx, hprepared⟩
    rw [hid]
    exact hprepared.holds _ hparam

/-- The first loop of `recover`, over all meta files. -/
theorem rebuildAll_separated (params : List ReplicaInitParam) :
    ∀ s : ReplicaManager × DataDir, s.1.Separated s.2 → (∀ p ∈ params, s.2.Holds p.replicaId) →
      (params.foldl (rebuild options fault) s).1.Separated (params.foldl (rebuild options fault) s).2 := by
  induction params with
  | nil => exact fun _ h _ => h
  | cons param params ih =>
    intro s h hparams
    obtain ⟨hone, hext⟩ := rebuild_separated options fault h (hparams param List.mem_cons_self)
    exact ih _ hone fun p hp => hext.holds _ (hparams p (List.mem_cons_of_mem _ hp))

/-- One replica is recovered from its own directory and started. -/
theorem restart_separated (h : m.Separated disk) (hr : m.Owns disk r) :
    (restart options fault (m, disk) r).1.Separated (restart options fault (m, disk) r).2 ∧
      (∀ x, disk.Holds x → (restart options fault (m, disk) r).2.Holds x) ∧
      (restart options fault (m, disk) r).1.shardPrimaryIndex = m.shardPrimaryIndex := by
  simp only [restart]
  split
  · exact ⟨h, fun _ hx => hx, rfl⟩
  obtain ⟨hparam, hloaded, hdisk⟩ := r.recover_cases options disk (fault r.replicaId).recover
  set out := r.recover options disk (fault r.replicaId).recover
  obtain ⟨hsound, hholds⟩ : out.2.2.Sound ∧ ∀ x, disk.Holds x → out.2.2.Holds x := by
    rcases hdisk with heq | ⟨p, stored, heq⟩ <;> rw [heq]
    · exact ⟨h.1, fun _ hx => hx⟩
    · exact DataDir.write_keeps h.1 hr.holds
  have hown : ∀ w ∈ out.2.1.loadedFrom, w = r.replicaId := by
    rcases hloaded with heq | heq <;> rw [heq]
    · exact hr.loaded
    · exact fun w hw => h.1.writers hr.holds hw
  -- starting it changes neither
  have hlater : ∀ r' : ManagedReplica, r' = (if out.1.fail then out.2.1 else out.2.1.start.2) →
      r'.param = r.param ∧ ∀ w ∈ r'.loadedFrom, w = r.replicaId := by
    intro r' heq
    split at heq <;> rw [heq]
    · exact ⟨hparam, hown⟩
    · rw [(ManagedReplica.start_same _).1, (ManagedReplica.start_same _).2]
      exact ⟨hparam, hown⟩
  obtain ⟨hsame, hloaded'⟩ := hlater _ rfl
  refine ⟨h.replace hsound hholds hr hsame fun w hw => ?_, hholds, rfl⟩
  exact (hloaded' w hw).trans (congrArg ReplicaInitParam.replicaId hsame).symm

/-- The second loop of `recover`, over all replicas built. -/
theorem restartAll_separated (rs : List ManagedReplica) :
    ∀ s : ReplicaManager × DataDir, s.1.Separated s.2 → (∀ r ∈ rs, s.1.Owns s.2 r) →
      (rs.foldl (restart options fault) s).1.Separated (rs.foldl (restart options fault) s).2 := by
  induction rs with
  | nil => exact fun _ h _ => h
  | cons r rs ih =>
    intro s h hrs
    obtain ⟨hone, hholds, hindex⟩ := restart_separated options fault h (hrs r List.mem_cons_self)
    refine ih _ hone fun r' hr' => ?_
    obtain ⟨hold, hloaded, hindexed⟩ := hrs r' (List.mem_cons_of_mem _ hr')
    refine ⟨hholds _ hold, hloaded, ?_⟩
    rw [← hindexed]
    exact congrArg (Keyed.get · _) hindex

end

/-- A meta file that the scan finds is in the directory of its replica. -/
theorem holds_of_scan (h : disk.Sound) {param : ReplicaInitParam} (hscan : param ∈ disk.scanReplicaMetaFiles) :
    disk.Holds param.replicaId := by
  obtain ⟨d, hd, hmeta⟩ := List.mem_filterMap.mp hscan
  have hmem : d ∈ disk.entries := (List.mem_insertionSort _).mp hd
  have hget : disk.get d.name = some d := Keyed.get_eq_some_iff.mpr ⟨hmem, rfl⟩
  refine ⟨d, param, ?_, hmeta, rfl⟩
  rw [(h _ d hget param hmeta).1, hget]

/-- A new process finds for every replica its own data. -/
theorem recover_separated (h : m.Separated disk) (fault : ReplicaID → RecoverFault) :
    (m.recover options disk fault).1.Separated (m.recover options disk fault).2 := by
  have hbuilt := rebuildAll_separated options fault disk.scanReplicaMetaFiles (m, disk) h
    fun p hp => holds_of_scan h.1 hp
  refine restartAll_separated options fault _ _ hbuilt fun r hr => hbuilt.2 r.replicaId r ?_
  exact Keyed.get_eq_some_iff.mpr ⟨hr, rfl⟩

end ReplicaManager

/-! ## Runs -/

/-- A storage node: its process, if it is up, and its data directory. -/
structure StorageNode where
  manager : Option ReplicaManager := none
  disk : DataDir := .empty

/-- What the loop of a running replica takes next. -/
inductive LoopInput where
  | event (ev : LoopEvent)
  | workerPost
  | workerClear

def LoopInput.next (codec : SnapshotCodec) : LoopInput → ReplicaLoop → ReplicaLoop
  | event ev, l => (l.iterate codec ev).loop
  | workerPost, l => l.workerPost
  | workerClear, l => l.workerClear

inductive NodeAction where
  | start
  | crash
  | add (param : ReplicaInitParam) (fault : AddFault)
  | delete (id : ReplicaID) (removal : Removal)
  | recover (fault : ReplicaID → RecoverFault)
  | run (id : ReplicaID) (input : LoopInput)
  /-- The process crashes while a replica writes; only the files in `stored` have been reached. -/
  | crashWriting (id : ReplicaID) (input : LoopInput) (stored : ReplicaFile → Bool)

namespace NodeAction

/-- The replica `id` after its loop has taken `input`, if it is running. -/
def stepReplica (codec : SnapshotCodec) (m : ReplicaManager) (id : ReplicaID) (input : LoopInput) :
    Option ManagedReplica :=
  match m.replicaMap.get id with
  | some r =>
    if r.localState = .running then
      let loop := input.next codec r.loop
      some { r with loop, localState := if loop.faulted then .faulted else .running }
    else none
  | none => none

def step (options : ReplicaRuntimeOptions) (codec : SnapshotCodec) (action : NodeAction) (n : StorageNode) :
    Option StorageNode :=
  match action, n.manager with
  | start, none => some { n with manager := some {} }
  | crash, some _ => some { n with manager := none }
  | add param fault, some m =>
    let r := m.addReplica options n.disk param fault
    some { manager := some r.2.1, disk := r.2.2 }
  | delete id removal, some m =>
    let r := m.deleteReplica n.disk id removal
    some { manager := some r.2.1, disk := r.2.2 }
  | recover fault, some m =>
    let r := m.recover options n.disk fault
    some { manager := some r.1, disk := r.2 }
  | run id input, some m => (stepReplica codec m id input).map fun r =>
    { manager := some { m with replicaMap := m.replicaMap.put r }
      disk := n.disk.modify (replicaDir id) fun d => d.write id r.loop.state.persist fun _ => true }
  | crashWriting id input stored, some m => (stepReplica codec m id input).map fun r =>
    { manager := none
      disk := n.disk.modify (replicaDir id) fun d => d.write id r.loop.state.persist stored }
  | _, _ => none

/-- The two conditions under which replicas of a shard stay apart. A replica is added only where the directory of
its shard holds nobody else's data, unless the shard has a replica already. A replica is deleted only while no other
replica of its shard is in the manager. -/
def Separate (n : StorageNode) : NodeAction → Prop
  | add param _ => ∀ m, n.manager = some m → m.shardPrimaryIndex.get (shardOf param.replicaId) = none →
    ∀ w ∈ n.disk.writers param.replicaId, w = param.replicaId
  | delete id _ => ∀ m, n.manager = some m →
    ∀ x r, m.replicaMap.get x = some r → x ≠ id → shardOf x ≠ shardOf id
  | _ => True

end NodeAction

/-- The invariant of a node. -/
structure StorageNode.Separated (n : StorageNode) : Prop where
  sound : n.disk.Sound
  manager : ∀ m, n.manager = some m → m.Separated n.disk

variable {codec : SnapshotCodec}

/-- A replica that takes an event keeps its id and the origin of its data. -/
theorem NodeAction.stepReplica_some {m : ReplicaManager} {id : ReplicaID} {input : LoopInput}
    {r : ManagedReplica} (h : stepReplica codec m id input = some r) :
    ∃ r₀, m.replicaMap.get id = some r₀ ∧ r.param = r₀.param ∧ r.loadedFrom = r₀.loadedFrom := by
  unfold stepReplica at h
  split at h
  · next r₀ hr₀ =>
    split at h
    · obtain rfl := Option.some.inj h
      exact ⟨r₀, hr₀, rfl, rfl⟩
    · cases h
  · cases h

/-- **Steps.** -/
theorem StorageNode.Separated.step {options : ReplicaRuntimeOptions} (n : StorageNode) (a : NodeAction)
    (n' : StorageNode) (h : n.Separated) (ha : a.Separate n) (hstep : a.step options codec n = some n') :
    n'.Separated := by
  -- the process is up, or it is down and only the disk counts
  have hup : ∀ {m : ReplicaManager} {disk : DataDir}, m.Separated disk →
      StorageNode.Separated { manager := some m, disk } := fun hm =>
    ⟨hm.1, fun m' hm' => by obtain rfl := Option.some.inj hm'; exact hm⟩
  have hdown : ∀ {disk : DataDir}, disk.Sound → StorageNode.Separated { manager := none, disk } :=
    fun hd => ⟨hd, fun m' hm' => by cases hm'⟩
  unfold NodeAction.step at hstep
  split at hstep
  · obtain rfl := Option.some.inj hstep
    refine hup ⟨h.sound, fun id r hr => ?_⟩
    cases hr
  · obtain rfl := Option.some.inj hstep
    exact hdown h.sound
  · next param fault m hm =>
    obtain rfl := Option.some.inj hstep
    exact hup (ReplicaManager.addReplica_separated (h.manager m hm) fault (ha m hm))
  · next id removal m hm =>
    obtain rfl := Option.some.inj hstep
    exact hup (ReplicaManager.deleteReplica_separated (h.manager m hm) removal (ha m hm))
  · next fault m hm =>
    obtain rfl := Option.some.inj hstep
    exact hup (ReplicaManager.recover_separated (h.manager m hm) fault)
  · next id input m hm =>
    obtain ⟨r, hr, rfl⟩ := Option.map_eq_some_iff.mp hstep
    obtain ⟨r₀, hr₀, hparam, hloaded⟩ := NodeAction.stepReplica_some hr
    have hown := (h.manager m hm).2 id r₀ hr₀
    have hid : r₀.replicaId = id := Keyed.key_of_get hr₀
    obtain ⟨hsound, hholds⟩ := DataDir.write_keeps (p := r.loop.state.persist) h.sound (hid ▸ hown.holds)
    refine hup ((h.manager m hm).replace hsound hholds hown hparam fun w hw => ?_)
    rw [hloaded] at hw
    exact (hown.loaded w hw).trans (congrArg ReplicaInitParam.replicaId hparam).symm
  · next id input stored m hm =>
    obtain ⟨r, hr, rfl⟩ := Option.map_eq_some_iff.mp hstep
    obtain ⟨r₀, hr₀, -, -⟩ := NodeAction.stepReplica_some hr
    have hid : r₀.replicaId = id := Keyed.key_of_get hr₀
    exact hdown (DataDir.write_keeps h.sound (hid ▸ ((h.manager m hm).2 id r₀ hr₀).holds)).1
  · cases hstep

/-- **Separation.** From an empty node on, in every run of calls, failures, crashes and running replicas whose steps
meet the two conditions, a replica runs with no data but its own, and the deletion of a replica leaves the directories
of all others in the manager as they are. -/
theorem replica_data_separate {options : ReplicaRuntimeOptions} {codec : SnapshotCodec} {n : StorageNode}
    (hrun : Machine.GuardedRun (NodeAction.step options codec) (fun n a => a.Separate n) {} n) :
    (∀ m id r, n.manager = some m → m.replicaMap.get id = some r → r.localState = .running →
      ∀ w ∈ r.loadedFrom, w = id) ∧
    ∀ y removal n', (NodeAction.delete y removal).Separate n →
      (NodeAction.delete y removal).step options codec n = some n' →
      ∀ m x r, n.manager = some m → m.replicaMap.get x = some r → x ≠ y →
        n'.disk.get (replicaDir x) = n.disk.get (replicaDir x) := by
  have hstart : StorageNode.Separated {} := ⟨fun k d hd => (by cases hd), fun m hm => (by cases hm)⟩
  have hsep : n.Separated := hrun.invariant StorageNode.Separated.step hstart
  refine ⟨fun m id r hm hr _ w hw => ?_, fun y removal n' hguard hstep m x r hm hr hne => ?_⟩
  · have hid : r.replicaId = id := Keyed.key_of_get hr
    exact (((hsep.manager m hm).2 id r hr).loaded w hw).trans hid
  · have hshard := hguard m hm x r hr hne
    simp only [NodeAction.step, hm] at hstep
    obtain rfl := Option.some.inj hstep
    exact DataDir.get_deleteReplicaData (mt replicaDir_eq_iff.mp (Ne.symm hshard)) removal

/-- Two replicas of one shard. -/
def firstReplica : ReplicaID := { tableId := 1, shardIndex := 0, replicaSeq := 1 }

def secondReplica : ReplicaID := { tableId := 1, shardIndex := 0, replicaSeq := 2 }

def soleMember (id : ReplicaID) : ReplicaInitParam :=
  { replicaId := id, members := [{ nodeId := [110], replicaId := id }] }

def nodeOptions : ReplicaRuntimeOptions := { dataDir := "data", raftDoSnapshotLimit := 100 }

/-- A replica is added, is elected and is recovered by the next process, from its own data. -/
theorem own_data_recovered : ∃ n,
    Machine.GuardedRun (NodeAction.step nodeOptions (sampleCodec {})) (fun n a => a.Separate n) {} n ∧
    ∃ m r, n.manager = some m ∧ m.replicaMap.get firstReplica = some r ∧ r.localState = .running ∧
      firstReplica ∈ r.loadedFrom ∧ ∀ w ∈ r.loadedFrom, w = firstReplica := by
  have hadd : (NodeAction.add (soleMember firstReplica) {}).Separate { manager := some {} } := by
    intro m _ _ w hw
    cases hw
  have hrun := (((((Relation.ReflTransGen.single (r := fun n n' => ∃ a : NodeAction, a.Separate n ∧
    a.step nodeOptions (sampleCodec {}) n = some n') (a := {}) ⟨.start, trivial, rfl⟩).tail ⟨.add _ {}, hadd, rfl⟩).tail
    ⟨.run firstReplica (.event .tick), trivial, rfl⟩).tail ⟨.crash, trivial, rfl⟩).tail
    ⟨.start, trivial, rfl⟩).tail ⟨.recover fun _ => {}, trivial, rfl⟩
  refine ⟨_, hrun, _, _, rfl, rfl, rfl, by decide, ?_⟩
  exact (replica_data_separate hrun).1 _ _ _ rfl rfl rfl

/-- The first replica is elected; its removal is cut short behind the meta file; the second replica is added, and
the process restarts. -/
def inheritedRun : List NodeAction :=
  [.start, .add (soleMember firstReplica) {}, .run firstReplica (.event .tick),
    .delete firstReplica (.interrupted (fun f => f ≠ .replicaMeta) "interrupted"), .crash, .start,
    .recover fun _ => {}, .add (soleMember secondReplica) {}, .crash, .start, .recover fun _ => {}]

/-- The second replica is there and has written its files. -/
def soleReplica : List NodeAction :=
  [.start, .add (soleMember secondReplica) {}, .run secondReplica (.event .tick)]

/-- Without the conditions: a replica runs with the log and the term of another one, and a deletion removes the files
of a replica that runs. -/
theorem shard_shares_directory :
    (∃ n m r, Machine.run (NodeAction.step nodeOptions (sampleCodec {})) inheritedRun {} = some n ∧
      n.manager = some m ∧ m.replicaMap.get secondReplica = some r ∧ r.localState = .running ∧
      firstReplica ∈ r.loadedFrom ∧ r.loop.state.core.election.currentTerm = 1 ∧
      r.loop.state.core.raftLog.lastLogIndex = 1) ∧
    ∃ n m r n', Machine.run (NodeAction.step nodeOptions (sampleCodec {})) soleReplica {} = some n ∧
      n.manager = some m ∧ m.replicaMap.get secondReplica = some r ∧ r.localState = .running ∧
      (n.disk.get (replicaDir secondReplica)).isSome ∧
      (NodeAction.delete firstReplica .complete).step nodeOptions (sampleCodec {}) n = some n' ∧
      n'.disk.get (replicaDir secondReplica) = none := by
  refine ⟨⟨_, _, _, rfl, rfl, rfl, rfl, ?_, rfl, rfl⟩, ⟨_, _, _, _, rfl, rfl, rfl, rfl, rfl, rfl, rfl⟩⟩
  decide

end AdvisKV
