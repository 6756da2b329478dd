import AdvisKV.Meta.Observations
import AdvisKV.Meta.Server

/-!
# AdvisKV — what the services write

Every transaction of Meta is a sequence of writes, and each of them is made for a reason that its transaction
has checked: a table is put under a new id and a free name, or it takes the next step of its life; a record
moves on in its phase, or is deleted after it was DELETED; a group appears for a shard of a table that is
there, and disappears after its records. `Op.Fits` lists these reasons once. What follows from them for whole
transactions is proved here for any sequence of such writes.

Main results:

* `Op.getTable_run` and its like — what an operation leaves under a key.
* `Catalog` with `Fits.catalog` — names, homes and groups of tables after every single write.
* `Since` with `Writes.since` — how the data of a transaction relates to the data it started from.
-/

namespace AdvisKV.Meta

/-! ## Reading after an operation -/

namespace MetaStoreTxn

namespace Op

/-- Some operations do nothing at times; what they leave alone can be read after either branch. -/
theorem read_ite {c : Prop} [Decidable c] {a b : MetaStoreTxn} {β : Type} {x : β} (read : MetaStoreTxn → β)
    (ha : read a = x) (hb : read b = x) : read (if c then a else b) = x := by
  split
  · exact ha
  · exact hb

variable (op : Op) (t : MetaStoreTxn)

/-- What an operation leaves under the id of a database; below, the same for the other tables. -/
theorem getDatabase_run (id : Int) : (op.run t).getDatabase id = match op with
    | .putDatabase db => if db.dbId = id then some db else t.getDatabase id
    | .deleteDatabase dbId => if dbId = id then none else t.getDatabase id
    | _ => t.getDatabase id := by
  cases op with
  | putDatabase db => exact Keyed.get_put _ _ _
  | deleteDatabase dbId =>
    simp only [run, MetaStoreTxn.deleteDatabase]
    split
    · next hnone => exact Keyed.get_of_isNone hnone _
    · exact Keyed.get_erase _ _ _
  | deleteTable | putReplicas | deleteReplica | deleteReplicaGroup | deleteShardRoute =>
    exact read_ite (·.getDatabase id) rfl rfl
  | _ => rfl

theorem getTable_run (id : Int) : (op.run t).getTable id = match op with
    | .putTable table => if table.tableId = id then some table else t.getTable id
    | .deleteTable tableId => if tableId = id then none else t.getTable id
    | _ => t.getTable id := by
  cases op with
  | putTable table => exact Keyed.get_put _ _ _
  | deleteTable tableId =>
    simp only [run, MetaStoreTxn.deleteTable]
    split
    · next hnone => exact Keyed.get_of_isNone hnone _
    · exact Keyed.get_erase _ _ _
  | deleteDatabase | putReplicas | deleteReplica | deleteReplicaGroup | deleteShardRoute =>
    exact read_ite (·.getTable id) rfl rfl
  | _ => rfl

theorem getReplicaGroup_run (shard : ShardID) : (op.run t).getReplicaGroup shard = match op with
    | .putReplicaGroup group => if group.shardId = shard then some group else t.getReplicaGroup shard
    | .deleteReplicaGroup id => if id = shard then none else t.getReplicaGroup shard
    | _ => t.getReplicaGroup shard := by
  cases op with
  | putReplicaGroup group => exact Keyed.get_put _ _ _
  | deleteReplicaGroup id =>
    simp only [run, MetaStoreTxn.deleteReplicaGroup]
    split
    · next hnone => exact Keyed.get_of_isNone hnone _
    · exact Keyed.get_erase _ _ _
  | deleteDatabase | deleteTable | putReplicas | deleteReplica | deleteShardRoute =>
    exact read_ite (·.getReplicaGroup shard) rfl rfl
  | _ => rfl

/-- `putReplicas` writes records with distinct ids. -/
theorem getReplica_run (id : ReplicaID)
    (hdistinct : ∀ replicas, op = .putReplicas replicas → (replicas.map Replica.replicaId).Nodup) :
    (op.run t).getReplica id = match op with
    | .putReplica r => if r.replicaId = id then some r else t.getReplica id
    | .putReplicas replicas =>
      ((replicas.find? fun r => r.replicaId = id).or (t.getReplica id))
    | .deleteReplica id' => if id' = id then none else t.getReplica id
    | _ => t.getReplica id := by
  cases op with
  | putReplica r => exact Keyed.get_put _ _ _
  | putReplicas replicas =>
    simp only [run, MetaStoreTxn.putReplicas]
    split
    · next hempty =>
      rw [hempty]
      rfl
    · exact Keyed.get_foldl_put (hdistinct replicas rfl) _ _
  | deleteReplica id' =>
    simp only [run, MetaStoreTxn.deleteReplica]
    split
    · next hnone => exact Keyed.get_of_isNone hnone _
    · exact Keyed.get_erase _ _ _
  | deleteDatabase | deleteTable | deleteReplicaGroup | deleteShardRoute =>
    exact read_ite (·.getReplica id) rfl rfl
  | _ => rfl

/-- Deleting a record deletes what was observed, also when there is no record. -/
theorem getReplicaObserved_run (id : ReplicaID) : (op.run t).getReplicaObserved id = match op with
    | .putReplicaObserved id' o => if id' = id then some o else t.getReplicaObserved id
    | .deleteReplica id' => if id' = id then none else t.getReplicaObserved id
    | _ => t.getReplicaObserved id := by
  cases op with
  | putReplicaObserved id' o => exact getReplicaObserved_putReplicaObserved _ _ _ _
  | deleteReplica id' =>
    have herase : ((t.runtime.replicaObserveds.erase id').get id).map Prod.snd =
        if id' = id then none else t.getReplicaObserved id := by
      rw [Keyed.get_erase]
      split <;> rfl
    simp only [run, MetaStoreTxn.deleteReplica]
    split <;> exact herase
  | deleteDatabase | deleteTable | putReplicas | deleteReplicaGroup | deleteShardRoute =>
    exact read_ite (·.getReplicaObserved id) rfl rfl
  | _ => rfl

/-- Nodes are never deleted. -/
theorem getNode_run (id : NodeID) : (op.run t).getNode id = match op with
    | .putNode node => if node.id = id then some node else t.getNode id
    | _ => t.getNode id := by
  cases op with
  | putNode node => exact Keyed.get_put _ _ _
  | deleteDatabase | deleteTable | putReplicas | deleteReplica | deleteReplicaGroup | deleteShardRoute =>
    exact read_ite (·.getNode id) rfl rfl
  | _ => rfl

theorem dbIdAllocator_run : (op.run t).durable.dbIdAllocator = match op with
    | .allocateDbId => t.durable.dbIdAllocator + 1
    | _ => t.durable.dbIdAllocator := by
  cases op with
  | deleteDatabase | deleteTable | putReplicas | deleteReplica | deleteReplicaGroup | deleteShardRoute =>
    exact read_ite (·.durable.dbIdAllocator) rfl rfl
  | _ => rfl

theorem tableIdAllocator_run : (op.run t).durable.tableIdAllocator = match op with
    | .allocateTableId => t.durable.tableIdAllocator + 1
    | _ => t.durable.tableIdAllocator := by
  cases op with
  | deleteDatabase | deleteTable | putReplicas | deleteReplica | deleteReplicaGroup | deleteShardRoute =>
    exact read_ite (·.durable.tableIdAllocator) rfl rfl
  | _ => rfl

end Op

end MetaStoreTxn

/-! ## Lives -/

/-- One step in the life of a table, or none. -/
inductive TablePhase.Next : TablePhase → TablePhase → Prop
  | stay (phase : TablePhase) : Next phase phase
  | created : Next .creating .ready
  | resize : Next .ready .resizing
  | resized : Next .resizing .ready
  | drop {phase : TablePhase} (h : phase.isAbsent = false) : Next phase .deleting
  | gone : Next .deleting .deleted

/-- The part of its life a replica is in: living, DELETING, DELETED. -/
def ReplicaPhase.age : ReplicaPhase → Nat
  | .deleting => 1
  | .deleted => 2
  | _ => 0

/-- The replica was observed to be gone from its node. -/
def MetaStoreTxn.noExist (t : MetaStoreTxn) (id : ReplicaID) : Bool :=
  (t.getReplicaObserved id).any ReplicaObserved.noExist

/-! ## Reasons -/

/-- A table under a new id, with a free name in a database that is there. -/
structure NewTable (t₀ t : MetaStoreTxn) (table : Table) : Prop where
  given : t₀.durable.tableIdAllocator ≤ table.tableId ∧ table.tableId < t.durable.tableIdAllocator
  fresh : t.getTable table.tableId = none
  phase : table.state.phase = .creating
  home : ∃ db, t.getDatabase table.spec.dbId = some db ∧ db.name = table.spec.dbName
  free : ∀ id other, t.getTable id = some other → other.state.phase ≠ .deleted →
    other.nameKey ≠ table.nameKey

/-- A table that takes a step of its life. It is DELETED only when nothing of it is left. -/
structure NextTable (t₀ t : MetaStoreTxn) (table : Table) : Prop where
  old : ∃ old, t₀.getTable table.tableId = some old ∧ t.getTable table.tableId = some old ∧
    old.state.phase ≠ .deleted ∧ old.state.phase.Next table.state.phase ∧
    table.nameKey = old.nameKey ∧ table.spec.dbId = old.spec.dbId ∧
    table.spec.shardRanges = old.spec.shardRanges
  gone : table.state.phase = .deleted → ∀ r ∈ table.spec.shardRanges,
    t.getReplicaGroup ⟨table.tableId, r.shardIndex⟩ = none

/-- **The reasons for a write** in a transaction that started with `t₀`, when the nodes of the replicas
`omitted` have just reported without them. -/
def MetaStoreTxn.Op.Fits (t₀ : MetaStoreTxn) (omitted : ReplicaID → Prop) :
    MetaStoreTxn.Op → MetaStoreTxn → Prop
  | .putDatabase db, t =>
    t₀.durable.dbIdAllocator ≤ db.dbId ∧ db.dbId < t.durable.dbIdAllocator ∧
      t.getDatabase db.dbId = none ∧ ∀ id other, t.getDatabase id = some other → other.name ≠ db.name
  | .deleteDatabase dbId, t => ∀ id table, t.getTable id = some table → table.state.phase ≠ .deleted →
      table.spec.dbId ≠ dbId
  | .putTable table, t => NewTable t₀ t table ∨ NextTable t₀ t table
  | .deleteTable _, _ => False
  | .putReplica r, t => ∃ old, t₀.getReplica r.replicaId = some old ∧ t.getReplica r.replicaId = some old ∧
      r.spec = old.spec ∧ old.state.phase.age ≤ r.state.phase.age ∧
      (r.state.phase = .deleted → old.state.phase = .deleting ∧ t₀.noExist r.replicaId = true)
  | .putReplicas replicas, t => (replicas.map Replica.replicaId).Nodup ∧ ∀ r ∈ replicas,
      r.state.phase = .creating ∧ t₀.getReplica r.replicaId = none ∧ ∃ group,
        t₀.getReplicaGroup (shardOf r.replicaId) = some group ∧
        t.getReplicaGroup (shardOf r.replicaId) = some group ∧ group.seqAllocator ≤ r.replicaId.replicaSeq
  | .deleteReplica id, _ => ∃ old, t₀.getReplica id = some old ∧ old.state.phase = .deleted
  | .putReplicaGroup group, t =>
      (∃ old, t.getReplicaGroup group.shardId = some old) ∨
      ∃ table, t.getTable group.shardId.tableId = some table ∧ table.state.phase.isAbsent = false ∧
        group.shardId.shardIndex ∈ table.spec.shardRanges.map ShardRange.shardIndex
  | .deleteReplicaGroup shard, t => ∀ id, shardOf id = shard → t.getReplica id = none
  | .putReplicaObserved id o, t => o.noExist = true → omitted id ∨ t.noExist id = true
  | .putNode node, t => node.id ≠ [] ∨ t.getNode node.id ≠ none
  | _, _ => True

/-- A transaction that writes for these reasons only. -/
abbrev Writes (t₀ : MetaStoreTxn) (omitted : ReplicaID → Prop) : MetaStoreTxn → MetaStoreTxn → Prop :=
  MetaStoreTxn.Runs (MetaStoreTxn.Op.Fits t₀ omitted)

/-- The operation leaves groups, records and what was observed of replicas alone. -/
def MetaStoreTxn.Op.elsewhere : MetaStoreTxn.Op → Bool
  | .putDatabase _ | .deleteDatabase _ | .allocateDbId | .allocateTableId | .putTable _ | .putNode _ => true
  | .putShardRoute _ | .deleteShardRoute _ => true
  | _ => false

/-- A transaction that writes for these reasons, and only elsewhere. -/
abbrev Edits (t₀ : MetaStoreTxn) : MetaStoreTxn → MetaStoreTxn → Prop :=
  MetaStoreTxn.Runs fun op t => op.Fits t₀ (fun _ => False) t ∧ op.elsewhere = true

/-! ## The catalog -/

/-- **The catalog is in order**: ids were handed out, names belong to one database and to one table that is not
DELETED, such a table has its database, a group belongs to a shard of such a table, and a record to a
group. -/
structure Catalog (t : MetaStoreTxn) : Prop where
  allocated : t.durable.Allocated
  dbNames : ∀ id id' db db', t.getDatabase id = some db → t.getDatabase id' = some db' →
    db.name = db'.name → id = id'
  tableNames : ∀ id id' table table', t.getTable id = some table → t.getTable id' = some table' →
    table.state.phase ≠ .deleted → table'.state.phase ≠ .deleted → table.nameKey = table'.nameKey → id = id'
  homes : ∀ id table, t.getTable id = some table → table.state.phase ≠ .deleted →
    ∃ db, t.getDatabase table.spec.dbId = some db ∧ db.name = table.spec.dbName
  grouped : ∀ shard group, t.getReplicaGroup shard = some group → ∃ table,
    t.getTable shard.tableId = some table ∧ table.state.phase ≠ .deleted ∧
    shard.shardIndex ∈ table.spec.shardRanges.map ShardRange.shardIndex
  recorded : ∀ id r, t.getReplica id = some r → ∃ group, t.getReplicaGroup (shardOf id) = some group

namespace Catalog

open MetaStoreTxn

variable {t₀ t : MetaStoreTxn} {omitted : ReplicaID → Prop}

variable {table : Table} {op : Op} {t' : MetaStoreTxn}

theorem tableId_of_getTable {t : MetaStoreTxn} {id : Int} (h : t.getTable id = some table) :
    table.tableId = id := Keyed.key_of_get h

/-- A write uses ids that were handed out. -/
theorem allocates (h : Catalog t) (hop : op.Fits t₀ omitted t) : op.Allocated t := by
  cases op with
  | putDatabase db => exact hop.2.1
  | putTable table =>
    rcases hop with hnew | hnext
    · exact hnew.given.2
    · obtain ⟨old, -, hget, -⟩ := hnext.old
      have hlt := h.allocated.tables old (Keyed.mem_of_get hget)
      rwa [tableId_of_getTable hget] at hlt
  | _ => trivial

/-- Writes that leave databases and tables alone. -/
theorem of_groups (h : Catalog t) (hop : op.Fits t₀ omitted t)
    (hdbs : ∀ id, (op.run t).getDatabase id = t.getDatabase id)
    (htables : ∀ id, (op.run t).getTable id = t.getTable id)
    (hgroups : ∀ shard group, (op.run t).getReplicaGroup shard = some group → ∃ table,
      t.getTable shard.tableId = some table ∧ table.state.phase ≠ .deleted ∧
      shard.shardIndex ∈ table.spec.shardRanges.map ShardRange.shardIndex)
    (hrecords : ∀ id r, (op.run t).getReplica id = some r → ∃ group,
      (op.run t).getReplicaGroup (shardOf id) = some group) : Catalog (op.run t) where
  allocated := op.run_allocated h.allocated (h.allocates hop)
  dbNames := by
    simp only [hdbs]
    exact h.dbNames
  tableNames := by
    simp only [htables]
    exact h.tableNames
  homes := by
    simp only [hdbs, htables]
    exact h.homes
  grouped := by
    simp only [htables]
    exact hgroups
  recorded := hrecords

/-- Writes that leave groups and records alone. -/
theorem of_tables (h : Catalog t) (hop : op.Fits t₀ omitted t)
    (hgroups : ∀ shard, (op.run t).getReplicaGroup shard = t.getReplicaGroup shard)
    (hrecords : ∀ id, (op.run t).getReplica id = t.getReplica id)
    (hdbNames : ∀ id id' db db', (op.run t).getDatabase id = some db → (op.run t).getDatabase id' = some db' →
      db.name = db'.name → id = id')
    (htableNames : ∀ id id' table table', (op.run t).getTable id = some table → (op.run t).getTable id' = some table' →
      table.state.phase ≠ .deleted → table'.state.phase ≠ .deleted → table.nameKey = table'.nameKey →
      id = id') (hhomes : ∀ id table, (op.run t).getTable id = some table → table.state.phase ≠ .deleted →
      ∃ db, (op.run t).getDatabase table.spec.dbId = some db ∧ db.name = table.spec.dbName)
    (hkept : ∀ shard group table, t.getReplicaGroup shard = some group →
      t.getTable shard.tableId = some table → table.state.phase ≠ .deleted →
      shard.shardIndex ∈ table.spec.shardRanges.map ShardRange.shardIndex → ∃ table',
      (op.run t).getTable shard.tableId = some table' ∧ table'.state.phase ≠ .deleted ∧
      shard.shardIndex ∈ table'.spec.shardRanges.map ShardRange.shardIndex) : Catalog (op.run t) where
  allocated := op.run_allocated h.allocated (h.allocates hop)
  dbNames := hdbNames
  tableNames := htableNames
  homes := hhomes
  grouped := by
    intro shard group hgroup
    rw [hgroups] at hgroup
    obtain ⟨table, htable, hphase, hrange⟩ := h.grouped shard group hgroup
    exact hkept shard group table hgroup htable hphase hrange
  recorded := by
    simp only [hgroups, hrecords]
    exact h.recorded

/-- The name was free, and the id that of no table's home. -/
theorem putDatabase (h : Catalog t) {db : Database} (hop : (Op.putDatabase db).Fits t₀ omitted t) :
    Catalog ((Op.putDatabase db).run t) := by
  have hget := (Op.putDatabase db).getDatabase_run t
  simp only at hget
  refine h.of_tables hop (fun _ => rfl)
    (fun _ => rfl) ?_ h.tableNames ?_ fun _ _ table _ htable hphase hrange => ⟨table, htable, hphase, hrange⟩
  · intro id id' a b ha hb hname
    rw [hget] at ha hb
    split at ha <;> split at hb
    · next h₁ h₂ => exact h₁.symm.trans h₂
    · cases ha
      exact absurd hname.symm (hop.2.2.2 _ _ hb)
    · cases hb
      exact absurd hname (hop.2.2.2 _ _ ha)
    · exact h.dbNames _ _ _ _ ha hb hname
  · intro id table htable hphase
    obtain ⟨home, hhome, hname⟩ := h.homes id table htable hphase
    refine ⟨home, ?_, hname⟩
    rw [hget, if_neg]
    · exact hhome
    · intro heq
      rw [← heq, hop.2.2.1] at hhome
      cases hhome

/-- The homes of live tables stay. -/
theorem deleteDatabase (h : Catalog t) {dbId : Int} (hop : (Op.deleteDatabase dbId).Fits t₀ omitted t) :
    Catalog ((Op.deleteDatabase dbId).run t) := by
  have hget := (Op.deleteDatabase dbId).getDatabase_run t
  simp only at hget
  have htables := (Op.deleteDatabase dbId).getTable_run t
  simp only at htables
  refine h.of_tables hop
    ((Op.deleteDatabase dbId).getReplicaGroup_run t) (fun id => (Op.deleteDatabase dbId).getReplica_run t id
      nofun) ?_ ?_ ?_ ?_
  · intro id id' a b ha hb hname
    rw [hget] at ha hb
    split at ha <;> split at hb
    · cases ha
    · cases ha
    · cases hb
    · exact h.dbNames _ _ _ _ ha hb hname
  · simp only [htables]
    exact h.tableNames
  · intro id table htable hphase
    -- the database of a live table is another one
    rw [htables] at htable
    obtain ⟨home, hhome, hname⟩ := h.homes id table htable hphase
    exact ⟨home, by rw [hget, if_neg (hop id table htable hphase).symm, hhome], hname⟩
  · simp only [htables]
    exact fun _ _ table _ htable hphase hrange => ⟨table, htable, hphase, hrange⟩

/-- A new table has a name that no live table has. -/
theorem putNewTable (h : Catalog t) (hnew : NewTable t₀ t table) :
    Catalog ((Op.putTable table).run t) := by
  have hget := (Op.putTable table).getTable_run t
  simp only at hget
  have hop : (Op.putTable table).Fits t₀ (fun _ => False) t := Or.inl hnew
  refine h.of_tables hop (fun _ => rfl)
    (fun _ => rfl) h.dbNames ?_ ?_ ?_
  · intro id id' a b ha hb hlive hlive' hname
    rw [hget] at ha hb
    split at ha <;> split at hb
    · next h₁ h₂ => exact h₁.symm.trans h₂
    · cases ha
      exact absurd hname.symm (hnew.free _ _ hb hlive')
    · cases hb
      exact absurd hname (hnew.free _ _ ha hlive)
    · exact h.tableNames _ _ _ _ ha hb hlive hlive' hname
  · intro id a ha hlive
    rw [hget] at ha
    split at ha
    · cases ha
      exact hnew.home
    · exact h.homes id a ha hlive
  · intro shard group a _ ha hlive hrange
    refine ⟨a, ?_, hlive, hrange⟩
    rw [hget, if_neg]
    · exact ha
    · intro heq
      rw [← heq, hnew.fresh] at ha
      cases ha

/-- A table that moves on keeps its id, its name and its shards. -/
theorem putNextTable (h : Catalog t) (hnext : NextTable t₀ t table) :
    Catalog ((Op.putTable table).run t) := by
  have hget := (Op.putTable table).getTable_run t
  simp only at hget
  have hop : (Op.putTable table).Fits t₀ (fun _ => False) t := Or.inr hnext
  obtain ⟨old, -, hold, hlive₀, -, hkey, hdb, hranges⟩ := hnext.old
  have hhome := h.homes _ old hold hlive₀
  refine h.of_tables hop (fun _ => rfl)
    (fun _ => rfl) h.dbNames ?_ ?_ ?_
  · -- the table keeps its name, and its old record was not DELETED
    intro id id' a b ha hb hlive hlive' hname
    rw [hget] at ha hb
    split at ha <;> split at hb
    · next h₁ h₂ => exact h₁.symm.trans h₂
    · next h₁ _ =>
      cases ha
      rw [hkey] at hname
      exact h₁ ▸ h.tableNames _ _ _ _ hold hb hlive₀ hlive' hname
    · next _ h₂ =>
      cases hb
      rw [hkey] at hname
      exact h₂ ▸ h.tableNames _ _ _ _ ha hold hlive hlive₀ hname
    · exact h.tableNames _ _ _ _ ha hb hlive hlive' hname
  · intro id a ha hlive
    rw [hget] at ha
    split at ha
    · cases ha
      rw [hdb, show table.spec.dbName = old.spec.dbName from congrArg Prod.fst hkey]
      exact hhome
    · exact h.homes id a ha hlive
  · intro shard group a hgroup ha hlive hrange
    rw [hget]
    split
    · next heq =>
      rw [← heq, hold] at ha
      cases ha
      refine ⟨table, rfl, ?_, by rw [hranges]; exact hrange⟩
      intro hgone
      -- a DELETED table has no group for any of its shards
      obtain ⟨r, hr, hindex⟩ := List.mem_map.mp hrange
      have hnone := hnext.gone hgone r (by rw [hranges]; exact hr)
      rw [hindex, heq, hgroup] at hnone
      cases hnone
    · exact ⟨a, ha, hlive, hrange⟩

/-- The group was there, or its table is not being dropped. -/
theorem putReplicaGroup (h : Catalog t) {group : ReplicaGroup}
    (hop : (Op.putReplicaGroup group).Fits t₀ omitted t) : Catalog ((Op.putReplicaGroup group).run t) := by
  have hget := (Op.putReplicaGroup group).getReplicaGroup_run t
  simp only at hget
  refine h.of_groups hop (fun _ => rfl)
    (fun _ => rfl) ?_ ?_
  · intro shard g hg
    rw [hget] at hg
    split at hg
    · next heq =>
      rw [← heq]
      rcases hop with ⟨old, hold⟩ | ⟨table, htable, hpresent, hrange⟩
      · exact h.grouped _ old hold
      · refine ⟨table, htable, ?_, hrange⟩
        intro hgone
        rw [hgone] at hpresent
        cases hpresent
    · exact h.grouped shard g hg
  · intro id r hr
    obtain ⟨g, hg⟩ := h.recorded id r hr
    rw [hget]
    split
    · exact ⟨group, rfl⟩
    · exact ⟨g, hg⟩

/-- No record is left without its group. -/
theorem deleteReplicaGroup (h : Catalog t) {shard : ShardID}
    (hop : (Op.deleteReplicaGroup shard).Fits t₀ omitted t) :
    Catalog ((Op.deleteReplicaGroup shard).run t) := by
  have hgroups := (Op.deleteReplicaGroup shard).getReplicaGroup_run t
  simp only at hgroups
  refine h.of_groups hop
    ((Op.deleteReplicaGroup shard).getDatabase_run t) ((Op.deleteReplicaGroup shard).getTable_run t) ?_ ?_
  · intro s g hg
    rw [hgroups] at hg
    split at hg
    · cases hg
    · exact h.grouped s g hg
  · intro id r hr
    rw [(Op.deleteReplicaGroup shard).getReplica_run t id nofun] at hr
    obtain ⟨g, hg⟩ := h.recorded id r hr
    refine ⟨g, ?_⟩
    rw [hgroups, if_neg]
    · exact hg
    · intro heq
      rw [hop id heq.symm] at hr
      cases hr

/-- Records change under groups that stay. -/
theorem of_records (h : Catalog t) (hop : op.Fits t₀ omitted t)
    (hdbs : ∀ id, (op.run t).getDatabase id = t.getDatabase id)
    (htables : ∀ id, (op.run t).getTable id = t.getTable id)
    (hgroups : ∀ shard, (op.run t).getReplicaGroup shard = t.getReplicaGroup shard)
    (hrecords : ∀ id r, (op.run t).getReplica id = some r → t.getReplica id = none →
      ∃ group, t.getReplicaGroup (shardOf id) = some group) : Catalog (op.run t) := by
  refine h.of_groups hop hdbs htables ?_ ?_
  · intro shard group hgroup
    rw [hgroups] at hgroup
    exact h.grouped shard group hgroup
  · intro id r hr
    rw [hgroups]
    rcases hold : t.getReplica id with _ | old
    · exact hrecords id r hr hold
    · exact h.recorded id old hold

/-- New records belong to a group of the transaction. -/
theorem putReplicas (h : Catalog t) {replicas : List Replica}
    (hop : (Op.putReplicas replicas).Fits t₀ omitted t) : Catalog ((Op.putReplicas replicas).run t) := by
  refine h.of_records hop ((Op.putReplicas replicas).getDatabase_run t)
    ((Op.putReplicas replicas).getTable_run t) ((Op.putReplicas replicas).getReplicaGroup_run t) ?_
  intro id r hr hnone
  have hget := (Op.putReplicas replicas).getReplica_run t id (by rintro _ ⟨⟩; exact hop.1)
  simp only at hget
  rw [hget, hnone, Option.or_none] at hr
  -- a record that was not there before is one of the list
  have hkey : r.replicaId = id := by simpa using List.find?_some hr
  obtain ⟨-, -, group, -, hgroup, -⟩ := hop.2 r (List.mem_of_find?_eq_some hr)
  rw [hkey] at hgroup
  exact ⟨group, hgroup⟩

/-- Only a record that was there is written back. -/
theorem putReplica (h : Catalog t) {r : Replica} (hop : (Op.putReplica r).Fits t₀ omitted t) :
    Catalog (t.putReplica r) := by
  refine h.of_records hop (fun _ => rfl) (fun _ => rfl) (fun _ => rfl) ?_
  intro id r' hr' hnone
  obtain ⟨old, -, hold, -⟩ := hop
  have hget := (Op.putReplica r).getReplica_run t id nofun
  simp only at hget
  rw [hget] at hr'
  split at hr'
  · next heq =>
    rw [heq, hnone] at hold
    cases hold
  · rw [hnone] at hr'
    cases hr'

theorem deleteReplica (h : Catalog t) {id : ReplicaID} (hop : (Op.deleteReplica id).Fits t₀ omitted t) :
    Catalog ((Op.deleteReplica id).run t) := by
  refine h.of_records hop ((Op.deleteReplica id).getDatabase_run t) ((Op.deleteReplica id).getTable_run t)
    ((Op.deleteReplica id).getReplicaGroup_run t) ?_
  intro id' r hr hnone
  have hget := (Op.deleteReplica id).getReplica_run t id' nofun
  simp only at hget
  rw [hget, hnone] at hr
  split at hr <;> cases hr

/-- **Every write** keeps the catalog in order. -/
theorem write (h : Catalog t) (hop : op.Fits t₀ omitted t) : Catalog (op.run t) := by
  cases op with
  | putDatabase db => exact h.putDatabase hop
  | deleteDatabase dbId => exact h.deleteDatabase hop
  | putTable table => exact hop.elim h.putNewTable h.putNextTable
  | deleteTable tableId => exact hop.elim
  | putReplica r => exact h.putReplica hop
  | putReplicas replicas => exact h.putReplicas hop
  | deleteReplica id => exact h.deleteReplica hop
  | putReplicaGroup group => exact h.putReplicaGroup hop
  | deleteReplicaGroup shard => exact h.deleteReplicaGroup hop
  | allocateDbId | allocateTableId | putNode | putReplicaObserved | putMembershipObserved | putShardRoute =>
    refine h.of_records hop (fun _ => rfl) (fun _ => rfl) (fun _ => rfl) ?_
    intro id r hr hnone
    exact absurd (hr.symm.trans hnone) (Option.some_ne_none r)
  | deleteShardRoute shard =>
    refine h.of_records hop ((Op.deleteShardRoute shard).getDatabase_run t)
      ((Op.deleteShardRoute shard).getTable_run t) ((Op.deleteShardRoute shard).getReplicaGroup_run t) ?_
    intro id r hr hnone
    rw [(Op.deleteShardRoute shard).getReplica_run t id nofun] at hr
    exact absurd (hr.symm.trans hnone) (Option.some_ne_none r)

/-- **Every transaction** keeps the catalog in order. -/
theorem writes (h : Catalog t) (hw : Writes t₀ omitted t t') : Catalog t' := by
  induction hw with
  | refl => exact h
  | tail _ hlast ih =>
    obtain ⟨op, hop, rfl⟩ := hlast
    exact ih.write hop

end Catalog

/-! ## Since the transaction started -/

/-- **What a transaction may have changed** since it started with `t₀`. -/
structure Since (t₀ : MetaStoreTxn) (omitted : ReplicaID → Prop) (t : MetaStoreTxn) : Prop where
  dbCounter : t₀.durable.dbIdAllocator ≤ t.durable.dbIdAllocator
  newDbs : ∀ id db, t₀.getDatabase id = none → t.getDatabase id = some db →
    t₀.durable.dbIdAllocator ≤ id
  tableCounter : t₀.durable.tableIdAllocator ≤ t.durable.tableIdAllocator
  tables : ∀ id table₀, t₀.getTable id = some table₀ → ∃ table, t.getTable id = some table ∧
    table₀.state.phase.Next table.state.phase
  newTables : ∀ id table, t₀.getTable id = none → t.getTable id = some table →
    t₀.durable.tableIdAllocator ≤ id ∧ table.state.phase = .creating
  records : ∀ id r₀, t₀.getReplica id = some r₀ →
    (∃ r, t.getReplica id = some r ∧ r.spec = r₀.spec ∧ r₀.state.phase.age ≤ r.state.phase.age ∧
      (r.state.phase = .deleted → r₀.state.phase = .deleted ∨
        (r₀.state.phase = .deleting ∧ t₀.noExist id = true))) ∨
    (t.getReplica id = none ∧ r₀.state.phase = .deleted)
  newRecords : ∀ id r, t₀.getReplica id = none → t.getReplica id = some r →
    r.state.phase = .creating ∧ ∃ group, t₀.getReplicaGroup (shardOf id) = some group ∧
      group.seqAllocator ≤ id.replicaSeq
  gone : ∀ id, t.noExist id = true → omitted id ∨ t₀.noExist id = true

namespace Since

open MetaStoreTxn

variable {t₀ t : MetaStoreTxn} {omitted : ReplicaID → Prop} {op : Op}

/-- Nothing has changed yet. -/
theorem refl (t₀ : MetaStoreTxn) (omitted : ReplicaID → Prop) : Since t₀ omitted t₀ where
  dbCounter := le_rfl
  newDbs := fun _ _ hnone hsome => absurd (hsome.symm.trans hnone) (Option.some_ne_none _)
  tableCounter := le_rfl
  tables := fun _ table htable => ⟨table, htable, .stay _⟩
  newTables := fun _ _ hnone hsome => absurd (hsome.symm.trans hnone) (Option.some_ne_none _)
  records := fun _ r hr => Or.inl ⟨r, hr, rfl, le_rfl, Or.inl⟩
  newRecords := fun _ _ hnone hsome => absurd (hsome.symm.trans hnone) (Option.some_ne_none _)
  gone := fun _ h => Or.inr h

/-- A batch of records has no id twice. -/
theorem distinct_of_fits (hop : op.Fits t₀ omitted t) :
    ∀ replicas, op = .putReplicas replicas → (replicas.map Replica.replicaId).Nodup := by
  rintro replicas rfl
  exact hop.1

section

variable (h : Since t₀ omitted t)
include h

/-- Counters only go up. -/
theorem write_dbCounter :
    t₀.durable.dbIdAllocator ≤ (op.run t).durable.dbIdAllocator := by
  have hcounter := h.dbCounter
  rw [op.dbIdAllocator_run]
  split <;> omega

theorem write_tableCounter :
    t₀.durable.tableIdAllocator ≤ (op.run t).durable.tableIdAllocator := by
  have hcounter := h.tableCounter
  rw [op.tableIdAllocator_run]
  split <;> omega

variable (hop : op.Fits t₀ omitted t)
include hop

/-- A new database has an id that was not handed out before. -/
theorem write_newDbs (id : Int) (db : Database)
    (hnone : t₀.getDatabase id = none) (hdb : (op.run t).getDatabase id = some db) :
    t₀.durable.dbIdAllocator ≤ id := by
  rw [op.getDatabase_run] at hdb
  split at hdb
  · split at hdb
    · next heq => exact heq ▸ hop.1
    · exact h.newDbs id db hnone hdb
  · split at hdb
    · cases hdb
    · exact h.newDbs id db hnone hdb
  · exact h.newDbs id db hnone hdb

/-- A table takes one step at most in a transaction. -/
theorem write_tables (id : Int) (table₀ : Table)
    (h₀ : t₀.getTable id = some table₀) :
    ∃ table, (op.run t).getTable id = some table ∧ table₀.state.phase.Next table.state.phase := by
  obtain ⟨table, htable, hnext⟩ := h.tables id table₀ h₀
  rw [op.getTable_run]
  split
  · next table' =>
    split
    · next heq =>
      rcases hop with hnew | hold
      · rw [← heq, hnew.fresh] at htable
        cases htable
      · obtain ⟨old, hold₀, -, -, hstep, -⟩ := hold.old
        rw [heq, h₀] at hold₀
        cases hold₀
        exact ⟨table', rfl, hstep⟩
    · exact ⟨table, htable, hnext⟩
  · exact hop.elim
  · exact ⟨table, htable, hnext⟩

/-- A new table has a new id, and is not READY before the next transaction. -/
theorem write_newTables (id : Int) (table : Table)
    (hnone : t₀.getTable id = none) (htable : (op.run t).getTable id = some table) :
    t₀.durable.tableIdAllocator ≤ id ∧ table.state.phase = .creating := by
  rw [op.getTable_run] at htable
  split at htable
  · split at htable
    · next heq =>
      cases htable
      rcases hop with hnew | hold
      · exact ⟨heq ▸ hnew.given.1, hnew.phase⟩
      · obtain ⟨old, hold₀, -⟩ := hold.old
        rw [heq, hnone] at hold₀
        cases hold₀
    · exact h.newTables id table hnone htable
  · exact hop.elim
  · exact h.newTables id table hnone htable

/-- A record moves on from what it was at the start, or is deleted after it was DELETED there. -/
theorem write_records (id : ReplicaID) (r₀ : Replica)
    (h₀ : t₀.getReplica id = some r₀) :
    (∃ r, (op.run t).getReplica id = some r ∧ r.spec = r₀.spec ∧ r₀.state.phase.age ≤ r.state.phase.age ∧
      (r.state.phase = .deleted → r₀.state.phase = .deleted ∨
        (r₀.state.phase = .deleting ∧ t₀.noExist id = true))) ∨
    ((op.run t).getReplica id = none ∧ r₀.state.phase = .deleted) := by
  have hbefore := h.records id r₀ h₀
  rw [op.getReplica_run t id (distinct_of_fits hop)]
  split
  · next r _ =>
    split
    · next heq =>
      obtain ⟨old, hold₀, -, hspec, hage, hgone⟩ := hop
      rw [heq, h₀] at hold₀
      cases hold₀
      exact Or.inl ⟨r, rfl, hspec, hage, fun hphase => Or.inr (heq ▸ hgone hphase)⟩
    · exact hbefore
  · next replicas _ =>
    -- new records have new ids
    have hother : (replicas.find? fun r => r.replicaId = id) = none := by
      rw [List.find?_eq_none]
      intro r hr hkey
      have hnone := (hop.2 r hr).2.1
      rw [of_decide_eq_true hkey, h₀] at hnone
      cases hnone
    rw [hother, Option.none_or]
    exact hbefore
  · split
    · next heq =>
      obtain ⟨old, hold₀, hgone⟩ := hop
      rw [heq, h₀] at hold₀
      cases hold₀
      exact Or.inr ⟨rfl, hgone⟩
    · exact hbefore
  · exact hbefore

/-- A new record has a number that its group had not given away. -/
theorem write_newRecords (id : ReplicaID) (r : Replica)
    (hnone : t₀.getReplica id = none) (hr : (op.run t).getReplica id = some r) :
    r.state.phase = .creating ∧ ∃ group, t₀.getReplicaGroup (shardOf id) = some group ∧
      group.seqAllocator ≤ id.replicaSeq := by
  rw [op.getReplica_run t id (distinct_of_fits hop)] at hr
  split at hr
  · split at hr
    · next heq =>
      obtain ⟨old, hold₀, -⟩ := hop
      rw [heq, hnone] at hold₀
      cases hold₀
    · exact h.newRecords id r hnone hr
  · next replicas _ =>
    rcases hfind : replicas.find? fun r => r.replicaId = id with _ | x
    · rw [hfind, Option.none_or] at hr
      exact h.newRecords id r hnone hr
    · rw [hfind, Option.some_or] at hr
      cases hr
      have hkey : r.replicaId = id := by simpa using List.find?_some hfind
      obtain ⟨hphase, -, group, hgroup, -, hle⟩ := hop.2 r (List.mem_of_find?_eq_some hfind)
      rw [hkey] at hgroup hle
      exact ⟨hphase, group, hgroup, hle⟩
  · split at hr
    · cases hr
    · exact h.newRecords id r hnone hr
  · exact h.newRecords id r hnone hr

/-- Only an omission makes a replica gone. -/
theorem write_gone (id : ReplicaID)
    (hgone : (op.run t).noExist id = true) : omitted id ∨ t₀.noExist id = true := by
  rw [MetaStoreTxn.noExist, op.getReplicaObserved_run] at hgone
  split at hgone
  · split at hgone
    · next heq =>
      rcases heq ▸ hop hgone with homitted | hold
      · exact Or.inl homitted
      · exact h.gone id hold
    · exact h.gone id hgone
  · split at hgone
    · cases hgone
    · exact h.gone id hgone
  · exact h.gone id hgone

theorem write : Since t₀ omitted (op.run t) where
  dbCounter := h.write_dbCounter
  newDbs := h.write_newDbs hop
  tableCounter := h.write_tableCounter
  tables := h.write_tables hop
  newTables := h.write_newTables hop
  records := h.write_records hop
  newRecords := h.write_newRecords hop
  gone := h.write_gone hop

end

end Since

variable {t₀ : MetaStoreTxn} {omitted : ReplicaID → Prop}

/-- **A whole transaction.** -/
theorem Writes.since {t : MetaStoreTxn} (h : Writes t₀ omitted t₀ t) :
    Since t₀ omitted t := by
  induction h with
  | refl => exact .refl t₀ omitted
  | tail _ hlast ih =>
    obtain ⟨op, hop, rfl⟩ := hlast
    exact ih.write hop

/-- **Nodes have names.** -/
theorem Writes.named {t t' : MetaStoreTxn} (h : Writes t₀ omitted t t') (ht : t.getNode [] = none) :
    t'.getNode [] = none := by
  induction h with
  | refl => exact ht
  | tail _ hlast ih =>
    obtain ⟨op, hop, rfl⟩ := hlast
    rw [op.getNode_run]
    split
    · next node =>
      refine (if_neg fun hid => ?_).trans ih
      rcases hop with hne | hknown
      · exact hne hid
      · exact hknown (hid ▸ ih)
    · exact ih

end AdvisKV.Meta
