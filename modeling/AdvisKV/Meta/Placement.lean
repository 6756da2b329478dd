import AdvisKV.Lib.Greedy
import AdvisKV.Meta.Ddl

/-!
# AdvisKV — placing the replicas of a table

`DefaultNodeSelector` picks the nodes of all shards of a table, one shard after the other and one node at a
time: from the data centre with the fewest picks of the shard, there the node with the fewest replicas, and
among those the smallest id. The picks of a data centre are counted for one shard, while the replicas of a node
are counted on through the request.

Main results:

* `Picks.step_spec`, `selectShard_spec` — one pick, and the picks of one shard.
* `selectShards_spec` — all shards.
* `placement_balanced` — what a request gets.
-/

namespace AdvisKV.Meta

/-! ## Requests -/

structure PlaceNodesParam where
  resourcePool : Bytes := []
  shardCount : Int32 := 0
  replicaCount : Int32 := 0
  excludedNodeIds : List NodeID := []
deriving DecidableEq

def PlaceNodesParam.validate (p : PlaceNodesParam) : Status :=
  checkCondition (p.resourcePool != []) "resource_pool should not empty" <|
  checkCondition (decide (0 < p.shardCount)) "shard_count should be greater than 0" <|
  checkCondition (decide (0 < p.replicaCount)) "replica_count should be greater than 0" .OK

theorem PlaceNodesParam.shardCount_pos (p : PlaceNodesParam) (hvalid : p.validate.fail = false) :
    0 < p.shardCount.toInt := by
  by_contra hneg
  have hcheck : decide (0 < p.shardCount) = false := decide_eq_false (Int32.lt_iff_toInt_lt.not.mpr hneg)
  simp only [validate, hcheck, checkCondition, Bool.false_eq_true, if_false] at hvalid
  split at hvalid
  · exact absurd hvalid (by decide)
  · exact absurd hvalid (by decide)

structure ShardPlacement where
  shardIndex : Int := 0
  nodes : List Node := []
deriving DecidableEq

/-- `list_nodes_by_resource_pool`. -/
def MetaStoreTxn.listNodesByResourcePool (t : MetaStoreTxn) (poolName : Bytes) : List Node :=
  (t.runtime.nodes.entries.filter fun n => n.info.resourcePool = poolName).insertionSort fun a b => a.id ≤ b.id

/-- `is_valid_node`. -/
def Node.isValid (n : Node) : Bool :=
  n.state.endpoint.ip != [] && decide (0 < n.state.endpoint.port) && n.state.status == .online

/-- The replicas of a node that are not on their way out. -/
def ownedReplicas (t : MetaStoreTxn) (node : NodeID) : Nat :=
  ((t.listReplicasByNode node).filter fun r => !r.state.phase.isAbsent).length

/-! ## The selector -/

namespace NodeSelector

structure NodeView where
  node : Node
  ownedReplicaCount : Int32 := 0
  dc : Bytes := []
deriving DecidableEq

def betterCandidate (selectedDcCounts : Bytes → Nat) (lhs rhs : NodeView) : Bool :=
  if selectedDcCounts lhs.dc ≠ selectedDcCounts rhs.dc then
    decide (selectedDcCounts lhs.dc < selectedDcCounts rhs.dc)
  else if lhs.ownedReplicaCount ≠ rhs.ownedReplicaCount then
    decide (lhs.ownedReplicaCount < rhs.ownedReplicaCount)
  else decide (lhs.node.id < rhs.node.id)

/-- The top of the queue of the views that are not selected, or `views.end()`. -/
def selectOneNode (views : List NodeView) (selectedNodeIds : List NodeID) (selectedDcCounts : Bytes → Nat) :
    Option NodeView :=
  Greedy.best (betterCandidate selectedDcCounts) (views.filter fun v => v.node.id ∉ selectedNodeIds)

/-- What the loop over the replicas of a shard changes. A data centre without an entry in the map counts 0. -/
structure Picks where
  views : List NodeView
  selectedNodeIds : List NodeID := []
  selectedDcCounts : Bytes → Nat := fun _ => 0
  nodes : List Node := []

/-- The pick of a view. The views have different nodes, so the id says which one is counted. -/
def Picks.pick (st : Picks) (it : NodeView) : Picks where
  views := st.views.map fun v =>
    if v.node.id = it.node.id then { v with ownedReplicaCount := v.ownedReplicaCount + 1 } else v
  selectedNodeIds := it.node.id :: st.selectedNodeIds
  selectedDcCounts := Function.update st.selectedDcCounts it.dc (st.selectedDcCounts it.dc + 1)
  nodes := st.nodes ++ [it.node]

/-- The body of the loop over the replicas. -/
def Picks.step (st : Picks) : Except Status Picks :=
  match selectOneNode st.views st.selectedNodeIds st.selectedDcCounts with
  | none => .error ⟨.error, "select one node: it = views.end()"⟩
  | some it => .ok (st.pick it)

def selectShard : Nat → Picks → Except Status Picks
  | 0, st => .ok st
  | count + 1, st =>
    match st.step with
    | .error e => .error e
    | .ok st => selectShard count st

/-- The loop over the shards from `shardIdx` on. -/
def selectShards (replicaCount : Nat) : Nat → Int → List NodeView → Except Status (List ShardPlacement)
  | 0, _, _ => .ok []
  | count + 1, shardIdx, views =>
    match selectShard replicaCount { views := views } with
    | .error e => .error e
    | .ok st =>
      match selectShards replicaCount count (shardIdx + 1) st.views with
      | .error e => .error e
      | .ok shards => .ok ({ shardIndex := shardIdx, nodes := st.nodes } :: shards)

/-- The nodes of the pool that may be selected. -/
def candidateNodes (t : MetaStoreTxn) (param : PlaceNodesParam) : List Node :=
  (t.listNodesByResourcePool param.resourcePool).filter fun n =>
    n.isValid && decide (n.id ∉ param.excludedNodeIds)

def viewOf (t : MetaStoreTxn) (node : Node) : NodeView :=
  { node := node, ownedReplicaCount := Int32.ofNat (ownedReplicas t node.id), dc := node.info.dc }

/-- `select_table_nodes`. The number of candidates is cast to `int32` before it is compared. -/
def selectTableNodes (t : MetaStoreTxn) (param : PlaceNodesParam) : Except Status (List ShardPlacement) :=
  if param.validate.fail then .error param.validate
  else
    let candidates := candidateNodes t param
    if Int32.ofNat candidates.length < param.replicaCount then
      .error ⟨.resourceExhausted, "not enough nodes in resource_pool '" ++ textOf param.resourcePool ++
        "', need " ++ toString param.replicaCount.toInt ++ " but have " ++ toString candidates.length⟩
    else
      selectShards param.replicaCount.toInt.toNat param.shardCount.toInt.toNat 0 (candidates.map (viewOf t))

/-! ## One pick -/

/-- The order of the candidates: by data centre, then by load, then by id. -/
theorem betterCandidate_iff {counts : Bytes → Nat} {a b : NodeView} : betterCandidate counts a b = true ↔
    counts a.dc < counts b.dc ∨ counts a.dc = counts b.dc ∧
      (a.ownedReplicaCount < b.ownedReplicaCount ∨
        a.ownedReplicaCount = b.ownedReplicaCount ∧ a.node.id < b.node.id) := by
  unfold betterCandidate
  split
  next h =>
    rw [decide_eq_true_iff]
    exact ⟨.inl, fun hor => hor.elim id fun heq => absurd heq.1 h⟩
  next h =>
    have heq := not_not.mp h
    split
    next h' =>
      rw [decide_eq_true_iff]
      refine ⟨fun hlt => .inr ⟨heq, .inl hlt⟩, ?_⟩
      rintro (hlt | ⟨-, hlt | hsame⟩)
      · omega
      · exact hlt
      · exact absurd hsame.1 h'
    next h' =>
      have heq' := not_not.mp h'
      rw [decide_eq_true_iff]
      refine ⟨fun hlt => .inr ⟨heq, .inr ⟨heq', hlt⟩⟩, ?_⟩
      rintro (hlt | ⟨-, hlt | hsame⟩)
      · omega
      · rw [heq', Int32.lt_iff_toInt_lt] at hlt
        exact absurd hlt (lt_irrefl _)
      · exact hsame.2

/-- It is a strict one, so the scan ends with a candidate that none is better than. -/
theorem betterCandidate_strict (counts : Bytes → Nat) : Greedy.StrictOrder (betterCandidate counts) where
  irrefl a := by
    rw [← Bool.not_eq_true, betterCandidate_iff]
    rintro (h | ⟨-, h | ⟨-, h⟩⟩)
    · exact lt_irrefl _ h
    · exact lt_irrefl _ (Int32.lt_iff_toInt_lt.mp h)
    · exact List.lt_irrefl _ h
  trans a b c hab hbc := by
    rw [betterCandidate_iff] at hab hbc ⊢
    simp only [Int32.lt_iff_toInt_lt, ← Int32.toInt_inj] at hab hbc ⊢
    rcases hab with hab | ⟨hdc, hab | ⟨hown, hab⟩⟩ <;> rcases hbc with hbc | ⟨hdc', hbc | ⟨hown', hbc⟩⟩
    case inr.inr.inr.inr => exact .inr ⟨by omega, .inr ⟨by omega, List.lt_trans hab hbc⟩⟩
    all_goals omega

/-- The replicas of a node when a shard is placed: those of the store and those of the shards placed before. -/
def load (t : MetaStoreTxn) (earlier : List ShardPlacement) (n : Node) : Nat :=
  ownedReplicas t n.id + earlier.countP fun shard => n ∈ shard.nodes

abbrev dcOf (n : Node) : Bytes := n.info.dc

/-- The state of the loop over the replicas of a shard, in terms of the nodes picked so far. -/
structure Picking (t : MetaStoreTxn) (candidates : List Node) (earlier : List ShardPlacement) (st : Picks) :
    Prop where
  ids : ∀ id, id ∈ st.selectedNodeIds ↔ id ∈ st.nodes.map Node.id
  counts : st.selectedDcCounts = Greedy.tally dcOf st.nodes
  views : st.views = candidates.map fun n =>
    { node := n, ownedReplicaCount := Int32.ofNat (load t earlier n + if n ∈ st.nodes then 1 else 0), dc := dcOf n }
  candidate : ∀ n ∈ st.nodes, n ∈ candidates
  nodup : st.nodes.Nodup
  least : ∀ front n back, st.nodes = front ++ n :: back → ∀ m ∈ candidates, m ∉ front →
    Greedy.tally dcOf front (dcOf n) ≤ Greedy.tally dcOf front (dcOf m) ∧
      (dcOf m = dcOf n → load t earlier n ≤ load t earlier m)

section Shard

variable {t : MetaStoreTxn} {candidates : List Node} {earlier : List ShardPlacement}

/-- The views before the first pick of a shard. -/
def viewsAfter (t : MetaStoreTxn) (candidates : List Node) (earlier : List ShardPlacement) : List NodeView :=
  candidates.map fun n => { node := n, ownedReplicaCount := Int32.ofNat (load t earlier n), dc := dcOf n }

/-- Before the first pick. -/
theorem Picking.start : Picking t candidates earlier { views := viewsAfter t candidates earlier } where
  ids _ := by simp
  counts := rfl
  views := by simp [viewsAfter]
  candidate _ h := absurd h List.not_mem_nil
  nodup := List.nodup_nil
  least front n back h := by simp at h

variable {st : Picks}

/-- The loop remembers ids, and an id stands for one candidate. -/
theorem Picking.picked_iff (h : Picking t candidates earlier st) (hids : (candidates.map Node.id).Nodup)
    {n : Node} (hn : n ∈ candidates) : n.id ∈ st.selectedNodeIds ↔ n ∈ st.nodes := by
  rw [h.ids, List.mem_map]
  constructor
  · rintro ⟨m, hm, hid⟩
    rwa [← List.inj_on_of_nodup_map hids (h.candidate m hm) hn hid]
  · exact fun hmem => ⟨n, hmem, rfl⟩

/-- The pick: a candidate that is not picked yet and that no other such candidate is better than. -/
theorem Picking.selectOneNode (h : Picking t candidates earlier st) (hids : (candidates.map Node.id).Nodup)
    (hleft : st.nodes.length < candidates.length) (hfits : ∀ n ∈ candidates, load t earlier n < 2 ^ 31) :
    ∃ n ∈ candidates, n ∉ st.nodes ∧
      selectOneNode st.views st.selectedNodeIds st.selectedDcCounts =
        some { node := n, ownedReplicaCount := Int32.ofNat (load t earlier n), dc := dcOf n } ∧
      ∀ m ∈ candidates, m ∉ st.nodes →
        Greedy.tally dcOf st.nodes (dcOf n) ≤ Greedy.tally dcOf st.nodes (dcOf m) ∧
          (dcOf m = dcOf n → load t earlier n ≤ load t earlier m) := by
  -- what is left to choose from, as views and as nodes
  have hmem (v : NodeView) : v ∈ st.views.filter (fun v => v.node.id ∉ st.selectedNodeIds) ↔
      ∃ n ∈ candidates, n ∉ st.nodes ∧
        v = { node := n, ownedReplicaCount := Int32.ofNat (load t earlier n), dc := dcOf n } := by
    rw [List.mem_filter, h.views, List.mem_map, decide_eq_true_iff]
    constructor
    · rintro ⟨⟨n, hn, rfl⟩, hnot⟩
      have hnot' : n ∉ st.nodes := fun hin => hnot ((h.picked_iff hids hn).mpr hin)
      exact ⟨n, hn, hnot', by rw [if_neg hnot', Nat.add_zero]⟩
    · rintro ⟨n, hn, hnot, rfl⟩
      exact ⟨⟨n, hn, by rw [if_neg hnot, Nat.add_zero]⟩, fun hin => hnot ((h.picked_iff hids hn).mp hin)⟩
  have hbest := Greedy.best_unbeaten (betterCandidate_strict st.selectedDcCounts)
    (st.views.filter fun v => v.node.id ∉ st.selectedNodeIds)
  rcases hpick : NodeSelector.selectOneNode st.views st.selectedNodeIds st.selectedDcCounts with _ | v
  · -- nothing is left although fewer nodes are picked than there are
    rw [NodeSelector.selectOneNode] at hpick
    rw [hpick] at hbest
    have hsub : candidates ⊆ st.nodes := by
      intro n hn
      by_contra hnot
      have hv := (hmem _).mpr ⟨n, hn, hnot, rfl⟩
      rw [show _ = [] from hbest] at hv
      exact List.not_mem_nil hv
    have hle := (List.Nodup.of_map _ hids).subperm hsub |>.length_le
    omega
  · rw [NodeSelector.selectOneNode] at hpick
    rw [hpick] at hbest
    obtain ⟨hv, hunbeaten⟩ := hbest
    obtain ⟨n, hn, hnot, rfl⟩ := (hmem v).mp hv
    refine ⟨n, hn, hnot, rfl, fun m hm hm' => ?_⟩
    have hworse := hunbeaten _ ((hmem _).mpr ⟨m, hm, hm', rfl⟩)
    rw [← Bool.not_eq_true, betterCandidate_iff, h.counts] at hworse
    simp only [Int32.lt_iff_toInt_lt, Int32.toInt_ofNat_of_lt (hfits n hn), Int32.toInt_ofNat_of_lt (hfits m hm),
      not_or, not_lt, not_and] at hworse
    refine ⟨hworse.1, fun hdc => ?_⟩
    have hsame := (hworse.2 (by rw [hdc])).1
    omega

/-- A pick adds one node, while there are candidates left. -/
theorem Picking.step (h : Picking t candidates earlier st) (hids : (candidates.map Node.id).Nodup)
    (hleft : st.nodes.length < candidates.length) (hfits : ∀ n ∈ candidates, load t earlier n < 2 ^ 31) :
    ∃ st', st.step = .ok st' ∧ Picking t candidates earlier st' ∧ st'.nodes.length = st.nodes.length + 1 := by
  obtain ⟨n, hn, hnot, hpick, hleast⟩ := h.selectOneNode hids hleft hfits
  refine ⟨_, by rw [Picks.step, hpick], ?_, by simp [Picks.pick]⟩
  constructor <;> dsimp only [Picks.pick]
  case ids =>
    intro id
    rw [List.mem_cons, h.ids, List.map_append, List.mem_append, List.map_singleton, List.mem_singleton, or_comm]
  -- the counter of the data centre that was picked goes up
  case counts =>
    funext d
    rw [Greedy.tally_concat, h.counts]
    by_cases hd : dcOf n = d
    · subst hd
      rw [Function.update_self, if_pos rfl]
    · rw [Function.update_of_ne (Ne.symm hd), if_neg hd, Nat.add_zero]
  case views =>
    rw [h.views, List.map_map]
    refine List.map_congr_left fun m hm => ?_
    simp only [Function.comp_apply, List.mem_append, List.mem_singleton]
    by_cases hid : m.id = n.id
    · obtain rfl := List.inj_on_of_nodup_map hids hm hn hid
      simp [hnot, Int32.ofNat_add]
    · have hne : m ≠ n := fun heq => hid (by rw [heq])
      simp [hid, hne]
  case candidate =>
    intro m hm
    rcases List.mem_append.mp hm with hm | hm
    · exact h.candidate m hm
    · rwa [List.mem_singleton.mp hm]
  case nodup =>
    exact List.Nodup.append h.nodup (List.nodup_singleton n) (List.disjoint_singleton.mpr hnot)
  -- a pick is the last one of the list or an earlier one, which was least then
  case least =>
    intro front m back heq
    rcases List.eq_nil_or_concat back with rfl | ⟨back, last, rfl⟩
    · obtain ⟨rfl, hm⟩ := List.append_inj' heq rfl
      rw [← List.singleton_injective hm]
      exact hleast
    · rw [List.concat_eq_append, ← List.cons_append, ← List.append_assoc] at heq
      exact h.least front m back (List.append_inj' heq rfl).1

/-- The picks of a shard: as many as asked for, while there are candidates. -/
theorem Picking.selectShard (hids : (candidates.map Node.id).Nodup)
    (hfits : ∀ n ∈ candidates, load t earlier n < 2 ^ 31) {count : Nat} (h : Picking t candidates earlier st)
    (henough : st.nodes.length + count ≤ candidates.length) :
    ∃ st', selectShard count st = .ok st' ∧ Picking t candidates earlier st' ∧
      st'.nodes.length = st.nodes.length + count := by
  induction count generalizing st with
  | zero => exact ⟨st, rfl, h, rfl⟩
  | succ count ih =>
    obtain ⟨st₁, hstep, h₁, hlen⟩ := h.step hids (by omega) hfits
    obtain ⟨st₂, hrest, h₂, hlen₂⟩ := ih h₁ (by omega)
    exact ⟨st₂, by rw [NodeSelector.selectShard, hstep]; exact hrest, h₂, by omega⟩

/-- The views a shard leaves are those before the first pick of the next one. -/
theorem Picking.views_next (h : Picking t candidates earlier st) (shardIdx : Int) :
    st.views = viewsAfter t candidates (earlier ++ [{ shardIndex := shardIdx, nodes := st.nodes }]) := by
  rw [h.views, viewsAfter]
  refine List.map_congr_left fun n _ => ?_
  simp [load, List.countP_append, List.countP_cons, Nat.add_assoc]

end Shard

/-! ## What a request gets -/

/-- A node of the pool that is ONLINE, has a valid endpoint and is not excluded. -/
def Candidate (param : PlaceNodesParam) (n : Node) : Prop :=
  n.info.resourcePool = param.resourcePool ∧ n.state.status = .online ∧ n.state.endpoint.ip ≠ [] ∧
    0 < n.state.endpoint.port ∧ n.id ∉ param.excludedNodeIds

instance (param : PlaceNodesParam) (n : Node) : Decidable (Candidate param n) :=
  inferInstanceAs (Decidable (_ ∧ _ ∧ _ ∧ _ ∧ _))

/-- The stored nodes that are candidates. -/
def candidates (t : MetaStoreTxn) (param : PlaceNodesParam) : List Node :=
  t.runtime.nodes.entries.filter fun n => Candidate param n

/-- The selector sorts the candidates by id before it looks at them. -/
theorem candidateNodes_perm (t : MetaStoreTxn) (param : PlaceNodesParam) :
    (candidateNodes t param).Perm (candidates t param) := by
  refine ((List.perm_insertionSort _ _).filter _).trans (List.Perm.of_eq ?_)
  rw [List.filter_filter, candidates]
  refine List.filter_congr fun n _ => ?_
  rw [Bool.eq_iff_iff, decide_eq_true_iff]
  simp only [Node.isValid, Candidate, Bool.and_eq_true, bne_iff_ne, decide_eq_true_eq, beq_iff_eq]
  tauto

theorem candidateNodes_ids_nodup (t : MetaStoreTxn) (param : PlaceNodesParam) :
    ((candidateNodes t param).map Node.id).Nodup :=
  ((candidateNodes_perm t param).map Node.id).nodup_iff.mpr
    (t.runtime.nodes.nodup.sublist (List.filter_sublist.map Node.id))

/-- A placed shard: `earlier` are the shards of the request placed before it. -/
structure Balanced (t : MetaStoreTxn) (candidates : List Node) (replicaCount : Nat)
    (earlier : List ShardPlacement) (shard : ShardPlacement) : Prop where
  index : shard.shardIndex = earlier.length
  count : shard.nodes.length = replicaCount
  distinct : (shard.nodes.map Node.id).Nodup
  candidate : ∀ n ∈ shard.nodes, n ∈ candidates
  centres : ∀ d₁ d₂, Greedy.tally dcOf shard.nodes d₂ + 2 ≤ Greedy.tally dcOf shard.nodes d₁ →
    ∀ n ∈ candidates, dcOf n = d₂ → n ∈ shard.nodes
  least : ∀ front n back, shard.nodes = front ++ n :: back → ∀ m ∈ candidates, dcOf m = dcOf n → m ∉ front →
    load t earlier n ≤ load t earlier m

variable {t : MetaStoreTxn} {replicaCount : Nat} {earlier : List ShardPlacement}

theorem Balanced.perm {candidates candidates' : List Node} {shard : ShardPlacement}
    (hperm : candidates.Perm candidates') (h : Balanced t candidates replicaCount earlier shard) :
    Balanced t candidates' replicaCount earlier shard where
  index := h.index
  count := h.count
  distinct := h.distinct
  candidate n hn := hperm.subset (h.candidate n hn)
  centres d₁ d₂ hbehind n hn := h.centres d₁ d₂ hbehind n (hperm.symm.subset hn)
  least front n back heq m hm := h.least front n back heq m (hperm.symm.subset hm)

/-- **The picks of a shard are balanced**, since each of them was least when it was made. -/
theorem Picking.balanced {candidates : List Node} {st : Picks} (h : Picking t candidates earlier st)
    (hids : (candidates.map Node.id).Nodup) :
    Balanced t candidates st.nodes.length earlier { shardIndex := earlier.length, nodes := st.nodes } where
  index := rfl
  count := rfl
  distinct := by
    refine h.nodup.map_on fun n hn m hm hid => ?_
    exact List.inj_on_of_nodup_map hids (h.candidate n hn) (h.candidate m hm) hid
  candidate := h.candidate
  centres d₁ d₂ hbehind n hn hd := by
    subst hd
    have hlevels : Greedy.Levels dcOf candidates st.nodes := fun front m back heq m' hm' hfront =>
      (h.least front m back heq m' hm' hfront).1
    exact hlevels.exhausted hn hbehind
  least front n back heq m hm hdc hfront := (h.least front n back heq m hm hfront).2 hdc

/-- A placed shard adds at most one replica to a node. -/
theorem load_concat (t : MetaStoreTxn) (earlier : List ShardPlacement) (shard : ShardPlacement) (n : Node) :
    load t (earlier ++ [shard]) n ≤ load t earlier n + 1 := by
  rw [load, load, List.countP_append, List.countP_singleton]
  split <;> omega

/-- The shards of a request: each one is balanced over what the ones before it left. -/
theorem selectShards_spec {candidates : List Node} (hids : (candidates.map Node.id).Nodup)
    (henough : replicaCount ≤ candidates.length) (count : Nat) (earlier : List ShardPlacement)
    (hfits : ∀ n ∈ candidates, load t earlier n + count ≤ 2 ^ 31) :
    ∃ shards, selectShards replicaCount count earlier.length (viewsAfter t candidates earlier) = .ok shards ∧
      shards.length = count ∧
      ∀ front shard back, shards = front ++ shard :: back →
        Balanced t candidates replicaCount (earlier ++ front) shard := by
  induction count generalizing earlier with
  | zero => exact ⟨[], rfl, rfl, fun front shard back h => by simp at h⟩
  | succ count ih =>
    -- the counters have room for one more replica per shard that is still to be placed
    have hnow : ∀ n ∈ candidates, load t earlier n < 2 ^ 31 := fun n hn => by
      have := hfits n hn
      omega
    obtain ⟨st, hst, hpicks, hlen⟩ := Picking.start.selectShard hids hnow (by simpa using henough)
    obtain rfl : st.nodes.length = replicaCount := by simpa using hlen
    let placed : ShardPlacement := { shardIndex := earlier.length, nodes := st.nodes }
    obtain ⟨shards, hshards, hcount, hrest⟩ := ih (earlier ++ [placed]) fun n hn => by
      have hload := load_concat t earlier placed n
      have := hfits n hn
      omega
    rw [← hpicks.views_next, List.length_append, List.length_singleton, Nat.cast_add, Nat.cast_one] at hshards
    refine ⟨placed :: shards, by rw [selectShards, hst]; simp only [hshards, placed], by simp [hcount], ?_⟩
    intro front shard back heq
    rcases front with _ | ⟨first, front⟩
    · obtain ⟨rfl, -⟩ := List.cons_eq_cons.mp heq
      rw [List.append_nil]
      exact hpicks.balanced hids
    · obtain ⟨rfl, htail⟩ := List.cons_eq_cons.mp heq
      rw [List.append_cons]
      exact hrest front shard back htail

/-- The counters of a request fit `int32`. -/
structure Fits (t : MetaStoreTxn) (param : PlaceNodesParam) : Prop where
  few : (candidates t param).length < 2 ^ 31
  light : ∀ n ∈ candidates t param, ownedReplicas t n.id + param.shardCount.toInt.toNat < 2 ^ 31

/-- **Placement balance.** A valid request succeeds exactly if there are enough candidates. Each shard then has
the number of different nodes asked for, all of them candidates. No data centre with candidates left is two
picks behind another, and a node picked had no more replicas than any candidate of its data centre not picked
before, those of the earlier shards included. -/
theorem placement_balanced (t : MetaStoreTxn) (param : PlaceNodesParam) (hvalid : param.validate.fail = false)
    (hfits : Fits t param) :
    ((∃ shards, selectTableNodes t param = .ok shards) ↔
      param.replicaCount.toInt ≤ (candidates t param).length) ∧
    ∀ shards, selectTableNodes t param = .ok shards →
      (shards.length : Int) = param.shardCount.toInt ∧
      ∀ earlier shard later, shards = earlier ++ shard :: later →
        Balanced t (candidates t param) param.replicaCount.toInt.toNat earlier shard := by
  have hperm := candidateNodes_perm t param
  have hcast : Int32.ofNat (candidateNodes t param).length < param.replicaCount ↔
      ((candidates t param).length : Int) < param.replicaCount.toInt := by
    rw [hperm.length_eq, Int32.lt_iff_toInt_lt, Int32.toInt_ofNat_of_lt hfits.few]
  rw [selectTableNodes, if_neg (by simp [hvalid])]
  by_cases hfew : ((candidates t param).length : Int) < param.replicaCount.toInt
  · simp only [if_pos (hcast.mpr hfew), reduceCtorEq, exists_false, false_iff, not_le, hfew, false_implies,
      implies_true, and_self]
  · simp only [if_neg (hcast.not.mpr hfew)]
    have henough : param.replicaCount.toInt.toNat ≤ (candidateNodes t param).length := by
      rw [hperm.length_eq]
      omega
    have hload : ∀ n ∈ candidateNodes t param, load t [] n + param.shardCount.toInt.toNat ≤ 2 ^ 31 := fun n hn =>
      (hfits.light n (hperm.subset hn)).le
    obtain ⟨shards, hshards, hlen, hbalanced⟩ :=
      selectShards_spec (candidateNodes_ids_nodup t param) henough _ [] hload
    have hrun : selectShards param.replicaCount.toInt.toNat param.shardCount.toInt.toNat 0
        ((candidateNodes t param).map (viewOf t)) = .ok shards := hshards
    refine ⟨⟨fun _ => not_lt.mp hfew, fun _ => ⟨shards, hrun⟩⟩, fun shards' h => ?_⟩
    obtain rfl := Except.ok.inj (hrun.symm.trans h)
    refine ⟨?_, fun earlier shard later heq => (hbalanced earlier shard later heq).perm hperm⟩
    have hpos := param.shardCount_pos hvalid
    omega

/-- A node of the pool `[1]` that may be selected. -/
def poolNode (id : NodeID) (dc : Bytes) : Node :=
  { id := id, info := { resourcePool := [1], dc := dc }, state := { endpoint := { ip := [1], port := 1 } } }

/-- Three nodes, the first two of them in one data centre. -/
def threeNodes : MetaStoreTxn :=
  { durable := {}
    runtime := { nodes := ⟨[poolNode [1] [1], poolNode [2] [1], poolNode [3] [2]], by decide⟩ } }

def twoByTwo : PlaceNodesParam := { resourcePool := [1], shardCount := 2, replicaCount := 2 }

/-- Both shards take the node of the other data centre, and the second one takes the node the first one left. -/
theorem second_shard_takes_other_node :
    ∃ shards, selectTableNodes threeNodes twoByTwo = .ok shards ∧
      shards.map (fun shard => shard.nodes.map Node.id) = [[[1], [3]], [[2], [3]]] ∧
      ∀ earlier shard later, shards = earlier ++ shard :: later →
        Balanced threeNodes (candidates threeNodes twoByTwo) 2 earlier shard := by
  have hfits : Fits threeNodes twoByTwo := ⟨by decide, by decide⟩
  have hall := placement_balanced threeNodes twoByTwo (by decide) hfits
  obtain ⟨shards, hshards⟩ := hall.1.mpr (by decide)
  refine ⟨shards, hshards, ?_, (hall.2 shards hshards).2⟩
  have hrun : (selectTableNodes threeNodes twoByTwo).toOption.map
      (fun shards => shards.map fun shard => shard.nodes.map Node.id) = some [[[1], [3]], [[2], [3]]] := by decide
  rw [hshards] at hrun
  exact Option.some.inj hrun

/-- A pool of `count` nodes. -/
def crowdedStore (count : Nat) : MetaStoreTxn :=
  { durable := {}
    runtime := { nodes := ⟨(List.range count).map fun i => poolNode (List.replicate (i + 1) 0) [1], by
      rw [List.map_map]
      refine List.nodup_range.map fun i j hij => ?_
      have hlen := congrArg List.length hij
      simpa [poolNode] using hlen⟩ } }

def oneReplica : PlaceNodesParam := { resourcePool := [1], shardCount := 1, replicaCount := 1 }

theorem candidates_crowdedStore (count : Nat) : (candidates (crowdedStore count) oneReplica).length = count := by
  have hall : ∀ n ∈ (crowdedStore count).runtime.nodes.entries, Candidate oneReplica n := by
    intro n hn
    obtain ⟨i, -, rfl⟩ := List.mem_map.mp hn
    simp [Candidate, poolNode, oneReplica]
  rw [candidates, List.filter_eq_self.mpr fun n hn => decide_eq_true (hall n hn)]
  simp [crowdedStore]

/-- With `2 ^ 31` candidates the cast gives a negative number, and one replica is refused. -/
theorem crowded_pool_refused :
    oneReplica.validate.fail = false ∧
      oneReplica.replicaCount.toInt ≤ (candidates (crowdedStore (2 ^ 31)) oneReplica).length ∧
      ¬ ∃ shards, selectTableNodes (crowdedStore (2 ^ 31)) oneReplica = .ok shards := by
  have hlen := candidates_crowdedStore (2 ^ 31)
  refine ⟨by decide, by rw [hlen]; decide, ?_⟩
  rintro ⟨shards, h⟩
  have hcast : Int32.ofNat (candidateNodes (crowdedStore (2 ^ 31)) oneReplica).length < oneReplica.replicaCount := by
    rw [(candidateNodes_perm _ _).length_eq, hlen]
    decide
  rw [selectTableNodes, if_neg (by decide)] at h
  simp only [if_pos hcast, reduceCtorEq] at h

end NodeSelector

end AdvisKV.Meta
