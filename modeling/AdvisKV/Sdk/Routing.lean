import AdvisKV.Lib.Tiling
import AdvisKV.Meta.Ddl

/-!
# AdvisKV — from a key to its shard

A key is hashed into one of `K_HASH_BUCKET_COUNT` buckets, and the shards of a table divide the buckets among
them. Meta makes the ranges when it creates a table; the SDK receives one route for each shard, in any order,
sorts the routes by the start of their ranges, checks that the ranges divide the buckets, and from then on finds
the route of a key by a binary search.

Main results:

* `checkRanges_ok_iff` — what passes the check: ranges that divide the buckets, under different indexes.
* `makeShardRanges_tiles` — the ranges of a new table divide the buckets.
* `findShardRange_spec` — the search finds the one range of a bucket.
* `shard_routing` — all three, and what a published route table answers.
-/

namespace AdvisKV.Meta

/-! ## Ranges -/

/-- `HashRange::contains`. -/
def HashRange.contains (r : HashRange) (bucket : Nat) : Bool :=
  decide (r.start ≤ bucket) && decide (bucket < r.stop)

theorem HashRange.contains_iff {r : HashRange} {bucket : Nat} :
    r.contains bucket = true ↔ r.start ≤ bucket ∧ bucket < r.stop := by
  simp [HashRange.contains]

/-- `find_shard_range`: the number of ranges stands for "none". -/
def findShardRange (ranges : List ShardRange) (bucket : Nat) : Nat :=
  let it := upperBound (fun r : ShardRange => decide (bucket < r.range.start)) ranges
  if it = 0 then ranges.length
  else match ranges[it - 1]? with
    | none => ranges.length
    | some r => if r.range.contains bucket then it - 1 else ranges.length

/-- The ranges divide the buckets from `a` to `b`. -/
abbrev Divides (a b : Nat) (ranges : List ShardRange) : Prop :=
  Tiles (fun r : ShardRange => r.range.start) (fun r => r.range.stop) a b ranges

variable {ranges : List ShardRange}

/-- **The search** finds the one range of a bucket. -/
theorem findShardRange_spec {bucket : Nat} (h : Divides 0 hashBucketCount ranges)
    (hbucket : bucket < hashBucketCount) :
    ∃ r, ranges[findShardRange ranges bucket]? = some r ∧ r.range.contains bucket = true ∧
      ∀ (j : Nat) r', ranges[j]? = some r' → r'.range.contains bucket = true →
        j = findShardRange ranges bucket := by
  obtain ⟨i, r, hr, hlo, hhi, hbound, hunique⟩ := h.locate (Nat.zero_le bucket) hbucket
  have hcontains : r.range.contains bucket = true := HashRange.contains_iff.mpr ⟨hlo, hhi⟩
  have hfind : findShardRange ranges bucket = i := by
    unfold findShardRange
    dsimp only
    rw [hbound, if_neg (Nat.succ_ne_zero i), Nat.add_sub_cancel, hr]
    exact if_pos hcontains
  rw [hfind]
  refine ⟨r, hr, hcontains, fun j r' hr' hin => ?_⟩
  obtain ⟨hlo', hhi'⟩ := HashRange.contains_iff.mp hin
  exact hunique j r' hr' hlo' hhi'

/-! ## The check -/

/-- **What passes the loop** of the check: ranges that divide the buckets from the expected start on, under
different indexes that were not seen before. -/
theorem checkRanges_ok_iff {expected : Nat} {seen : List Int} :
    (checkRanges expected seen ranges).fail = false ↔
      (ranges = [] ∨ Divides expected hashBucketCount ranges) ∧
      (∀ r ∈ ranges, 0 ≤ r.shardIndex ∧ r.shardIndex ∉ seen) ∧
      (ranges.map ShardRange.shardIndex).Nodup := by
  induction ranges generalizing expected seen with
  | nil => simp [checkRanges]
  | cons r rest ih =>
    unfold checkRanges
    -- the checks in the order of the loop; each failure breaks one conjunct
    by_cases hneg : r.shardIndex < 0
    · rw [if_pos hneg]
      refine iff_of_false (by decide) fun ⟨_, hids, _⟩ => ?_
      have := (hids r List.mem_cons_self).1
      omega
    by_cases hseen : r.shardIndex ∈ seen
    · rw [if_neg hneg, if_pos hseen]
      exact iff_of_false (by decide) fun ⟨_, hids, _⟩ => (hids r List.mem_cons_self).2 hseen
    by_cases hrange : r.range.start ≠ expected ∨ r.range.stop ≤ r.range.start ∨
        hashBucketCount < r.range.stop ∨ (rest = [] ∧ r.range.stop ≠ hashBucketCount)
    · rw [if_neg hneg, if_neg hseen, if_pos hrange]
      refine iff_of_false (by decide) fun ⟨hdivides, _, _⟩ => ?_
      rcases hdivides with hnil | ⟨hstart, hlt, hrest⟩
      · exact absurd hnil (List.cons_ne_nil _ _)
      · have hle := hrest.bounds.1
        rcases hrange with hne | hempty | hlarge | ⟨rfl, hlast⟩
        · exact hne hstart
        · exact absurd hlt (Nat.not_lt.mpr hempty)
        · exact absurd hlarge (Nat.not_lt.mpr hle)
        · exact hlast hrest
    · rw [if_neg hneg, if_neg hseen, if_neg hrange, ih]
      push Not at hrange
      obtain ⟨hstart, hlt, -, hlast⟩ := hrange
      simp only [List.mem_cons, forall_eq_or_imp, List.map_cons, List.nodup_cons, List.mem_map, not_or]
      constructor
      · rintro ⟨hdivides, hids, hnodup⟩
        refine ⟨Or.inr ⟨hstart, hlt, ?_⟩, ⟨⟨by omega, hseen⟩, fun x hx => ⟨(hids x hx).1, (hids x hx).2.2⟩⟩,
          ?_, hnodup⟩
        · rcases hdivides with rfl | hdivides
          · exact hlast rfl
          · exact hdivides
        · rintro ⟨x, hx, heq⟩
          exact (hids x hx).2.1 heq
      · rintro ⟨hdivides, ⟨-, hids⟩, hnew, hnodup⟩
        refine ⟨?_, fun x hx => ⟨(hids x hx).1, fun heq => hnew ⟨x, hx, heq⟩, (hids x hx).2⟩, hnodup⟩
        rcases hdivides with hnil | ⟨-, -, hrest⟩
        · exact absurd hnil (List.cons_ne_nil _ _)
        · exact Or.inr hrest

/-- **The ranges of a new table** divide the buckets, when there are no more shards than buckets. -/
theorem makeShardRanges_tiles {count : Nat} (hpos : 0 < count) (hle : count ≤ hashBucketCount) (n s : Nat) :
    Divides (hashBucketCount * s / count) (hashBucketCount * (s + n) / count)
      ((List.range' s n).map fun (i : Nat) =>
        ⟨i, ⟨hashBucketCount * i / count, hashBucketCount * (i + 1) / count⟩⟩) := by
  induction n generalizing s with
  | zero => rfl
  | succ n ih =>
    rw [List.range'_succ, List.map_cons]
    refine ⟨rfl, ?_, ?_⟩
    · -- a shard has at least one bucket
      show hashBucketCount * s / count < hashBucketCount * (s + 1) / count
      calc hashBucketCount * s / count < hashBucketCount * s / count + 1 := Nat.lt_succ_self _
        _ = (hashBucketCount * s + count) / count := (Nat.add_div_right _ hpos).symm
        _ ≤ hashBucketCount * (s + 1) / count := by
          refine Nat.div_le_div_right ?_
          rw [Nat.mul_succ]
          omega
    · have hrest := ih (s + 1)
      rwa [show s + 1 + n = s + (n + 1) by omega] at hrest

end AdvisKV.Meta

namespace AdvisKV.Sdk

open Meta

/-- `check_shard_ranges_is_valid`. -/
def checkShardRangesIsValid (count : Int) (ranges : List ShardRange) : Status :=
  if count ≤ 0 ∨ (hashBucketCount : Int) < count then ⟨.invalidArgument, "invalid shard count"⟩
  else if (ranges.length : Int) ≠ count then ⟨.invalidArgument, "invalid hash range count"⟩
  else checkRanges 0 [] ranges

/-- Meta calls the check with the number of ranges. -/
theorem checkShardRangesIsValid_length (ranges : List ShardRange) :
    checkShardRangesIsValid ranges.length ranges = Meta.checkShardRangesIsValid ranges := by
  unfold checkShardRangesIsValid Meta.checkShardRangesIsValid
  have hcount : (ranges.length : Int) ≤ 0 ∨ (hashBucketCount : Int) < ranges.length ↔
      ranges = [] ∨ hashBucketCount < ranges.length := by
    rw [← List.length_eq_zero_iff]
    omega
  simp only [hcount, ne_eq, not_true_eq_false, if_false]

/-- Ranges that pass the check divide the buckets. -/
theorem divides_of_check {count : Int} {ranges : List ShardRange}
    (h : (checkShardRangesIsValid count ranges).fail = false) :
    (ranges.length : Int) = count ∧ Divides 0 hashBucketCount ranges := by
  unfold checkShardRangesIsValid at h
  split at h
  · exact absurd h (by decide)
  next hcount =>
  split at h
  · exact absurd h (by decide)
  next hlength =>
  push Not at hlength
  refine ⟨hlength, ?_⟩
  rcases (checkRanges_ok_iff.mp h).1 with rfl | hdivides
  · simp only [List.length_nil] at hlength
    omega
  · exact hdivides

/-- The ranges of a new table pass the check. -/
theorem checkShardRangesIsValid_make {count : Int} (hpos : 1 ≤ count) (hle : count ≤ hashBucketCount) :
    (checkShardRangesIsValid count (makeShardRanges count)).fail = false := by
  obtain ⟨n, rfl⟩ : ∃ n : Nat, count = n := ⟨count.toNat, by omega⟩
  have hmake : makeShardRanges n = (List.range' 0 n).map fun (i : Nat) =>
      ⟨i, ⟨hashBucketCount * i / n, hashBucketCount * (i + 1) / n⟩⟩ := by
    unfold makeShardRanges
    rw [if_neg (by omega), Int.toNat_natCast, List.range_eq_range']
  have htiles := makeShardRanges_tiles (show 0 < n by omega) (by omega) n 0
  rw [← hmake, Nat.mul_zero, Nat.zero_div, Nat.zero_add, Nat.mul_div_cancel _ (by omega)] at htiles
  have hlength : (makeShardRanges n).length = n := by simp [hmake]
  unfold checkShardRangesIsValid
  rw [if_neg (by omega), if_neg (by rw [hlength]; exact fun h => h rfl), checkRanges_ok_iff]
  refine ⟨Or.inr htiles, ?_, ?_⟩
  · intro r hr
    rw [hmake] at hr
    obtain ⟨i, -, rfl⟩ := List.mem_map.mp hr
    exact ⟨Int.natCast_nonneg i, List.not_mem_nil⟩
  · rw [hmake, List.map_map]
    refine List.Nodup.map (fun i j hij => ?_) List.nodup_range'
    exact Int.ofNat.inj hij

/-! ## Route tables -/

structure TableRouteInfo where
  tableId : Int := -1
  shardCount : Int := 0
  routes : List ShardRoute := []
deriving DecidableEq, Repr

/-- The range of a route, as `check_table_routes_is_valid` and `publish_table_routes` take it out. -/
def rangeOf (route : ShardRoute) : ShardRange := ⟨route.shardId.shardIndex, route.hashRange⟩

/-- `std::sort` by the start of the ranges. Routes with the same start may come out in any order. -/
structure RouteSort where
  sort : List ShardRoute → List ShardRoute
  perm : ∀ routes, (sort routes).Perm routes
  sorted : ∀ routes, (sort routes).Pairwise fun a b => a.hashRange.start ≤ b.hashRange.start

/-- The order a stable sort leaves. -/
def RouteSort.insertion : RouteSort where
  sort := List.insertionSort fun a b => a.hashRange.start ≤ b.hashRange.start
  perm := List.perm_insertionSort _
  sorted := fun routes => by
    have hsorted := List.pairwise_insertionSort
      (fun a b : ShardRoute => a.hashRange.start ≤ b.hashRange.start) routes
    exact hsorted

/-- `check_table_routes_is_valid`: the status and the table, whose routes it sorts in place. -/
def checkTableRoutesIsValid (s : RouteSort) (table : TableRouteInfo) : Status × TableRouteInfo :=
  if table.tableId < 0 ∨ table.shardCount ≤ 0 ∨ (table.routes.length : Int) ≠ table.shardCount then
    (⟨.invalidArgument, "invalid table route count or table ID"⟩, table)
  else
    let table := { table with routes := s.sort table.routes }
    if table.routes.any fun route => route.shardId.tableId != table.tableId then
      (⟨.invalidArgument, "invalid"⟩, table)
    else (checkShardRangesIsValid table.shardCount (table.routes.map rangeOf), table)

/-- `RouteCache::TableRouteSnapshot`. -/
structure TableRouteSnapshot where
  tableId : Int := -1
  shardCount : Int := 0
  shardRanges : List ShardRange := []
  routes : List ShardRoute := []
deriving DecidableEq, Repr

/-- `RouteCache::publish_table_routes`: a table that fails the check leaves the published snapshot alone. -/
def publishTableRoutes (s : RouteSort) (table : TableRouteInfo) (published : TableRouteSnapshot) :
    Status × TableRouteSnapshot :=
  let r := checkTableRoutesIsValid s table
  if r.1.fail then (r.1, published)
  else
    (.OK,
      { tableId := r.2.tableId
        shardCount := r.2.shardCount
        shardRanges := r.2.routes.map rangeOf
        routes := r.2.routes })

/-- `hash_bucket_for_key`. -/
def hashBucketForKey (key : Key) : Nat :=
  (({} : StableHash64).append key).getMixedHash.toNat % hashBucketCount

theorem hashBucketForKey_lt (key : Key) : hashBucketForKey key < hashBucketCount :=
  Nat.mod_lt _ (by decide)

/-- `RouteCache::lookup_cached_route`. -/
def lookupCachedRoute (snapshot : TableRouteSnapshot) (key : Key) : Except Status ShardRoute :=
  if snapshot.tableId < 0 ∨ snapshot.shardCount ≤ 0 then
    .error ⟨.routeNotFound, "route cache is not ready"⟩
  else match snapshot.routes[findShardRange snapshot.shardRanges (hashBucketForKey key)]? with
    | none => .error ⟨.routeNotFound, "key is outside the cached hash ranges"⟩
    | some cached =>
      if cached.replicas = [] then .error ⟨.routeNotFound, "route cache shard is not ready"⟩ else .ok cached

/-- **An accepted table**: its sorted routes divide the buckets, and they are what is published. -/
theorem publishTableRoutes_of_check {s : RouteSort} {table : TableRouteInfo}
    (h : (checkTableRoutesIsValid s table).1.fail = false) (published : TableRouteSnapshot) :
    0 ≤ table.tableId ∧ 0 < table.shardCount ∧
    Divides 0 hashBucketCount ((s.sort table.routes).map rangeOf) ∧
    publishTableRoutes s table published =
      (.OK, ⟨table.tableId, table.shardCount, (s.sort table.routes).map rangeOf, s.sort table.routes⟩) := by
  unfold publishTableRoutes
  dsimp only
  rw [h, if_neg Bool.false_ne_true]
  unfold checkTableRoutesIsValid at h ⊢
  by_cases hcount : table.tableId < 0 ∨ table.shardCount ≤ 0 ∨
      (table.routes.length : Int) ≠ table.shardCount
  · rw [if_pos hcount] at h
    exact Bool.noConfusion (show true = false from h)
  rw [if_neg hcount] at h ⊢
  dsimp only at h ⊢
  by_cases hforeign : (s.sort table.routes).any fun route => route.shardId.tableId != table.tableId
  · rw [if_pos hforeign] at h
    exact Bool.noConfusion (show true = false from h)
  rw [if_neg hforeign] at h ⊢
  exact ⟨by omega, by omega, (divides_of_check h).2, rfl⟩

/-- **Routing is total and unambiguous**: every number of shards gives ranges that pass the check; in ranges that
pass it the search finds the one range of a bucket; and an accepted route table, whatever the order of its
routes, leads every key to the one route whose range has the key's bucket. -/
theorem shard_routing :
    (∀ count : Int, 1 ≤ count → count ≤ hashBucketCount →
      (checkShardRangesIsValid count (makeShardRanges count)).fail = false) ∧
    (∀ count ranges bucket, (checkShardRangesIsValid count ranges).fail = false → bucket < hashBucketCount →
      ∃ r, ranges[findShardRange ranges bucket]? = some r ∧ r.range.contains bucket = true ∧
        ∀ (j : Nat) r', ranges[j]? = some r' → r'.range.contains bucket = true →
          j = findShardRange ranges bucket) ∧
    (∀ s table published key, (checkTableRoutesIsValid s table).1.fail = false →
      (publishTableRoutes s table published).1.fail = false ∧
      ∃ route ∈ table.routes, route.hashRange.contains (hashBucketForKey key) = true ∧
        (∀ other ∈ table.routes, other.hashRange.contains (hashBucketForKey key) = true → other = route) ∧
        (route.replicas ≠ [] →
          lookupCachedRoute (publishTableRoutes s table published).2 key = .ok route)) := by
  refine ⟨fun count hpos hle => checkShardRangesIsValid_make hpos hle, ?_, ?_⟩
  · intro count ranges bucket hcheck hbucket
    exact findShardRange_spec (divides_of_check hcheck).2 hbucket
  · intro s table published key hcheck
    obtain ⟨htable, hcount, hdivides, hpublished⟩ := publishTableRoutes_of_check hcheck published
    obtain ⟨r, hr, hcontains, hunique⟩ := findShardRange_spec hdivides (hashBucketForKey_lt key)
    -- the ranges and the routes are aligned
    rw [List.getElem?_map, Option.map_eq_some_iff] at hr
    obtain ⟨route, hroute, rfl⟩ := hr
    rw [hpublished]
    refine ⟨rfl, route, (s.perm table.routes).mem_iff.mp (List.mem_of_getElem? hroute), hcontains, ?_, ?_⟩
    · intro other hother hin
      obtain ⟨j, hj⟩ := List.mem_iff_getElem?.mp ((s.perm table.routes).mem_iff.mpr hother)
      have hpos := hunique j (rangeOf other) (by rw [List.getElem?_map, hj]; rfl) hin
      rw [← hpos, hj, Option.some.injEq] at hroute
      exact hroute
    · intro hreplicas
      unfold lookupCachedRoute
      dsimp only
      rw [if_neg (by omega), hroute]
      exact if_neg hreplicas

/-- Two shards, the second one first. -/
def pairRoutes : TableRouteInfo where
  tableId := 7
  shardCount := 2
  routes := [ { shardId := ⟨7, 1⟩, replicas := [{}], hashRange := ⟨32768, 65536⟩ },
    { shardId := ⟨7, 0⟩, replicas := [{}], hashRange := ⟨0, 32768⟩ } ]

theorem pair_routes_resolve : (checkTableRoutesIsValid .insertion pairRoutes).1.fail = false ∧
    ∃ route ∈ pairRoutes.routes, route.hashRange.contains (hashBucketForKey [1]) = true ∧
      lookupCachedRoute (publishTableRoutes .insertion pairRoutes {}).2 [1] = .ok route := by
  have hcheck : (checkTableRoutesIsValid .insertion pairRoutes).1.fail = false := by decide +kernel
  obtain ⟨-, route, hroute, hcontains, -, hlookup⟩ :=
    shard_routing.2.2 .insertion pairRoutes {} [1] hcheck
  refine ⟨hcheck, route, hroute, hcontains, hlookup ?_⟩
  have hreplicas : ∀ r ∈ pairRoutes.routes, r.replicas ≠ [] := by decide
  exact hreplicas route hroute

end AdvisKV.Sdk
