import AdvisKV.Meta.InitialMembers
import AdvisKV.Meta.Tasks

/-!
# AdvisKV — stored routes

A round of the route reconciler stores a route for a shard or deletes the one it has. A stored route starts with
the leader of the highest observed term; two leaders of that term leave the shard without a route. That the
replicas of a route are voters is not looked up but follows from what Meta heard: the observed types of the
desired members are those of the last accepted report, and a READY record is one of a desired member.

Main results:

* `checkShardRoute_spec` — the route a round stores, from the data it reads.
* `stored_route_backed` — the evidence behind a stored route, in every run.
-/

namespace AdvisKV.Meta

variable {t : MetaStoreTxn} {r : Replica} {shard : ShardID}

/-! ## Entries -/

/-- The replica is assigned to a node that is ONLINE; an empty id stands for no node. -/
def OnOnlineNode (t : MetaStoreTxn) (r : Replica) : Prop :=
  r.spec.assignNodeId ≠ [] ∧ ∃ node, t.getNode r.spec.assignNodeId = some node ∧ node.state.status = .online

/-- A READY replica on an ONLINE node, observed as a voter. -/
structure Routable (t : MetaStoreTxn) (r : Replica) (o : ReplicaObserved) : Prop where
  ready : r.state.phase = .ready
  online : OnOnlineNode t r
  observed : t.getReplicaObserved r.replicaId = some o
  voter : o.memberType = .voter

variable {e : RouteReplica × Nat} {route : ShardRoute} {reports : LastReports}

/-- What gets into a route: a READY replica that votes, on a node that is ONLINE. -/
theorem routeEntry_eq_some_iff :
    routeEntry t r = some e ↔ ∃ o, Routable t r o ∧ e = (⟨r.replicaId, o.endpoint, o.raftRole⟩, o.term) := by
  unfold routeEntry
  constructor
  · intro h
    split at h
    · cases h
    next hready =>
      rw [not_or, not_not] at hready
      split at h
      next node o hnode hobserved =>
        split at h
        · cases h
        next honline =>
          rw [not_or, not_not, not_not] at honline
          exact ⟨o, ⟨hready.1, ⟨hready.2, node, hnode, honline.1⟩, hobserved, honline.2⟩, (Option.some.inj h).symm⟩
      · cases h
  · rintro ⟨o, ⟨hready, ⟨hassigned, node, hnode, honline⟩, hobserved, hvoter⟩, rfl⟩
    simp [hready, hassigned, hnode, honline, hobserved, hvoter]

/-- The entries of a shard, leaders and followers alike. -/
def routeEntries (t : MetaStoreTxn) (shard : ShardID) : List (RouteReplica × Nat) :=
  (t.listReplicasByShard shard).filterMap (routeEntry t)

/-- So the entries are the replicas of the shard that may be routed to. -/
theorem mem_routeEntries : e ∈ routeEntries t shard ↔
    ∃ r o, t.getReplica r.replicaId = some r ∧ shardOf r.replicaId = shard ∧ Routable t r o ∧
      e = (⟨r.replicaId, o.endpoint, o.raftRole⟩, o.term) := by
  unfold routeEntries MetaStoreTxn.listReplicasByShard
  simp only [List.mem_filterMap, List.mem_filter, decide_eq_true_eq, routeEntry_eq_some_iff]
  constructor
  · rintro ⟨r, ⟨hmem, hshard⟩, o, hroutable, heq⟩
    exact ⟨r, o, Keyed.get_eq_some_iff.mpr ⟨hmem, rfl⟩, hshard, hroutable, heq⟩
  · rintro ⟨r, o, hget, hshard, hroutable, heq⟩
    exact ⟨r, ⟨Keyed.mem_of_get hget, hshard⟩, o, hroutable, heq⟩

/-- A replica has one entry. -/
theorem routeEntries_nodup (t : MetaStoreTxn) (shard : ShardID) :
    ((routeEntries t shard).map fun e => e.1.replicaId).Nodup := by
  have hids : ((t.listReplicasByShard shard).map Replica.replicaId).Nodup :=
    t.durable.replicas.nodup.sublist (List.filter_sublist.map _)
  unfold routeEntries
  refine List.Nodup.sublist ?_ hids
  generalize t.listReplicasByShard shard = replicas
  induction replicas with
  | nil => exact List.Sublist.refl _
  | cons r replicas ih =>
    rcases hentry : routeEntry t r with _ | e
    · rw [List.filterMap_cons_none hentry, List.map_cons]
      exact ih.cons _
    · obtain ⟨o, -, rfl⟩ := routeEntry_eq_some_iff.mp hentry
      rw [List.filterMap_cons_some hentry, List.map_cons, List.map_cons]
      exact ih.cons_cons _

/-! ## One round -/

theorem getShardRoute_deleteShardRoute (t : MetaStoreTxn) (shard : ShardID) :
    (t.deleteShardRoute shard).getShardRoute shard = none := by
  unfold MetaStoreTxn.deleteShardRoute
  split
  next hnone => exact Option.isNone_iff_eq_none.mp hnone
  · exact (Keyed.get_erase _ _ _).trans (if_pos rfl)

/-- The fold is the highest term. -/
theorem le_top_term (entries : List (RouteReplica × Nat)) (m : Nat) :
    m ≤ entries.foldl (fun m e => max m e.2) m ∧
      ∀ e ∈ entries, e.2 ≤ entries.foldl (fun m e => max m e.2) m := by
  induction entries generalizing m with
  | nil => exact ⟨le_rfl, fun _ h => absurd h List.not_mem_nil⟩
  | cons e entries ih =>
    obtain ⟨hm, hall⟩ := ih (max m e.2)
    refine ⟨(le_max_left _ _).trans hm, fun e' he' => ?_⟩
    rcases List.mem_cons.mp he' with rfl | he'
    · exact (le_max_right _ _).trans hm
    · exact hall e' he'

/-- **One round.** A stored route is that of a table that is not on its way out. It starts with the only leader of
the highest term, and the followers are other replicas of the shard. -/
theorem checkShardRoute_spec (h : (checkShardRoute t shard).getShardRoute shard = some route) :
    (∃ table, t.getTable shard.tableId = some table ∧ table.state.phase.isAbsent = false) ∧
    ∃ (leader : RouteReplica × Nat) (followers : List (RouteReplica × Nat)),
      route.replicas = leader.1 :: followers.map (fun e => { e.1 with role := .follower }) ∧
      leader ∈ routeEntries t shard ∧ leader.1.role = .leader ∧
      (∀ e ∈ followers, e ∈ routeEntries t shard ∧ e.1.role ≠ .leader) ∧
      (followers.map fun e => e.1.replicaId).Nodup ∧
      ∀ e ∈ routeEntries t shard, e.1.role = .leader → e ≠ leader → e.2 < leader.2 := by
  have hdeleted : (t.deleteShardRoute shard).getShardRoute shard ≠ some route := by
    rw [getShardRoute_deleteShardRoute]
    exact (Option.some_ne_none route).symm
  unfold checkShardRoute at h
  split at h
  · exact absurd h hdeleted
  next table htable =>
    split at h
    · exact absurd h hdeleted
    next hphase =>
      dsimp only at h
      split at h
      next leader htop =>
        let unsorted := (routeEntries t shard).filter fun e => e.1.role = .follower ∨ e.1.role = .preCandidate
        let followers := unsorted.insertionSort fun a b => a.1.replicaId.replicaSeq ≤ b.1.replicaId.replicaSeq
        refine ⟨⟨table, htable, by simpa using not_or.mp hphase |>.1⟩, leader, followers, ?_⟩
        have hroute := (Keyed.get_put _ _ _).symm.trans h
        rw [if_pos rfl] at hroute
        have hfollowers : followers.Perm unsorted := List.perm_insertionSort _ _
        have hleader := List.mem_filter.mp (htop ▸ List.mem_singleton_self leader :
          leader ∈ List.filter _ (List.filter _ (routeEntries t shard)))
        obtain ⟨hmem, hrole⟩ := List.mem_filter.mp hleader.1
        refine ⟨(congrArg ShardRoute.replicas (Option.some.inj hroute)).symm, hmem, of_decide_eq_true hrole,
          ?_, ?_, ?_⟩
        · intro e he
          obtain ⟨hin, hother⟩ := List.mem_filter.mp (hfollowers.subset he)
          refine ⟨hin, fun hlead => ?_⟩
          simp [hlead] at hother
        · exact (hfollowers.map _).nodup_iff.mpr
            ((routeEntries_nodup t shard).sublist (List.filter_sublist.map _))
        · intro e he hlead hne
          -- a leader of the highest term is the one
          have hin : e ∈ (routeEntries t shard).filter fun e => e.1.role = .leader :=
            List.mem_filter.mpr ⟨he, decide_eq_true hlead⟩
          have hle := (le_top_term _ 0).2 e hin
          have htopTerm := of_decide_eq_true hleader.2
          refine lt_of_le_of_ne (htopTerm ▸ hle) fun heq => hne ?_
          have hsingle : e ∈ [leader] := by
            rw [← htop]
            exact List.mem_filter.mpr ⟨hin, decide_eq_true (heq.trans htopTerm)⟩
          exact List.mem_singleton.mp hsingle
      · exact absurd h hdeleted

/-! ## READY records are desired -/

/-- A routable replica is a voter of the last report. -/
theorem Routable.reported {o : ReplicaObserved} (h : Routable t r o)
    (hget : t.getReplica r.replicaId = some r) (hexact : Exact t.durable) (hheeds : Heeds t reports) :
    ∃ report, reports (shardOf r.replicaId) = some report ∧ r.replicaId ∈ report.voters := by
  have hstanding : t.durable.standing r.replicaId = some false := by
    have hget' : t.durable.replicas.get r.replicaId = some r := hget
    rw [DurableData.standing, hget', Option.map_some, h.ready]
    rfl
  have hmember := DurableData.mem_members.mpr (hexact.complete _ hstanding)
  have hvoter : t.observedType r.replicaId = some .voter := by
    rw [MetaStoreTxn.observedType, h.observed, Option.map_some, h.voter]
  obtain ⟨report, hreport, -, hlisted⟩ := hheeds.reported _ _ hmember hvoter
  exact ⟨report, hreport, hlisted⟩

/-! ## The evidence behind a route -/

/-- **Evidence** for the route of a shard, in the data and the last reports. -/
structure Backed (t : MetaStoreTxn) (reports : LastReports) (shard : ShardID) (route : ShardRoute) : Prop where
  table : ∃ table, t.getTable shard.tableId = some table ∧
    (table.state.phase = .creating ∨ table.state.phase = .ready ∨ table.state.phase = .resizing)
  leader : ∃ first rest, route.replicas = first :: rest ∧ first.role = .leader ∧
    (∀ e ∈ rest, e.role ≠ .leader) ∧
    ∃ o, t.getReplicaObserved first.replicaId = some o ∧
      ∀ r o', t.getReplica r.replicaId = some r → shardOf r.replicaId = shard → r.replicaId ≠ first.replicaId →
        Routable t r o' → o'.raftRole = .leader → o'.term < o.term
  entries : ∀ e ∈ route.replicas, ∃ r o report, t.getReplica e.replicaId = some r ∧ shardOf e.replicaId = shard ∧
    Routable t r o ∧ reports shard = some report ∧ e.replicaId ∈ report.voters
  distinct : (route.replicas.map RouteReplica.replicaId).Nodup

theorem TablePhase.of_not_isAbsent {phase : TablePhase} (h : phase.isAbsent = false) :
    phase = .creating ∨ phase = .ready ∨ phase = .resizing := by
  revert h
  cases phase <;> decide

/-- A round's route is backed by the data the round reads. -/
theorem backed_of_checkShardRoute (hexact : Exact t.durable) (hheeds : Heeds t reports)
    (h : (checkShardRoute t shard).getShardRoute shard = some route) :
    Backed t reports shard route := by
  obtain ⟨⟨table, htable, hphase⟩, leader, followers, hreplicas, hleader, hrole, hfollowers, hnodup, hlower⟩ :=
    checkShardRoute_spec h
  have hentry : ∀ e ∈ routeEntries t shard, ∃ r o report, t.getReplica e.1.replicaId = some r ∧
      shardOf e.1.replicaId = shard ∧ Routable t r o ∧ reports shard = some report ∧
      e.1.replicaId ∈ report.voters := by
    intro e he
    obtain ⟨r, o, hget, hshard, hroutable, rfl⟩ := mem_routeEntries.mp he
    obtain ⟨report, hreport, hlisted⟩ := hroutable.reported hget hexact hheeds
    exact ⟨r, o, report, hget, hshard, hroutable, hshard ▸ hreport, hlisted⟩
  constructor
  case table => exact ⟨table, htable, TablePhase.of_not_isAbsent hphase⟩
  case leader =>
    refine ⟨leader.1, _, hreplicas, hrole, ?_, ?_⟩
    · intro e he
      obtain ⟨e', -, rfl⟩ := List.mem_map.mp he
      exact fun hlead => nomatch hlead
    · obtain ⟨r, o, -, -, hroutable, rfl⟩ := mem_routeEntries.mp hleader
      refine ⟨o, hroutable.observed, fun r' o' hget' hshard' hne hroutable' hlead => ?_⟩
      exact hlower _ (mem_routeEntries.mpr ⟨r', o', hget', hshard', hroutable', rfl⟩) hlead
        fun heq => hne (congrArg (fun e : RouteReplica × Nat => e.1.replicaId) heq)
  case entries =>
    intro e he
    rw [hreplicas] at he
    rcases List.mem_cons.mp he with rfl | he
    · exact hentry leader hleader
    · obtain ⟨e', he', rfl⟩ := List.mem_map.mp he
      exact hentry e' (hfollowers e' he').1
  case distinct =>
    rw [hreplicas, List.map_cons, List.map_map, List.nodup_cons]
    refine ⟨fun hmem => ?_, hnodup⟩
    obtain ⟨e, he, hid⟩ := List.mem_map.mp hmem
    obtain ⟨hin, hother⟩ := hfollowers e he
    -- one entry for a replica, with one role
    have hsame := List.inj_on_of_nodup_map (routeEntries_nodup t shard) hin hleader hid
    exact hother (hsame ▸ hrole)

/-- Nothing but the routes is written. -/
structure OnlyRoutes (t t' : MetaStoreTxn) : Prop where
  durable : t'.durable = t.durable
  nodes : t'.runtime.nodes = t.runtime.nodes
  observed : t'.runtime.replicaObserveds = t.runtime.replicaObserveds

/-- The check of a shard writes routes only. -/
theorem OnlyRoutes.checkShardRoute (t : MetaStoreTxn) (shard : ShardID) : OnlyRoutes t (checkShardRoute t shard) := by
  have hdelete : OnlyRoutes t (t.deleteShardRoute shard) := by
    unfold MetaStoreTxn.deleteShardRoute
    split
    · exact ⟨rfl, rfl, rfl⟩
    · exact ⟨rfl, rfl, rfl⟩
  unfold Meta.checkShardRoute
  split
  · exact hdelete
  · split
    · exact hdelete
    · dsimp only
      split
      · exact ⟨rfl, rfl, rfl⟩
      · exact hdelete

/-- A route is backed by records and observations, so writing others leaves it backed. -/
theorem OnlyRoutes.backed {t' : MetaStoreTxn} (h : OnlyRoutes t t') (hbacked : Backed t reports shard route) :
    Backed t' reports shard route := by
  have htable (id : Int) : t'.getTable id = t.getTable id := by
    rw [MetaStoreTxn.getTable, h.durable, MetaStoreTxn.getTable]
  have hreplica (id : ReplicaID) : t'.getReplica id = t.getReplica id := by
    rw [MetaStoreTxn.getReplica, h.durable, MetaStoreTxn.getReplica]
  have hnode (id : NodeID) : t'.getNode id = t.getNode id := by
    rw [MetaStoreTxn.getNode, h.nodes, MetaStoreTxn.getNode]
  have hobserved (id : ReplicaID) : t'.getReplicaObserved id = t.getReplicaObserved id := by
    rw [MetaStoreTxn.getReplicaObserved, h.observed, MetaStoreTxn.getReplicaObserved]
  have hroutable (r : Replica) (o : ReplicaObserved) : Routable t' r o ↔ Routable t r o := by
    have honline : OnOnlineNode t' r ↔ OnOnlineNode t r := by
      rw [OnOnlineNode, hnode, OnOnlineNode]
    constructor
    · intro hr
      exact ⟨hr.ready, honline.mp hr.online, (hobserved _).symm.trans hr.observed, hr.voter⟩
    · intro hr
      exact ⟨hr.ready, honline.mpr hr.online, (hobserved _).trans hr.observed, hr.voter⟩
  obtain ⟨htables, hleader, hentries, hdistinct⟩ := hbacked
  simp only [← htable, ← hreplica, ← hobserved, ← hroutable] at htables hleader hentries
  exact ⟨htables, hleader, hentries, hdistinct⟩

/-- **Stored routes are backed by evidence.** In every run of Meta, right after a round for a shard, a route stored
for it is one of a table that is CREATING, READY or RESIZING. Its first entry is its only leader, of a higher term
than any other READY voter on an ONLINE node that is observed as a leader. Its entries are different READY replicas
of the shard on ONLINE nodes that the last accepted report lists as voters. -/
theorem stored_route_backed {c c' : ReportedMeta} (hrun : Machine.Run ReportedMeta.step {} c)
    (hround : c.step (.call (.route shard)) = some c') {route : ShardRoute}
    (hroute : c'.state.txn.getShardRoute shard = some route) : Backed c'.state.txn c'.reports shard route := by
  have hc := ReportedMeta.heeded_run hrun
  have hc' := ReportedMeta.step_heeded hc hround
  obtain ⟨s', hmeta, rfl⟩ := Option.map_eq_some_iff.mp hround
  obtain ⟨f, hf, -, rfl⟩ := MetaState.step_call hmeta
  obtain ⟨-, rfl⟩ := MetaState.background_some hf
  have honly : OnlyRoutes c.state.txn (c.state.leaves (.route shard) (.total fun t => checkShardRoute t shard)).txn :=
    let ⟨hdurable, hnodes, hobserved⟩ := OnlyRoutes.checkShardRoute c.state.txn shard
    ⟨hdurable, hnodes, hobserved⟩
  refine honly.backed (backed_of_checkShardRoute hc.whole.exact ?_ hroute)
  refine hc'.heeds.congr honly.durable.symm fun _ id _ => ?_
  unfold MetaStoreTxn.observedType MetaStoreTxn.getReplicaObserved
  rw [honly.observed]

/-- Replica `seq` of three voters as a leader. -/
def leadsThree (seq : Int) (term : Nat) : HeartBeatReplicaInfo :=
  { replicaId := ⟨0, 0, seq⟩, role := .leader, storageStatus := .ready, term
    fullMembership := [0, 1, 2].map fun seq => { peer := { replicaId := ⟨0, 0, seq⟩ }, memberType := .voter } }

/-- Three replicas: replica 1 was the leader of term 1, replica 0 is that of term 2. The round stores the new
leader and the follower, and not the old leader, which has not reported since. -/
theorem new_leader_routed :
    ∃ (c c' : ReportedMeta) (route : ShardRoute), c.step (.call (.route ⟨0, 0⟩)) = some c' ∧
      c'.state.txn.getShardRoute ⟨0, 0⟩ = some route ∧
      route.replicas.map RouteReplica.replicaId = [⟨0, 0, 0⟩, ⟨0, 0, 2⟩] ∧
      (c'.state.txn.getReplicaObserved ⟨0, 0, 1⟩).map ReplicaObserved.raftRole = some .leader ∧
      Backed c'.state.txn c'.reports ⟨0, 0⟩ route := by
  obtain ⟨c, hc⟩ : ∃ c, Machine.run ReportedMeta.step
      (place 3 ++
        calls [.heartbeat 0 (reportsOf 2 [leadsThree 1 1]), .heartbeat 0 (reportsOf 1 [leadsThree 0 2]),
          .heartbeat 0 (reportsOf 3 [follows 2]), .phases 0]) {} = some c := ⟨_, rfl⟩
  obtain ⟨c', hc'⟩ : ∃ c', c.step (.call (.route ⟨0, 0⟩)) = some c' := by
    cases hc
    exact ⟨_, rfl⟩
  obtain ⟨route, hroute, hids⟩ : ∃ route, c'.state.txn.getShardRoute ⟨0, 0⟩ = some route ∧
      route.replicas.map RouteReplica.replicaId = [⟨0, 0, 0⟩, ⟨0, 0, 2⟩] := by
    cases hc
    cases hc'
    exact ⟨_, rfl, by decide +kernel⟩
  refine ⟨c, c', route, hc', hroute, hids, ?_, stored_route_backed (.of_run hc) hc' hroute⟩
  cases hc
  cases hc'
  decide +kernel

end AdvisKV.Meta
