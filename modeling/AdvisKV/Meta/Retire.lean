import AdvisKV.Meta.Bootstrap

/-!
# AdvisKV — why a member is retired

Once Raft reconfigures a group, a member may only be retired when its leader has said that it is no member any
more, or when it has not become one yet. Meta has no record of that but the observed type, and takes a type of
"no member" for such a statement. Two things make it one without any leader: a replica that is first heard of
after a restart is recorded as no member, and a decision is carried out without looking at the type again.

What Meta was told since its last start is kept beside its state, as `History`.

Main results:

* `hearAll_known` — the observed types after a heartbeat are what the history says.
* `Chronicle.step_accounted` — one step keeps this.
* `retired_on_evidence` — in runs that keep to `Chronicle.Sure`, nobody is retired without evidence.
-/

namespace AdvisKV.Meta

/-! ## History -/

/-- What happened since the last start of Meta: the desired members that an accepted report omitted, those that one
listed, and the replicas that became desired. -/
structure History where
  omitted : List ReplicaID := []
  listed : List ReplicaID := []
  added : List ReplicaID := []
deriving DecidableEq, Repr

/-- **Evidence** that a replica may be retired. -/
def History.Evidence (h : History) (id : ReplicaID) : Prop :=
  id ∈ h.omitted ∨ (id ∈ h.added ∧ id ∉ h.listed)

instance (h : History) (id : ReplicaID) : Decidable (h.Evidence id) := by
  unfold History.Evidence
  infer_instance

/-- An accepted report speaks of every desired member of its group. -/
def History.report (h : History) (group : ReplicaGroup) (info : HeartBeatReplicaInfo) : History :=
  let omits := fun id => decide (reportedType group.shardId info.fullMembership id = .nonMember)
  { h with
    omitted := h.omitted ++ group.desiredMembers.filter fun id => omits id
    listed := h.listed ++ group.desiredMembers.filter fun id => !omits id }

/-- The report of one replica, taken down if it is accepted. -/
def History.hear (h : History) (p : HeartBeatParam) (t : MetaStoreTxn) (info : HeartBeatReplicaInfo) :
    History :=
  match (if hears p t info then accepts t info else none) with
  | none => h
  | some group => h.report group info

/-- All reports of a heartbeat, each heard in the data its predecessors left. -/
def hearAll (now : Int) (p : HeartBeatParam) :
    List HeartBeatReplicaInfo → MetaStoreTxn × History → MetaStoreTxn × History
  | [], x => x
  | info :: infos, (t, h) => hearAll now p infos (applyReportedReplica now p t info, h.hear p t info)

/-- All desired members. -/
def MetaState.desired (s : MetaState) : List ReplicaID :=
  s.data.durable.replicaGroups.entries.flatMap ReplicaGroup.desiredMembers

/-- The history after an action that led from `s` to `s'`. -/
def History.after (h : History) (s s' : MetaState) : MetaAction → History
  | .restart => {}
  | .call (.heartbeat now p) =>
    match updateNodeHeartbeat now s.txn p with
    | .error _ => h
    | .ok t => (hearAll now p p.replicaList (t, h)).2
  | _ => { h with added := h.added ++ s'.desired.filter fun id => id ∉ s.desired }

/-- Meta together with its history. -/
structure Chronicle where
  state : MetaState := {}
  history : History := {}

def Chronicle.step (a : MetaAction) (c : Chronicle) : Option Chronicle :=
  (MetaState.step a c.state).map fun s' => ⟨s', c.history.after c.state s' a⟩

/-! ## Conditions -/

/-- The replica is a desired member of a group that Raft reconfigures. -/
def Reconfigured (d : DurableData) (id : ReplicaID) : Prop :=
  ∃ group, d.replicaGroups.get (shardOf id) = some group ∧ group.mode = .raftReconfig ∧
    id ∈ group.desiredMembers

instance (d : DurableData) (id : ReplicaID) : Decidable (Reconfigured d id) :=
  decidable_of_iff ((d.replicaGroups.get (shardOf id)).any fun g =>
      g.mode = .raftReconfig ∧ id ∈ g.desiredMembers)
    (by simp [Reconfigured, Option.any_eq_true])

/-- **Known first.** A member of a reconfigured group without an observation is first heard of through an accepted
report of its own as the leader. -/
def KnownFirst (now : Int) (p : HeartBeatParam) : List HeartBeatReplicaInfo → MetaStoreTxn → Prop
  | [], _ => True
  | info :: infos, t =>
    (hears p t info = true → Reconfigured t.durable info.replicaId → t.observedType info.replicaId = none →
      (accepts t info).isSome) ∧
    KnownFirst now p infos (applyReportedReplica now p t info)

instance (now : Int) (p : HeartBeatParam) (infos : List HeartBeatReplicaInfo) (t : MetaStoreTxn) :
    Decidable (KnownFirst now p infos t) := by
  induction infos generalizing t with
  | nil => exact isTrue trivial
  | cons info infos ih =>
    have := ih (applyReportedReplica now p t info)
    unfold KnownFirst
    infer_instance

/-- **Still so.** The victims that a decision has named are still observed as no members. -/
def MetaState.StillNoMembers (s : MetaState) : Prop :=
  match s.task with
  | some (.plan (.removeSpecificMembers _ victims)) =>
    ∀ id ∈ victims, Reconfigured s.data.durable id → s.txn.observedType id = some .nonMember
  | _ => True

instance (s : MetaState) : Decidable s.StillNoMembers := by
  unfold MetaState.StillNoMembers
  split
  · infer_instance
  · infer_instance

/-- The condition on a step: heartbeats teach Meta of members through their leader first, and a removal finds
what its decision saw. -/
def Chronicle.Sure (c : Chronicle) : MetaAction → Prop
  | .call (.heartbeat now p) => ∀ t, updateNodeHeartbeat now c.state.txn p = .ok t →
      KnownFirst now p p.replicaList t
  | .call (.carryOut _) => c.state.StillNoMembers
  | _ => True

variable {p : HeartBeatParam} {id : ReplicaID} {s : MetaState}

/-- A heartbeat that is refused teaches nothing. -/
theorem Chronicle.sure_of_error {c : Chronicle} {now : Int} {st : Status}
    (h : updateNodeHeartbeat now c.state.txn p = .error st) : c.Sure (.call (.heartbeat now p)) := by
  intro t ht
  rw [h] at ht
  cases ht

theorem Chronicle.sure_iff_of_ok {c : Chronicle} {now : Int} {t : MetaStoreTxn}
    (h : updateNodeHeartbeat now c.state.txn p = .ok t) :
    KnownFirst now p p.replicaList t ↔ c.Sure (.call (.heartbeat now p)) := by
  constructor
  · intro hknown t' ht'
    rw [h] at ht'
    cases ht'
    exact hknown
  · exact fun hsure => hsure t h

instance (c : Chronicle) (a : MetaAction) : Decidable (c.Sure a) :=
  match a with
  | .call (.heartbeat now p) =>
    match h : updateNodeHeartbeat now c.state.txn p with
    | .error _ => isTrue (Chronicle.sure_of_error h)
    | .ok _ => decidable_of_iff _ (Chronicle.sure_iff_of_ok h)
  | .call (.carryOut _) => inferInstanceAs (Decidable c.state.StillNoMembers)
  | .call (.createDb _) | .call (.dropDb _) | .call (.createTable _ _) | .call (.dropTable _ _) |
    .call (.alterTableReplicaCount _ _) | .call (.registerNode _ _) | .call (.checkNodes _ _ _) |
    .call (.ensureGroup _ _) | .call (.absentTable _) | .call (.phases _) | .call (.route _) |
    .call (.finalizeTable _ _) | .call (.finalizeAbsentTable _ _) | .decide _ | .read | .abandon |
    .restart => isTrue trivial

/-! ## Hearing a heartbeat -/

/-- Whoever is observed as no member of a reconfigured group is so on evidence. -/
def Known (t : MetaStoreTxn) (h : History) : Prop :=
  ∀ id, Reconfigured t.durable id → t.observedType id = some .nonMember → h.Evidence id

/-- Whoever was listed has a number that is not handed out again. -/
def Listed (d : DurableData) (h : History) : Prop := ∀ id ∈ h.listed, Spent d id

variable {t : MetaStoreTxn} {h : History} {p : HeartBeatParam} {info : HeartBeatReplicaInfo}

theorem Reconfigured.member {d : DurableData} (h : Reconfigured d id) :
    id ∈ d.members (shardOf id) := by
  obtain ⟨group, hgroup, -, hmem⟩ := h
  exact DurableData.mem_members.mpr ⟨group, hgroup, hmem⟩

/-- **One report** keeps the types known. -/
theorem hear_known (now : Int) (hplaced : Placed t.durable) (hknown : Known t h)
    (hfirst : hears p t info = true → Reconfigured t.durable info.replicaId →
      t.observedType info.replicaId = none → (accepts t info).isSome) :
    Known (applyReportedReplica now p t info) (h.hear p t info) := by
  obtain ⟨hdurable, htype⟩ := applyReportedReplica_type now p t info
  intro id hid hnon
  rw [hdurable] at hid
  rw [htype id] at hnon
  unfold History.hear
  rcases haccept : (if hears p t info = true then accepts t info else none) with _ | group
  · rw [haccept] at hnon
    dsimp only at hnon
    refine hknown id hid ?_
    unfold heardType at hnon
    split at hnon
    · next hheard =>
      obtain ⟨rfl, hheard⟩ := hheard
      rw [if_pos hheard] at haccept
      rcases hbefore : t.observedType info.replicaId with _ | type
      · -- heard of for the first time, and not as an accepted leader
        have hsome := hfirst hheard hid hbefore
        rw [haccept] at hsome
        cases hsome
      · rw [hbefore] at hnon
        exact hnon
    · exact hnon
  · rw [haccept] at hnon
    have hself : info.replicaId ∈ group.desiredMembers := by
      split at haccept
      · exact (accepts_some haccept).2
      · cases haccept
    dsimp only at hnon
    by_cases hmem : id ∈ group.desiredMembers
    · rw [if_pos ⟨hmem, hplaced.getReplica_member hid.member⟩] at hnon
      have homits : reportedType group.shardId info.fullMembership id = .nonMember := Option.some.inj hnon
      exact Or.inl (List.mem_append_right _ (List.mem_filter.mpr ⟨hmem, by simpa using homits⟩))
    · -- a member of another group: the report does not speak of it
      rw [if_neg fun hboth => hmem hboth.1] at hnon
      have hother : heardType p t info id = t.observedType id := by
        unfold heardType
        rw [if_neg]
        rintro ⟨rfl, -⟩
        exact hmem hself
      rw [hother] at hnon
      rcases hknown id hid hnon with homitted | ⟨hadded, hunlisted⟩
      · exact Or.inl (List.mem_append_left _ homitted)
      · refine Or.inr ⟨hadded, ?_⟩
        intro hlisted
        rcases List.mem_append.mp hlisted with hold | hnew
        · exact hunlisted hold
        · exact hmem (List.mem_filter.mp hnew).1

/-- A report lists desired members only. -/
theorem hear_listed (hplaced : Placed t.durable) (hlisted : Listed t.durable h) :
    Listed t.durable (h.hear p t info) := by
  unfold History.hear
  rcases haccept : (if hears p t info = true then accepts t info else none) with _ | group
  · exact hlisted
  have hgroup : t.durable.replicaGroups.get (shardOf info.replicaId) = some group := by
    split at haccept
    · exact (accepts_some haccept).1
    · cases haccept
  intro id hid
  rcases List.mem_append.mp hid with hold | hnew
  · exact hlisted id hold
  · exact hplaced.spent_member (DurableData.mem_members.mpr ⟨group, hgroup, (List.mem_filter.mp hnew).1⟩)

/-- **A whole heartbeat.** -/
theorem hearAll_known (now : Int) (infos : List HeartBeatReplicaInfo) (hplaced : Placed t.durable)
    (hknown : Known t h) (hlisted : Listed t.durable h) (hfirst : KnownFirst now p infos t) :
    Known (infos.foldl (applyReportedReplica now p) t) (hearAll now p infos (t, h)).2 ∧
      Listed t.durable (hearAll now p infos (t, h)).2 := by
  induction infos generalizing t h with
  | nil => exact ⟨hknown, hlisted⟩
  | cons info infos ih =>
    obtain ⟨hone, hrest⟩ := hfirst
    have hdurable := (applyReportedReplica_type now p t info).1
    have hnext := ih (t := applyReportedReplica now p t info) (h := h.hear p t info)
      (by rw [hdurable]; exact hplaced) (hear_known now hplaced hknown hone)
      (by rw [hdurable]; exact hear_listed hplaced hlisted) hrest
    rw [hdurable] at hnext
    exact hnext

/-! ## Steps -/

namespace Chronicle

/-- The state is whole, and the history accounts for its observed types. -/
structure Accounted (c : Chronicle) : Prop where
  whole : c.state.Whole
  known : Known c.state.txn c.history
  listed : Listed c.state.data.durable c.history

/-- Nothing is known at the start. -/
theorem accounted_start : Accounted {} where
  whole := MetaState.whole_start
  known := by
    rintro id ⟨group, hgroup, -⟩
    cases hgroup
  listed := by
    intro id hid
    cases hid

end Chronicle

/-- A quiet action only adds to the replicas that became desired. -/
theorem History.after_quiet {s' : MetaState} {a : MetaAction} (hquiet : MetaState.quiet a = true) :
    h.after s s' a = { h with added := h.added ++ s'.desired.filter fun id => id ∉ s.desired } := by
  unfold History.after
  split
  · cases hquiet
  · cases hquiet
  · rfl

theorem MetaState.mem_desired :
    id ∈ s.desired ↔ ∃ shard, id ∈ s.data.durable.members shard := by
  constructor
  · intro hid
    obtain ⟨group, hgroup, hmem⟩ := List.mem_flatMap.mp hid
    exact ⟨group.shardId, DurableData.mem_members.mpr ⟨group, Keyed.get_eq_some_iff.mpr ⟨hgroup, rfl⟩, hmem⟩⟩
  · rintro ⟨shard, hid⟩
    obtain ⟨group, hgroup, hmem⟩ := DurableData.mem_members.mp hid
    exact List.mem_flatMap.mpr ⟨group, Keyed.mem_of_get hgroup, hmem⟩

namespace Chronicle

variable {c c' : Chronicle} {a : MetaAction}

theorem step_some (hstep : c.step a = some c') :
    MetaState.step a c.state = some c'.state ∧ c'.history = c.history.after c.state c'.state a := by
  unfold step at hstep
  obtain ⟨s', hs', rfl⟩ := Option.map_eq_some_iff.mp hstep
  exact ⟨hs', rfl⟩

/-- **A heartbeat** that meets the condition keeps the account. -/
theorem known_heard {s : MetaState} {now : Int} (hs : s.Whole) (hknown : Known s.txn h)
    (hlisted : Listed s.data.durable h) (hnode : updateNodeHeartbeat now s.txn p = .ok t)
    (hfirst : KnownFirst now p p.replicaList t) :
    Known (markNoExistReplicas now (applyReportedReplicas now t p) p)
        (hearAll now p p.replicaList (t, h)).2 ∧
      Listed s.data.durable (hearAll now p p.replicaList (t, h)).2 := by
  obtain ⟨hdurable, hobserved⟩ := updateNodeHeartbeat_spec hnode
  have hdurable' : t.durable = s.data.durable := hdurable
  have hplaced : Placed t.durable := hdurable' ▸ hs.exact.toPlaced
  have hknown' : Known t h := by
    intro id hid hnon
    rw [hdurable'] at hid
    refine hknown id hid ?_
    unfold MetaStoreTxn.observedType at hnon ⊢
    rw [← hobserved id]
    exact hnon
  obtain ⟨hall, hbelow⟩ := hearAll_known now p.replicaList hplaced hknown' (hdurable' ▸ hlisted) hfirst
  refine ⟨?_, hdurable' ▸ hbelow⟩
  obtain ⟨hmark, -, htype⟩ := markNoExistReplicas_spec now p (applyReportedReplicas now t p)
  intro id hid hnon
  rw [hmark] at hid
  -- a desired member is not marked
  have hlive : (applyReportedReplicas now t p).durable.standing id ≠ some true := by
    rw [applyReportedReplicas_durable] at hid ⊢
    obtain ⟨group, hgroup, -, hmem⟩ := hid
    rw [hplaced.live _ group hgroup id hmem]
    simp
  rw [htype id hlive] at hnon
  exact hall id hid hnon

/-- Between heartbeats a member of a reconfigured group stays what it was, or joins under a number that no
report has listed. -/
theorem known_quiet {s s' : MetaState} (hs : s.Whole) (hknown : Known s.txn h)
    (hlisted : Listed s.data.durable h) (hquiet : MetaState.quiet a = true) (hmoves : MetaState.Moves s a s') :
    Known s'.txn (h.after s s' a) ∧ Listed s'.data.durable (h.after s s' a) := by
  rw [History.after_quiet hquiet]
  refine ⟨?_, fun id hid => hmoves.spent (hlisted id hid)⟩
  intro id hid hnon
  have hnow := hid.member
  obtain ⟨group', hgroup', hmode', hmem'⟩ := hid
  rcases hmoves.member hs hquiet hgroup' hmem' with ⟨group, hgroup, hmem, htype, hmode⟩ | ⟨hnew, -⟩
  · have hsame : group'.mode = group.mode := by
      rcases hmode with hsame | ⟨-, hvoter⟩
      · exact hsame
      · rw [hvoter] at hnon
        cases hnon
    rcases hknown id ⟨group, hgroup, hsame ▸ hmode', hmem⟩ (htype ▸ hnon) with homitted | ⟨hadded, hunlisted⟩
    · exact Or.inl homitted
    · exact Or.inr ⟨List.mem_append_left _ hadded, hunlisted⟩
  · -- a new member has a number above every listed one
    refine Or.inr ⟨List.mem_append_right _ (List.mem_filter.mpr ⟨?_, ?_⟩), fun hid => hnew (hlisted id hid)⟩
    · exact MetaState.mem_desired.mpr ⟨_, hnow⟩
    · have hbefore : id ∉ s.desired := by
        intro hdesired
        obtain ⟨shard, hmem⟩ := MetaState.mem_desired.mp hdesired
        exact hnew (hs.exact.spent_member hmem)
      simpa using hbefore

/-- **One step** keeps the history an account of the observed types. -/
theorem step_accounted (hc : c.Accounted) (hsure : c.Sure a) (hstep : c.step a = some c') :
    c'.Accounted := by
  obtain ⟨hmeta, hhistory⟩ := step_some hstep
  have hmoves := MetaState.Moves.of_step hc.whole hmeta
  have hwhole := MetaState.step_whole hc.whole hmeta
  obtain ⟨s', h'⟩ := c'
  dsimp only at hmeta hhistory hmoves hwhole
  subst hhistory
  suffices hboth : Known s'.txn (c.history.after c.state s' a) ∧
      Listed s'.data.durable (c.history.after c.state s' a) from ⟨hwhole, hboth.1, hboth.2⟩
  by_cases hquiet : MetaState.quiet a = true
  · exact known_quiet hc.whole hc.known hc.listed hquiet hmoves
  rcases hmoves.loud hquiet with ⟨now, p, t, rfl, hnode, rfl⟩ | ⟨rfl, rfl⟩
  · have hafter : ∀ s', c.history.after c.state s' (.call (.heartbeat now p)) =
        (hearAll now p p.replicaList (t, c.history)).2 := by
      intro s'
      simp only [History.after, hnode]
    rw [hafter]
    obtain ⟨hknown, hlisted⟩ := known_heard hc.whole hc.known hc.listed hnode (hsure t hnode)
    refine ⟨hknown, ?_⟩
    show Listed (markNoExistReplicas now _ p).durable _
    rw [MetaState.heard_durable hnode]
    exact hlisted
  · refine ⟨?_, ?_⟩
    · -- nothing is observed after a restart
      intro id _ hnon
      cases hnon
    · intro id hid
      cases hid

end Chronicle

/-- A step that takes a member out of a wanted group of Raft's carries out a removal that names it. -/
theorem MetaState.Moves.victim {s' : MetaState} {a : MetaAction} (hmoves : Moves s a s') {shard : ShardID}
    {group : ReplicaGroup} (hgroup : s.data.durable.replicaGroups.get shard = some group)
    (hmode : group.mode = .raftReconfig) (htarget : 0 < group.targetReplicaCount)
    (hid : id ∈ group.desiredMembers)
    (hout : ∀ group', s'.data.durable.replicaGroups.get shard = some group' →
      id ∉ group'.desiredMembers) :
    ∃ now victims, a = .call (.carryOut now) ∧ id ∈ victims ∧
      s.task = some (.plan (.removeSpecificMembers shard victims)) := by
  cases hmoves with
  | calls hquiet helsewhere htask => exact absurd hid (hout group (helsewhere.groups.symm ▸ hgroup))
  | heard now p t haction hnode =>
    refine absurd hid (hout group ?_)
    show (markNoExistReplicas now _ p).durable.replicaGroups.get shard = _
    rw [heard_durable hnode]
    exact hgroup
  | tidies hquiet htidies hturns hcatalog hobserved hreports htask =>
    rcases htidies.kept shard group hgroup with ⟨g, hg, hmembers, -⟩ | ⟨-, hempty, -⟩
    · exact absurd (hmembers ▸ hid) (hout g hg)
    · rw [hempty] at hid
      cases hid
  | decided hquiet shard' => exact absurd hid (hout group hgroup)
  | placing hquiet task hread => exact absurd hid (hout group hgroup)
  -- the group may be the one that is retired from, or another
  | retired now haction shard' group' victims hgroup' hvictims hchanges hright =>
    rcases retireMembers_spec now s.txn group' victims with hsame | ⟨hgroups, -⟩
    · refine absurd hid (hout group ?_)
      rw [hsame]
      exact hgroup
    have hshard : group'.shardId = shard' := Keyed.key_of_get hgroup'
    by_cases heq : shard' = shard
    · subst heq
      rw [hgroup] at hgroup'
      cases hgroup'
      have hvictim : id ∈ victims := by
        by_contra hnot
        have hafter := hgroups shard'
        rw [if_pos hshard] at hafter
        exact hout _ hafter (List.mem_filter.mpr ⟨hid, by simpa using hnot⟩)
      -- the other reasons to retire need a target of 0 or the bootstrap mode
      rcases hright with hplan | hzero | hboot
      · exact ⟨now, victims, haction, hvictim, hplan⟩
      · omega
      · rw [hmode] at hboot
        cases hboot
    · have hafter := hgroups shard
      rw [if_neg fun h => heq (hshard.symm.trans h)] at hafter
      exact absurd hid (hout group (hafter.trans hgroup))
  | grown now haction shard' nodes engine hplaced =>
    rcases addMembers_spec now s.txn shard' engine nodes with
      hsame | ⟨group', fresh, hgroup', -, hgroups, -⟩
    · refine absurd hid (hout group ?_)
      rw [hsame]
      exact hgroup
    · have hafter := hgroups shard
      split at hafter
      · next heq =>
        subst heq
        have hsame : group' = group := Option.some.inj (hgroup'.symm.trans hgroup)
        subst hsame
        exact absurd (List.mem_append_left _ hid) (hout _ hafter)
      · exact absurd hid (hout group (hafter.trans hgroup))
  | restarted haction => exact absurd hid (hout group hgroup)

/-- **Nobody is retired without evidence.** In every run whose steps all keep to `Chronicle.Sure`: when a step takes
a member out of a group that Raft reconfigures and that is still wanted, an accepted report since the last start
has omitted that member, or it was added since then and no accepted report has listed it. -/
theorem retired_on_evidence {c c' : Chronicle} {a : MetaAction}
    (hrun : Machine.GuardedRun Chronicle.step Chronicle.Sure {} c) (hsure : c.Sure a)
    (hstep : c.step a = some c') {shard : ShardID} {group : ReplicaGroup}
    (hgroup : c.state.data.durable.replicaGroups.get shard = some group)
    (hmode : group.mode = .raftReconfig) (htarget : 0 < group.targetReplicaCount) {id : ReplicaID}
    (hid : id ∈ group.desiredMembers)
    (hout : ∀ group', c'.state.data.durable.replicaGroups.get shard = some group' →
      id ∉ group'.desiredMembers) :
    id ∈ c.history.omitted ∨ (id ∈ c.history.added ∧ id ∉ c.history.listed) := by
  have hc : c.Accounted :=
    hrun.invariant (fun _ _ _ hc hsure hstep => Chronicle.step_accounted hc hsure hstep)
      Chronicle.accounted_start
  have hmoves := MetaState.Moves.of_step hc.whole (Chronicle.step_some hstep).1
  obtain ⟨now, victims, rfl, hvictim, htask⟩ := hmoves.victim hgroup hmode htarget hid hout
  have hreconfigured : Reconfigured c.state.data.durable id := by
    refine ⟨group, ?_, hmode, hid⟩
    rw [(hc.whole.exact.own shard group hgroup id hid).1]
    exact hgroup
  have hstill : c.state.StillNoMembers := hsure
  unfold MetaState.StillNoMembers at hstill
  rw [htask] at hstill
  exact hc.known id hreconfigured (hstill id hvictim hreconfigured)

/-! ## Two replicas, one too many -/

/-- Replica 0 of the table's shard, which leads these members. -/
def leads (members : List (Int × RaftMemberType)) : HeartBeatReplicaInfo :=
  { replicaId := ⟨0, 0, 0⟩, role := .leader, storageStatus := .ready, term := 1
    fullMembership := members.map fun m =>
      { peer := { replicaId := ⟨0, 0, m.1⟩ }, memberType := m.2 } }

/-- Both replicas are placed and become voters, and the group is turned over to Raft. -/
def twoVoters : List MetaAction :=
  place 2 ++ calls [.heartbeat 0 (reportsOf 1 [leads [(0, .voter), (1, .voter)]]),
    .heartbeat 0 (reportsOf 2 [follows 1]), .phases 0] ++ settle 0

/-- The table then asks for one replica only. -/
def oneTooMany : List MetaAction := twoVoters ++ resize 0 1

/-- The shard's group with these members, of which `target` are wanted. -/
def groupOf (target : Int) (members : List Int) (next : Int) : ReplicaGroup :=
  { shardId := ⟨0, 0⟩, mode := .raftReconfig, targetReplicaCount := target
    desiredMembers := members.map fun seq => ⟨0, 0, seq⟩, seqAllocator := next }

/-- The leader removes replica 1 and reports so; only then is it retired. -/
theorem removed_voter_retired_on_evidence :
    ∃ c c', Chronicle.step (.call (.carryOut 1)) c = some c' ∧
      c.state.data.durable.replicaGroups.get ⟨0, 0⟩ = some (groupOf 1 [0, 1] 2) ∧
      c'.state.data.durable.replicaGroups.get ⟨0, 0⟩ = some (groupOf 1 [0] 2) ∧
      (⟨0, 0, 1⟩ ∈ c.history.omitted ∨
        (⟨0, 0, 1⟩ ∈ c.history.added ∧ ⟨0, 0, 1⟩ ∉ c.history.listed)) := by
  obtain ⟨c, hc⟩ : ∃ c, Machine.runGuarded Chronicle.step (fun c a => decide (c.Sure a))
      (oneTooMany ++ [.call (.heartbeat 1 (reportsOf 1 [leads [(0, .voter)]])), .decide ⟨0, 0⟩]) {} =
        some c := ⟨_, rfl⟩
  obtain ⟨c', hc'⟩ : ∃ c', Chronicle.step (.call (.carryOut 1)) c = some c' := by
    cases hc
    exact ⟨_, rfl⟩
  have hbefore : c.state.data.durable.replicaGroups.get ⟨0, 0⟩ = some (groupOf 1 [0, 1] 2) := by
    cases hc
    decide +kernel
  have hafter : c'.state.data.durable.replicaGroups.get ⟨0, 0⟩ = some (groupOf 1 [0] 2) := by
    cases hc
    cases hc'
    decide +kernel
  have hsure : c.Sure (.call (.carryOut 1)) := by
    cases hc
    decide +kernel
  have hrun := (Machine.GuardedRun.of_runGuarded hc).mono fun _ _ h => of_decide_eq_true h
  refine ⟨c, c', hc', hbefore, hafter, ?_⟩
  refine retired_on_evidence hrun hsure hc' hbefore rfl (by decide) (by decide) ?_
  intro group' hgroup'
  rw [hafter] at hgroup'
  cases hgroup'
  decide

/-- Meta restarts, hears of replica 1 from its own node and retires it, although it is a voter and no report has
been accepted since. And a replica that is added after a restart is retired although its leader has listed it
between the decision and the removal. -/
theorem retired_without_evidence :
    (∃ c c', Machine.Run Chronicle.step {} c ∧ Chronicle.step (.call (.carryOut 1)) c = some c' ∧
      c.state.data.durable.replicaGroups.get ⟨0, 0⟩ = some (groupOf 1 [0, 1] 2) ∧
      c'.state.data.durable.replicaGroups.get ⟨0, 0⟩ = some (groupOf 1 [0] 2) ∧ c.history = {}) ∧
    ∃ c c', Machine.Run Chronicle.step {} c ∧ Chronicle.step (.call (.carryOut 50002)) c = some c' ∧
      c.state.data.durable.replicaGroups.get ⟨0, 0⟩ = some (groupOf 2 [0, 1, 2] 3) ∧
      c'.state.data.durable.replicaGroups.get ⟨0, 0⟩ = some (groupOf 2 [0, 1] 3) ∧
      c.history.omitted = [] ∧ ⟨0, 0, 2⟩ ∈ c.history.listed := by
  constructor
  · obtain ⟨c, hc⟩ : ∃ c, Machine.run Chronicle.step (oneTooMany ++
        [.restart] ++ calls [.registerNode 1 (nodeOf 1), .registerNode 1 (nodeOf 2),
          .heartbeat 1 (reportsOf 2 [follows 1])] ++ [.decide ⟨0, 0⟩]) {} = some c := ⟨_, rfl⟩
    obtain ⟨c', hc'⟩ : ∃ c', Chronicle.step (.call (.carryOut 1)) c = some c' := by
      cases hc
      exact ⟨_, rfl⟩
    refine ⟨c, c', .of_run hc, hc', ?_⟩
    cases hc
    cases hc'
    decide +kernel
  · obtain ⟨c, hc⟩ : ∃ c, Machine.run Chronicle.step (twoVoters ++
        calls [.heartbeat 50000 (reportsOf 1 []), .checkNodes 0 50000 [[2]], .phases 50000] ++ [.restart] ++
        calls [.registerNode 50000 (nodeOf 1), .registerNode 50000 (nodeOf 3)] ++ grow 50000 ++
        calls [.registerNode 50001 (nodeOf 2), .phases 50001] ++ [.decide ⟨0, 0⟩, .call (.heartbeat 50002
          (reportsOf 1 [leads [(0, .voter), (1, .voter), (2, .learner)]]))]) {} = some c := ⟨_, rfl⟩
    obtain ⟨c', hc'⟩ : ∃ c', Chronicle.step (.call (.carryOut 50002)) c = some c' := by
      cases hc
      exact ⟨_, rfl⟩
    refine ⟨c, c', .of_run hc, hc', ?_⟩
    cases hc
    cases hc'
    decide +kernel

end AdvisKV.Meta
