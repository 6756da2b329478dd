import AdvisKV.Group.Files
import AdvisKV.Lib.Ballot
import AdvisKV.Model.SampleCodec

/-!
# AdvisKV — elections of a fixed group

The terms, votes and leaders of a group form a ballot. A replica moves it with its own handlers only: it
enters a term, votes in it, or finds a majority of votes for itself; and what a restart reads back of its
hard state is what it had put into the ballot.

Main results:

* `Micro.votes` — one move of a core, on the ballot.
* `GroupState.Ballots.move` — one move of the group.
* `one_leader_per_term` — over a whole run, a term has at most one leader.
-/

namespace AdvisKV

/-! ## Voters -/

def Group.voterIds (g : Group) : Finset ReplicaID := (g.voters.map PeerMember.replicaId).toFinset

/-- Created as voters, the members are the voters. -/
theorem Group.voters_members (g : Group) : g.members.voters = g.voters := by
  have hall : (g.voters.map fun p => (⟨p, .voter⟩ : RaftMember)).filter
      (fun x => x.memberType == .voter) = g.voters.map fun p => ⟨p, .voter⟩ := by
    rw [List.filter_eq_self]
    intro x hx
    obtain ⟨p, -, rfl⟩ := List.mem_map.mp hx
    rfl
  rw [members, RaftMembership.voters, RaftMembership.resetVoters, hall, List.map_map]
  exact List.map_id _

/-- The check a core makes before it counts a vote. -/
theorem Group.mem_voterIds {g : Group} {id : ReplicaID} (h : g.members.isVoter id = true) :
    id ∈ g.voterIds := by
  unfold RaftMembership.isVoter RaftMembership.memberType at h
  rcases hfind : g.members.findRaftMember id with - | x
  · rw [hfind] at h
    cases h
  · have hmem := List.mem_of_find?_eq_some hfind
    have hid := List.find?_some hfind
    obtain ⟨p, hp, rfl⟩ := List.mem_map.mp hmem
    rw [voterIds, List.mem_toFinset]
    exact List.mem_map.mpr ⟨p, hp, by simpa using hid⟩

/-- A quorum of voters is a majority, whether or not the list names a voter twice. -/
theorem Group.majority_of_quorum {g : Group} {Q : Finset ReplicaID} (hsub : Q ⊆ g.voterIds)
    (hquorum : g.members.hasQuorum Q.card = true) : Majority g.voterIds Q := by
  refine ⟨hsub, ?_⟩
  have hcard : g.voterIds.card ≤ g.voters.length := by
    have := List.toFinset_card_le (g.voters.map PeerMember.replicaId)
    rwa [List.length_map] at this
  have hsize : g.voters.length / 2 + 1 ≤ Q.card := by
    rw [RaftMembership.hasQuorum, RaftMembership.quorumSize, g.voters_members] at hquorum
    exact of_decide_eq_true hquorum
  omega

/-! ## One core -/

/-- The election state of replica `id` is what the ballot says of it. -/
structure RaftElection.Votes (g : Group) (b : Ballot ReplicaID) (id : ReplicaID) (e : RaftElection) :
    Prop where
  term : b.term id = e.currentTerm
  vote : b.vote e.currentTerm id = e.votedFor
  granted : e.role = .candidate → ∀ u ∈ e.grantedVoters,
    u ∈ g.voterIds ∧ b.vote e.currentTerm u = some id
  leads : e.role = .leader → b.lead e.currentTerm = some id

/-- The same of a ballot that replica `id` has moved, fairly. -/
abbrev RaftElection.VotesAfter (g : Group) (b : Ballot ReplicaID) (id : ReplicaID) (e : RaftElection) : Prop :=
  ∃ b', Ballot.Moved id b b' ∧ b'.Fair g.voterIds ∧ e.Votes g b' id

section

variable {g : Group} {b : Ballot ReplicaID} {id : ReplicaID} {e : RaftElection}

/-- In a fair ballot nobody has voted in a term ahead of its own. -/
theorem RaftElection.Votes.ahead (h : e.Votes g b id) (hb : b.Fair g.voterIds) {t : Nat}
    (ht : e.currentTerm < t) : b.vote t id = none := by
  by_contra hvote
  have := hb.entered hvote
  rw [h.term] at this
  omega

/-- Following: a later term is entered without a vote, in the same term the vote stays. -/
theorem RaftElection.Votes.becomeFollower (h : e.Votes g b id) (hb : b.Fair g.voterIds) {t : Nat}
    (ht : e.currentTerm ≤ t) :
    (e.becomeFollower t).VotesAfter g b id := by
  unfold RaftElection.becomeFollower
  split
  · exact ⟨b, .refl id b, hb, h.term, h.vote, (fun hr => by cases hr), fun hr => by cases hr⟩
  · next hne =>
    refine ⟨b.raise id t, .raise b id t, hb.raise (h.term ▸ ht), Ballot.raise_term_self b id t, ?_,
      (fun hr => by cases hr), fun hr => by cases hr⟩
    have hlt : e.currentTerm < t := by omega
    exact h.ahead hb hlt

/-- A candidate enters the next term and votes for itself. -/
theorem RaftElection.Votes.becomeCandidate (h : e.Votes g b id) (hb : b.Fair g.voterIds)
    (hself : e.selfId = id) (hvoter : id ∈ g.voterIds) :
    e.becomeCandidate.VotesAfter g b id := by
  have hterm := Ballot.raise_term_self b id (e.currentTerm + 1)
  have hfree : (b.raise id (e.currentTerm + 1)).vote ((b.raise id (e.currentTerm + 1)).term id) id = none := by
    rw [hterm]
    exact h.ahead hb (by omega)
  have hvoted : ((b.raise id (e.currentTerm + 1)).grant id id).vote (e.currentTerm + 1) id = some id := by
    have := Ballot.grant_vote_self (b.raise id (e.currentTerm + 1)) id id
    rwa [hterm] at this
  refine ⟨(b.raise id (e.currentTerm + 1)).grant id id,
    (Ballot.Moved.raise b id _).trans (.grant (.inl hfree)),
    (hb.raise (by rw [h.term]; omega)).grant (.inl hfree), hterm, ?_, fun _ u hu => ?_,
    fun hr => by cases hr⟩
  · show _ = some e.selfId
    rw [hself]
    exact hvoted
  · have hu' : u = id := (Finset.mem_singleton.mp hu).trans hself
    subst hu'
    exact ⟨hvoter, hvoted⟩

/-- A vote is given once, or again to the same candidate. -/
theorem RaftElection.Votes.grantVote (h : e.Votes g b id) (hb : b.Fair g.voterIds) {c : ReplicaID}
    (hfree : e.canGrantVoteTo c = true) :
    RaftElection.VotesAfter g b id { e with votedFor := some c } := by
  have hvote : b.vote (b.term id) id = none ∨ b.vote (b.term id) id = some c := by
    rw [h.term, h.vote]
    unfold RaftElection.canGrantVoteTo at hfree
    split at hfree
    · next hnone => exact .inl hnone
    · next v hv =>
      rw [beq_iff_eq] at hfree
      exact .inr (hfree ▸ hv)
  have hmoved := Ballot.Moved.grant hvote
  refine ⟨b.grant id c, hmoved, hb.grant hvote, h.term, ?_, fun hr u hu => ?_, h.leads⟩
  · have := Ballot.grant_vote_self b id c
    rwa [h.term] at this
  · exact ⟨(h.granted hr u hu).1, hmoved.voted (h.granted hr u hu).2⟩

/-- The votes counted are in the ballot, so a quorum of them elects. -/
theorem RaftElection.Votes.becomeLeader (h : e.Votes g b id) (hb : b.Fair g.voterIds)
    (hrole : e.role = .candidate) (hquorum : g.members.hasQuorum e.grantedVoters.card = true) :
    e.becomeLeader.VotesAfter g b id := by
  have hmajority := Group.majority_of_quorum (fun u hu => (h.granted hrole u hu).1) hquorum
  have hvotes : ∀ u ∈ e.grantedVoters, b.vote (b.term id) u = some id := by
    intro u hu
    rw [h.term]
    exact (h.granted hrole u hu).2
  refine ⟨b.elect id, .elect hb hmajority hvotes, hb.elect hmajority hvotes, h.term, h.vote,
    (fun hr => by cases hr), fun _ => ?_⟩
  have := Ballot.elect_lead_self b id
  rwa [h.term] at this

/-- A granted vote that reaches a replica was cast for it. -/
def CoreEvent.Counts (b : Ballot ReplicaID) (id : ReplicaID) : CoreEvent → Prop
  | .voteResponse sender result => result.voteGranted = true → b.vote result.term sender = some id
  | _ => True

variable {ev : CoreEvent} {codec : SnapshotCodec} {l : ReplicaLoop} {param : RequestVoteParam}

theorem CoreEvent.Counts.mono {b' : Ballot ReplicaID} (h : ev.Counts b id) (hmoved : Ballot.Moved id b b') :
    ev.Counts b' id := by
  cases ev with
  | voteResponse sender result => exact fun hgranted => hmoved.voted (h hgranted)
  | _ => trivial

/-- **One move of a core.** -/
theorem Micro.votes {s s' : CoreState} (hmove : Micro ev s s') (hc : s.core.Regular g id)
    (hb : b.Fair g.voterIds) (h : s.core.election.Votes g b id) (hev : ev.Counts b id) :
    s'.core.election.VotesAfter g b id := by
  have hself : s.core.membership.isVoter s.core.selfId = true → id ∈ g.voterIds := by
    rw [hc.self, hc.membership]
    exact Group.mem_voterIds
  cases hmove with
  | follow term hle =>
    rw [CoreState.becomeFollower_core]
    exact h.becomeFollower hb hle
  | preCandidate ready voter role =>
    exact ⟨b, .refl id b, hb, h.term, h.vote, (fun hr => by cases hr), fun hr => by cases hr⟩
  | preVoteCounted sender role =>
    refine ⟨b, .refl id b, hb, h.term, h.vote, h.granted, h.leads⟩
  | candidate ready voter role => exact h.becomeCandidate hb hc.electionSelf (hself voter)
  -- the reply says in which term the vote was cast, and only one of this term is counted
  | voteCounted sender result event role term granted voter =>
    subst event
    refine ⟨b, .refl id b, hb, h.term, h.vote, fun hr u hu => ?_, h.leads⟩
    rcases Finset.mem_insert.mp hu with rfl | hold
    · rw [hc.membership] at voter
      exact ⟨Group.mem_voterIds voter, term ▸ hev granted⟩
    · exact h.granted hr u hold
  | lead ready voter role quorum =>
    rw [hc.membership] at quorum
    exact h.becomeLeader hb role quorum
  | grantVote param event ready voter candidate term log free => exact h.grantVote hb free
  | accept param log r event role term member prev merged =>
    rw [(CoreState.acceptAppend_core (s.storeMerge log r) param.leaderCommit).2.2.1]
    exact ⟨b, .refl id b, hb, h⟩
  | install header event =>
    refine ⟨b, .refl id b, hb, ?_⟩
    simpa [CoreState.installSnapshot] using h
  | _ => exact ⟨b, .refl id b, hb, h⟩

/-- A handler, by induction on its moves. -/
theorem CoreEvent.step_votes {c : RaftCore} (hreg : ev.Regular g) (hc : c.Regular g id)
    (hb : b.Fair g.voterIds) (h : c.election.Votes g b id) (hev : ev.Counts b id) :
    (ev.step { core := c }).core.election.VotesAfter g b id := by
  refine (CoreEvent.step_induction
    (P := fun s => s.core.Regular g id ∧ s.core.election.VotesAfter g b id) ?_ ⟨hc, b, .refl id b, hb, h⟩).2
  rintro s s' hmove ⟨hs, b₁, hmoved, hb₁, h₁⟩
  obtain ⟨b₂, hmoved', hb₂, h₂⟩ := hmove.votes hs hb₁ h₁ (hev.mono hmoved)
  exact ⟨hmove.regular hreg hs, b₂, hmoved.trans hmoved', hb₂, h₂⟩

/-! ## One loop -/

/-- Only the handler of its event touches the election state of a replica; installing a snapshot does not. -/
theorem ReplicaLoop.Change.election {ev : LoopEvent} {s : ReplicaState} (h : ReplicaLoop.Change codec l ev s) :
    s.core.election = l.state.core.election ∨
      ∃ e, Runs ev e ∧ s.core.election = (e.step { core := l.state.core }).core.election := by
  have hinstall : ∀ (s : ReplicaState) (header : SnapshotHeader),
      (s.executeEvent (.installSnapshot header)).2.1.core.election = s.core.election := by
    intro s header
    rw [ReplicaState.executeEvent_core]
    simp [CoreEvent.step, CoreState.installSnapshot]
  have hprepare : ∀ param, (l.state.executeEvent (.prepareInstallSnapshot param)).2.1.core.election =
      ((CoreEvent.prepareInstallSnapshot param).step { core := l.state.core }).core.election := by
    intro param
    rw [ReplicaState.executeEvent_core]
  cases h with
  | idle => exact .inl rfl
  | runs hruns => exact .inr ⟨_, hruns, by rw [ReplicaState.executeEvent_core]⟩
  | received hr hrestore =>
    refine .inr ⟨_, .prepare, ?_⟩
    rw [ReplicaState.finishInstallSnapshot_of_restore hrestore, hinstall,
      ReplicaState.prepareInstallSnapshot_eq]
    exact hprepare _
  | stale => exact .inl rfl
  | captured => exact .inl (hinstall _ _)
  | unrestorable hr hrefused =>
    refine .inr ⟨_, .prepare, ?_⟩
    rw [ReplicaState.finishInstallSnapshot_of_error hrefused, ReplicaState.prepareInstallSnapshot_eq]
    exact hprepare _

/-- Applying may make a replica step down, in its term. -/
theorem RaftElection.Votes.applies {s s' : ReplicaState} (h : s.core.election.Votes g b id)
    (happlies : ReplicaLoop.Applies s s') : s'.core.election.Votes g b id := by
  have hframe := happlies.frame.1
  rcases hframe.role with hsame | hfollower
  · rw [hsame]
    exact h
  · refine ⟨hframe.term ▸ h.term, ?_, fun hr => ?_, fun hr => ?_⟩
    · rw [hframe.term, hframe.vote]
      exact h.vote
    · rw [hfollower] at hr
      cases hr
    · rw [hfollower] at hr
      cases hr

/-- A granted vote that reaches a loop was cast for its replica. -/
def LoopEvent.Counts (b : Ballot ReplicaID) (id : ReplicaID) : LoopEvent → Prop
  | .voteResponse sender result => result.voteGranted = true → b.vote result.term sender = some id
  | _ => True

theorem ReplicaLoop.Runs.counts {ev : LoopEvent} {e : CoreEvent} (h : ReplicaLoop.Runs ev e)
    (hev : ev.Counts b id) : e.Counts b id := by
  cases h with
  | voteResponse => exact hev
  | _ => trivial

/-- **One iteration.** -/
theorem ReplicaLoop.Regular.votes {F : Published} {ev : LoopEvent} (hl : l.Regular g F id) (hreg : ev.Regular)
    (hb : b.Fair g.voterIds) (h : l.state.core.election.Votes g b id) (hev : ev.Counts b id) :
    (l.iterate g.codec ev).loop.state.core.election.VotesAfter g b id := by
  obtain ⟨s, hchange, happlies⟩ := ReplicaLoop.iterate_change g.codec l ev
  rcases hchange.election with hsame | ⟨e, hruns, hstep⟩
  · rw [← hsame] at h
    exact ⟨b, .refl id b, hb, h.applies happlies⟩
  · obtain ⟨b', hmoved, hb', h'⟩ :=
      CoreEvent.step_votes (hruns.regular hreg).1 hl.state.core hb h (hruns.counts hev)
    rw [← hstep] at h'
    exact ⟨b', hmoved, hb', h'.applies happlies⟩

/-- A vote is granted in the term of the reply, and recorded. -/
theorem CoreState.handleRequestVote_granted {s : CoreState}
    (h : (s.handleRequestVote param).1.voteGranted = true) :
    (s.handleRequestVote param).2.core.election.currentTerm = (s.handleRequestVote param).1.term ∧
      (s.handleRequestVote param).2.core.election.votedFor = some param.fromReplicaId := by
  unfold CoreState.handleRequestVote at h ⊢
  split at h
  · cases h
  split at h
  · cases h
  next hpre hterm =>
  rw [if_neg hpre, if_neg hterm]
  dsimp only at h ⊢
  -- whether the request has raised the term does not matter for what follows
  generalize (if s.core.election.currentTerm < param.term then s.becomeFollower param.term else s) = s₁ at h ⊢
  split at h
  · cases h
  next hlog =>
  rw [if_neg hlog]
  split at h
  · next hfree =>
    rw [if_pos hfree]
    exact ⟨rfl, rfl⟩
  · cases h

/-- A dispatch that failed returns the defaults, which grant nothing. -/
theorem LoopReply.voteResult_replyOf (status : Status) (r : RequestVoteResult) :
    LoopReply.voteResult (ReplicaLoop.replyOf status (some (.vote r))) =
      if status.fail = true then {} else r := by
  cases hfail : status.fail <;> simp [ReplicaLoop.replyOf, LoopReply.voteResult, hfail]

/-- What a granted reply says is in the ballot. -/
theorem RaftElection.Votes.reply (hserving : l.faulted = false)
    (h : (l.iterate codec (.requestVote param)).loop.state.core.election.Votes g b id)
    (hgranted : (LoopReply.voteResult (l.iterate codec (.requestVote param)).reply).voteGranted = true) :
    b.vote (LoopReply.voteResult (l.iterate codec (.requestVote param)).reply).term id =
      some param.fromReplicaId := by
  have hreply : LoopReply.voteResult (l.iterate codec (.requestVote param)).reply =
      (CoreState.handleRequestVote { core := l.state.core } param).1 := by
    simp only [ReplicaLoop.iterate, hserving, Bool.false_eq_true, if_false, ReplicaLoop.handle,
      LoopReply.voteResult_replyOf] at hgranted ⊢
    split at hgranted
    · cases hgranted
    · next hok => exact if_neg hok
  rw [hreply] at hgranted ⊢
  obtain ⟨hterm, hvoted⟩ := CoreState.handleRequestVote_granted hgranted
  have happlies : ReplicaLoop.Applies (l.state.executeEvent (.requestVote param)).2.1
      (l.iterate codec (.requestVote param)).loop.state := by
    simp only [ReplicaLoop.iterate, hserving, Bool.false_eq_true, if_false, ReplicaLoop.endIteration_state,
      ReplicaLoop.answerRead_state]
    exact ReplicaLoop.finishDispatch_applies _ _
  have hframe := happlies.frame.1
  have hterm' := hframe.term
  have hvoted' := hframe.vote
  rw [ReplicaState.executeEvent_core] at hterm' hvoted'
  have hvote := h.vote
  rw [hterm', hvoted'] at hvote
  rw [← hterm, ← hvoted]
  exact hvote

/-! ## The group -/

/-- The ballot of a group: what the replicas hold, in memory or on disk, and the votes on their way. -/
structure GroupState.Ballots (g : Group) (b : Ballot ReplicaID) (s : GroupState) : Prop where
  fair : b.Fair g.voterIds
  running : ∀ {id l}, s.process id = .running l → l.state.core.election.Votes g b id
  down : ∀ {id disk}, s.process id = .down disk → disk.raftMeta = ⟨b.term id, b.vote (b.term id) id⟩
  replies : ∀ {param result}, .voteReply param result ∈ s.packets → result.voteGranted = true →
    b.vote result.term param.toReplicaId = some param.fromReplicaId

namespace GroupState.Ballots

variable {s s' : GroupState} {b' : Ballot ReplicaID}

/-- The replicas that have not moved keep their place in the ballot. -/
theorem others {v : ReplicaID} {e : RaftElection} (h : e.Votes g b v) (hmoved : Ballot.Moved id b b')
    (hv : v ≠ id) : e.Votes g b' v := by
  refine ⟨(hmoved.term hv).trans h.term, (hmoved.vote hv).trans h.vote, fun hr u hu => ?_,
    fun hr => hmoved.led (h.leads hr)⟩
  exact ⟨(h.granted hr u hu).1, hmoved.voted (h.granted hr u hu).2⟩

/-- One process changes and the ballot follows. -/
theorem update (h : s.Ballots g b) (hmoved : Ballot.Moved id b b') (hb : b'.Fair g.voterIds)
    {p : ReplicaProcess} (hprocess : s'.process = Function.update s.process id p)
    (hrunning : ∀ {l}, p = .running l → l.state.core.election.Votes g b' id)
    (hdown : ∀ {disk}, p = .down disk → disk.raftMeta = ⟨b'.term id, b'.vote (b'.term id) id⟩)
    (hreplies : ∀ {param result}, .voteReply param result ∈ s'.packets → result.voteGranted = true →
      .voteReply param result ∈ s.packets ∨
        b'.vote result.term param.toReplicaId = some param.fromReplicaId) : s'.Ballots g b' := by
  refine ⟨hb, fun {v l} hv => ?_, fun {v disk} hv => ?_, fun hsent hgranted => ?_⟩
  · rcases process_of_update hprocess hv with ⟨rfl, hp⟩ | ⟨hid, hv⟩
    · exact hrunning hp
    · exact others (h.running hv) hmoved hid
  · rcases process_of_update hprocess hv with ⟨rfl, hp⟩ | ⟨hid, hv⟩
    · exact hdown hp
    · rw [h.down hv, hmoved.term hid, hmoved.vote hid]
  · rcases hreplies hsent hgranted with hold | hnew
    · exact hmoved.voted (h.replies hold hgranted)
    · exact hnew

/-- No process changes and no vote is granted. -/
theorem network (h : s.Ballots g b) (hprocess : s'.process = s.process)
    (hreplies : ∀ {param result}, .voteReply param result ∈ s'.packets → result.voteGranted = true →
      .voteReply param result ∈ s.packets) : s'.Ballots g b :=
  ⟨h.fair, fun hv => h.running (hprocess ▸ hv), fun hv => h.down (hprocess ▸ hv),
    fun hsent hgranted => h.replies (hreplies hsent hgranted) hgranted⟩

/-- One more packet that grants nothing. -/
theorem post (h : s.Ballots g b) {q : Packet}
    (hq : ∀ {param result}, q = .voteReply param result → result.voteGranted = false) :
    (s.post q).Ballots g b := by
  refine h.network rfl fun {param result} hsent hgranted => ?_
  rcases List.mem_append.mp hsent with hold | hnew
  · exact hold
  · rw [hq (List.mem_singleton.mp hnew).symm] at hgranted
    cases hgranted

theorem handled (h : s.Ballots g b) (handlers : List SnapshotHandler) :
    GroupState.Ballots g b { s with handlers } :=
  h.network rfl fun hsent _ => hsent

variable {l : ReplicaLoop} {ev : LoopEvent} {F : Published}

/-- A process goes on with the election state it had. -/
theorem replace (h : s.Ballots g b) {l' : ReplicaLoop} (hrunning : s.process id = .running l)
    (hsame : l'.state.core.election = l.state.core.election) :
    (s.setProcess id (.running l')).Ballots g b := by
  refine h.update (.refl id b) h.fair rfl (fun hp => ?_) (fun hp => by cases hp) fun hsent _ => .inl hsent
  rw [← ReplicaProcess.running.inj hp, hsame]
  exact h.running hrunning

/-- The votes an event brings are in the ballot. -/
theorem counts (h : s.Ballots g b) (hfed : s.Feeds id ev) : ev.Counts b id := by
  cases ev with
  | voteResponse sender result =>
    obtain ⟨param, rfl, rfl, hsent⟩ := hfed
    exact h.replies hsent
  | _ => trivial

/-- What a regular replica has on disk of its votes. -/
theorem hardState (hl : l.Regular g F id) (h : l.state.core.election.Votes g b id) :
    l.state.persist.raftMeta = ⟨b.term id, b.vote (b.term id) id⟩ := by
  rw [hl.state.files.1, RaftElection.hardState, h.term, h.vote]

/-- One iteration at one replica; the vote it grants goes out after it is in the ballot. -/
theorem dispatch (h : s.Ballots g b) (hreg : s.Regular g F) (hrunning : s.process id = .running l)
    (hserving : l.faulted = false) (hev : ev.Regular) (hfed : s.Feeds id ev) :
    ∃ b', Ballot.Moved id b b' ∧ (s.dispatch g id l ev).Ballots g b' := by
  obtain ⟨b', hmoved, hb, hvotes⟩ :=
    (hreg.running hrunning).votes hev h.fair (h.running hrunning) (h.counts hfed)
  refine ⟨b', hmoved, h.update hmoved hb rfl (fun hp => ReplicaProcess.running.inj hp ▸ hvotes)
    (fun hp => by cases hp) fun {param result} hsent hgranted => ?_⟩
  rcases List.mem_append.mp hsent with hsent | hreply
  · rcases List.mem_append.mp hsent with hold | hnew
    · exact .inl hold
    · obtain ⟨m, -, hm⟩ := List.mem_map.mp hnew
      cases hm
  · cases ev with
    -- the only reply that can grant a vote
    | requestVote request =>
      cases List.mem_singleton.mp hreply
      obtain ⟨rfl, -⟩ := hfed
      exact .inr (hvotes.reply hserving hgranted)
    | preVote request => cases List.mem_singleton.mp hreply
    | appendEntries request => cases List.mem_singleton.mp hreply
    | _ => cases hreply

/-- A crash inside a dispatch: the hard state that was saved is the one the handler left. -/
theorem crashInside (h : s.Ballots g b) (hreg : s.Regular g F) (hrunning : s.process id = .running l)
    (hserving : l.faulted = false) (hev : ev.Regular) (hfed : s.Feeds id ev) (point : CrashPoint) :
    ∃ b', Ballot.Moved id b b' ∧
      (s.crash id (l.state.persist.cutShort (l.iterate g.codec ev).loop.state.persist point)).Ballots g b' := by
  obtain ⟨b', hmoved, hb, hvotes⟩ :=
    (hreg.running hrunning).votes hev h.fair (h.running hrunning) (h.counts hfed)
  obtain ⟨F', -, -, hl', -⟩ := hreg.iterates hrunning hserving hev hfed
  refine ⟨b', hmoved, h.update hmoved hb rfl (fun hp => by cases hp) (fun hp => ?_)
    fun hsent _ => .inl hsent⟩
  rw [← ReplicaProcess.down.inj hp]
  have hmeta := hardState hl' hvotes
  cases point <;> exact hmeta

/-- **Moves.** -/
theorem move (h : s.Ballots g b) (hreg : s.Regular g F) {a : GroupAction} (hstatic : a.Static)
    (hmove : GroupMove g s a s') :
    ∃ b', (∀ {t c}, b.lead t = some c → b'.lead t = some c) ∧ s'.Ballots g b' := by
  cases hmove with
  | @boots id limits disk l down voter booted =>
    refine ⟨b, fun hl => hl, h.update (.refl id b) h.fair rfl (fun hp => ?_) (fun hp => by cases hp)
      fun hsent _ => .inl hsent⟩
    -- the restarted replica is a follower with the hard state of its files
    rw [← ReplicaProcess.running.inj hp, (ReplicaLoop.boot_ok booted).core.election, h.down down]
    exact ⟨rfl, rfl, (fun hr => by cases hr), fun hr => by cases hr⟩
  | joins => cases hstatic
  | @crashes id l running =>
    refine ⟨b, fun hl => hl, h.update (.refl id b) h.fair rfl (fun hp => by cases hp) (fun hp => ?_)
      fun hsent _ => .inl hsent⟩
    rw [← ReplicaProcess.down.inj hp]
    exact hardState (hreg.running running) (h.running running)
  | @crashesInside point a id l ev running serving cause possible =>
    have hinner : a.Static := hstatic
    obtain ⟨b', hmoved, h'⟩ := h.crashInside hreg running serving (hreg.event hinner cause)
      (GroupAction.event_feeds cause) point
    exact ⟨b', hmoved.led, h'⟩
  | dispatches running serving cause =>
    obtain ⟨b', hmoved, h'⟩ := h.dispatch hreg running serving (hreg.event hstatic cause)
      (GroupAction.event_feeds cause)
    exact ⟨b', hmoved.led, h'⟩
  | stops running => exact ⟨b, fun hl => hl, h.replace running rfl⟩
  | timesOut running => exact ⟨b, fun hl => hl, h.replace running rfl⟩
  | workerPosts running => exact ⟨b, fun hl => hl, h.replace running (by rw [(ReplicaLoop.workerPost_step _).state])⟩
  | workerClears running => exact ⟨b, fun hl => hl, h.replace running (by rw [(ReplicaLoop.workerClear_step _).state])⟩
  | voteRefused => exact ⟨b, fun hl => hl, h.post (by rintro _ _ ⟨⟩; rfl)⟩
  | preVoteRefused => exact ⟨b, fun hl => hl, h.post (by rintro _ _ ⟨⟩)⟩
  | appendRefused => exact ⟨b, fun hl => hl, h.post (by rintro _ _ ⟨⟩)⟩
  | chunkRefused => exact ⟨b, fun hl => hl, h.post (by rintro _ _ ⟨⟩)⟩
  | sendsChunk => exact ⟨b, fun hl => hl, h.post (by rintro _ _ ⟨⟩)⟩
  | fails => exact ⟨b, fun hl => hl, (h.handled _).post (by rintro _ _ ⟨⟩)⟩
  | answers => exact ⟨b, fun hl => hl, (h.handled _).post (by rintro _ _ ⟨⟩)⟩
  | chunkIgnored => exact ⟨b, fun hl => hl, h.handled _⟩
  | opens => exact ⟨b, fun hl => hl, h.network rfl fun hsent _ => hsent⟩
  | loadsTerm => exact ⟨b, fun hl => hl, h.handled _⟩

/-- Nobody has voted in a group that has never been started. -/
theorem initial (g : Group) : GroupState.Ballots g {} {} := by
  refine ⟨.empty _, (fun hv => by cases hv), fun {id disk} hv => ?_, fun hsent => by cases hsent⟩
  cases hv
  rfl

end GroupState.Ballots

/-! ## Runs -/

/-- The leaders of `b` and all that has happened since. -/
structure GroupState.Elected (g : Group) (b : Ballot ReplicaID) (s : GroupState) : Prop where
  intro ::
  since : ∃ F b', s.Regular g F ∧ s.Ballots g b' ∧ ∀ {t c}, b.lead t = some c → b'.lead t = some c

/-- One action. -/
theorem GroupState.Elected.step {s s' : GroupState} {a : GroupAction} (h : s.Elected g b)
    (hstatic : a.Static) (hstep : GroupState.step g a s = some s') : s'.Elected g b := by
  obtain ⟨F, b₁, hreg, hballots, hkept⟩ := h.since
  have hmove := GroupMove.of_step hstep
  obtain ⟨F', hreg', -⟩ := hreg.move hstatic hmove
  obtain ⟨b₂, hkept', hballots'⟩ := hballots.move hreg hstatic hmove
  exact ⟨F', b₂, hreg', hballots', fun hl => hkept' (hkept hl)⟩

theorem GroupState.Elected.run {s s' : GroupState} (h : s.Elected g b)
    (hrun : Machine.GuardedRun (GroupState.step g) (fun _ a => a.Static) s s') : s'.Elected g b :=
  Machine.GuardedRun.invariant (fun _ _ _ hinv hstatic hstep => hinv.step hstatic hstep) hrun h

end

/-- Replica `id` is in role LEADER in term `t`. -/
def GroupState.Leads (s : GroupState) (id : ReplicaID) (t : Nat) : Prop :=
  ∃ l, s.process id = .running l ∧ l.state.core.election.role = .leader ∧
    l.state.core.election.currentTerm = t

/-- **Election safety.** -/
theorem one_leader_per_term (g : Group) {s s' : GroupState}
    (hrun : Machine.GuardedRun (GroupState.step g) (fun _ a => a.Static) {} s)
    (hlater : Machine.GuardedRun (GroupState.step g) (fun _ a => a.Static) s s') {t : Nat}
    {id id' : ReplicaID} (hleads : s.Leads id t) (hleads' : s'.Leads id' t) : id = id' := by
  have hstart : GroupState.Elected g {} {} := ⟨_, _, .initial g, .initial g, fun hl => hl⟩
  obtain ⟨F, b, hreg, hballots, -⟩ := (hstart.run hrun).since
  have hnow : s.Elected g b := ⟨F, b, hreg, hballots, fun hl => hl⟩
  obtain ⟨F', b', -, hballots', hkept⟩ := (hnow.run hlater).since
  obtain ⟨l, hl, hrole, rfl⟩ := hleads
  obtain ⟨l', hl', hrole', hterm⟩ := hleads'
  have hfirst := hkept ((hballots.running hl).leads hrole)
  have hsecond := (hballots'.running hl').leads hrole'
  rw [hterm, hfirst] at hsecond
  exact Option.some.inj hsecond

/-- Three voters. -/
def trio : Group where
  codec := sampleCodec {}
  voters := [{ replicaId := ⟨1, 0, 1⟩ }, { replicaId := ⟨1, 0, 2⟩ }, { replicaId := ⟨1, 0, 3⟩ }]
  snapshotLimit := 100

/-- Replica 1 is elected by replica 2, which restarts afterwards. -/
theorem elected_by_two_of_three : ∃ s s',
    Machine.GuardedRun (GroupState.step trio) (fun _ a => a.Static) {} s ∧
    Machine.GuardedRun (GroupState.step trio) (fun _ a => a.Static) s s' ∧
    s.Leads ⟨1, 0, 1⟩ 1 ∧ s'.Leads ⟨1, 0, 1⟩ 1 ∧ (⟨1, 0, 1⟩ : ReplicaID) = ⟨1, 0, 1⟩ := by
  obtain ⟨s, s', hrun, hlater, hleads, hleads'⟩ : ∃ s s',
      Machine.run (GroupState.step trio) [.boot ⟨1, 0, 1⟩ fun _ => 1, .boot ⟨1, 0, 2⟩ fun _ => 1,
        .tick ⟨1, 0, 1⟩, .deliver 0, .deliver 2, .deliver 3, .deliver 5] {} = some s ∧
      Machine.run (GroupState.step trio) [.crash ⟨1, 0, 2⟩, .boot ⟨1, 0, 2⟩ fun _ => 1] s = some s' ∧
      s.Leads ⟨1, 0, 1⟩ 1 ∧ s'.Leads ⟨1, 0, 1⟩ 1 :=
    ⟨_, _, rfl, rfl, ⟨_, rfl, rfl, rfl⟩, ⟨_, rfl, rfl, rfl⟩⟩
  have hstatic : ∀ a ∈ ([.boot ⟨1, 0, 1⟩ fun _ => 1, .boot ⟨1, 0, 2⟩ fun _ => 1,
      .tick ⟨1, 0, 1⟩, .deliver 0, .deliver 2, .deliver 3, .deliver 5] : List GroupAction), a.Static := by
    simp [GroupAction.Static]
  have hstatic' : ∀ a ∈ ([.crash ⟨1, 0, 2⟩, .boot ⟨1, 0, 2⟩ fun _ => 1] : List GroupAction), a.Static := by
    simp [GroupAction.Static]
  have hfirst := Machine.GuardedRun.of_run_of_forall hstatic hrun
  have hthen := Machine.GuardedRun.of_run_of_forall hstatic' hlater
  exact ⟨s, s', hfirst, hthen, hleads, hleads', one_leader_per_term trio hfirst hthen hleads hleads'⟩

end AdvisKV
