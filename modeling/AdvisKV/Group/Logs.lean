import AdvisKV.Group.Elections
import AdvisKV.Lib.Chosen
import AdvisKV.Raft.History

/-!
# AdvisKV — the logs of a fixed group

The terms, votes and logs of a group form one replicated log. A core mirrors its part of it: the log it
keeps stands for the replica's whole log there, what it takes as committed has been chosen, and what a
leader remembers of its peers is what they have acknowledged. A move of the core that merges nothing and
installs nothing is followed by operations of the replicated log.

Main results:

* `Group.Mirrors` — the relation between a core and the replicated log.
* `RaftCore.Mirrors.emits` — what a core sends is backed by the replicated log.
* `Micro.mirrors` — one move of a core.
* `CoreEvent.step_mirrors` — a whole handler.
-/

namespace AdvisKV

open Replicated (lastTerm Grows)

/-- The replicated log of a group. -/
abbrev GroupLog := Replicated ReplicaID LogEntry

/-- No voter is named twice. -/
def Group.Distinct (g : Group) : Prop := (g.voters.map PeerMember.replicaId).Nodup

/-- A sound replicated log of the group: leaders are voters that have entered their terms, and entries
carry their positions. -/
structure Group.Charts (g : Group) (R : GroupLog) : Prop where
  distinct : g.Distinct
  sound : R.Sound g.voterIds
  entered : ∀ {t c}, R.lead t = some c → 0 < t ∧ t ≤ R.term c ∧ c ∈ g.voterIds
  indexed : ∀ {t}, R.lead t ≠ none → RaftLog.ConsecutiveFrom 0 (R.leadLog t)

/-- What a leader of term `T` remembers of its peers is so. -/
def RaftReplication.Tracks (R : GroupLog) (T : ℕ) (r : RaftReplication) : Prop :=
  ∀ u, R.Tracked T u (r.matchIndex u) (r.nextIndex u)

/-- A candidate stands with the log it has, and the votes it counts have been cast. -/
structure RaftElection.Stands (g : Group) (R : GroupLog) (id : ReplicaID) (e : RaftElection) : Prop where
  positive : 0 < e.currentTerm
  cand : R.cand e.currentTerm id = some (R.log id)
  undecided : R.lead e.currentTerm ≠ some id
  granted : ∀ u ∈ e.grantedVoters, u ∈ g.voterIds ∧ R.vote e.currentTerm u = some id

structure RaftElection.Heads (R : GroupLog) (id : ReplicaID) (r : RaftReplication) (e : RaftElection) :
    Prop where
  leading : R.Leading id
  own : (R.start e.currentTerm).length < (R.log id).length
  acked : (R.log id).length ≤ R.acked e.currentTerm id
  tracks : r.Tracks R e.currentTerm

/-- Voter `id` holds its term, its vote and its log. -/
structure Group.Keeps (g : Group) (R : GroupLog) (id : ReplicaID) (e : RaftElection) (l : RaftLog)
    (a : RaftApply) : Prop where
  charts : g.Charts R
  voter : id ∈ g.voterIds
  term : R.term id = e.currentTerm
  vote : R.vote e.currentTerm id = e.votedFor
  log : l.Represents (R.log id)
  held : a.commitIndex ≤ (R.log id).length
  chosen : R.Chosen g.voterIds e.currentTerm ((R.log id).take a.commitIndex)
  compacted : l.snapshotIndex ≤ a.lastApplied
  applied : a.lastApplied ≤ a.commitIndex

/-- Voter `id` holds its part of the replicated log, in whatever role it is. -/
structure Group.Mirrors (g : Group) (R : GroupLog) (id : ReplicaID) (e : RaftElection) (l : RaftLog)
    (a : RaftApply) (r : RaftReplication) : Prop extends Group.Keeps g R id e l a where
  stands : e.role = .candidate → e.Stands g R id
  heads : e.role = .leader → e.Heads R id r

abbrev RaftCore.Mirrors (g : Group) (R : GroupLog) (id : ReplicaID) (c : RaftCore) : Prop :=
  g.Mirrors R id c.election c.raftLog c.raftApply c.replication

/-! ## Messages -/

/-- The sender of a vote request stands with a log that ends as the request says. -/
def RequestVoteParam.Backed (R : GroupLog) (param : RequestVoteParam) : Prop :=
  ∃ ℓ, R.cand param.term param.fromReplicaId = some ℓ ∧ ℓ.length = param.lastLogIndex ∧
    lastTerm ℓ = param.lastLogTerm

/-- An AppendEntries carries a part of its leader's log, and does not probe behind what the receiver may
share with that log unnoticed. -/
structure AppendEntriesParam.Backed (g : Group) (R : GroupLog) (param : AppendEntriesParam) : Prop where
  led : R.lead param.term = some param.fromReplicaId
  inside : param.prevLogIndex + param.entries.length ≤ (R.leadLog param.term).length
  entries : param.entries =
    ((R.leadLog param.term).take (param.prevLogIndex + param.entries.length)).drop param.prevLogIndex
  prevTerm : param.prevLogTerm = lastTerm ((R.leadLog param.term).take param.prevLogIndex)
  reaches : param.entries ≠ [] ∨ (R.start param.term).length < param.prevLogIndex
  held : param.leaderCommit ≤ (R.leadLog param.term).length
  chosen : R.Chosen g.voterIds param.term ((R.leadLog param.term).take param.leaderCommit)
  probed : R.Probed param.term param.toReplicaId param.prevLogIndex

/-- A snapshot on offer covers a chosen part of its leader's log, beyond where the leader was probing. -/
structure InstallSnapshotParam.Backed (g : Group) (R : GroupLog) (param : InstallSnapshotParam) :
    Prop where
  led : R.lead param.term = some param.fromReplicaId
  held : param.snapshotIndex ≤ (R.leadLog param.term).length
  term : lastTerm ((R.leadLog param.term).take param.snapshotIndex) = param.snapshotTerm
  chosen : R.Chosen g.voterIds param.term ((R.leadLog param.term).take param.snapshotIndex)
  probed : ∃ p, p < param.snapshotIndex ∧ R.Probed param.term param.toReplicaId p

def RaftMessage.Backed (g : Group) (R : GroupLog) : RaftMessage → Prop
  | .requestVote _ param => param.Backed R
  | .preVote _ _ => True
  | .appendEntries _ param => param.Backed g R
  | .installSnapshot _ param => param.Backed g R

section

variable {g : Group} {R R' : GroupLog} {id : ReplicaID} {c : RaftCore} {e : RaftElection} {l : RaftLog}
  {a : RaftApply} {r : RaftReplication}

theorem led_of_eq {t : ℕ} {v : ReplicaID} (h : R.lead t = some v) : R.lead t ≠ none := by
  rw [h]
  exact Option.some_ne_none v

theorem RequestVoteParam.Backed.mono {param : RequestVoteParam} (h : param.Backed R)
    (hg : Grows R R') : param.Backed R' := by
  obtain ⟨ℓ, hcand, hrest⟩ := h
  exact ⟨ℓ, hg.cand hcand, hrest⟩

/-- A message on the network stays true while the replicated log grows. -/
theorem AppendEntriesParam.Backed.mono {param : AppendEntriesParam} (h : param.Backed g R)
    (hc : g.Charts R) (hg : Grows R R') : param.Backed g R' := by
  have hled := led_of_eq h.led
  have hgrown := hg.leadLog hled
  have hprev : param.prevLogIndex ≤ (R.leadLog param.term).length := (Nat.le_add_right _ _).trans h.inside
  refine ⟨hg.lead h.led, h.inside.trans hgrown.length_le, ?_, ?_, ?_, h.held.trans hgrown.length_le, ?_,
    h.probed.mono hc.sound hg hled⟩
  · rw [hgrown.take_eq h.inside]
    exact h.entries
  · rw [hgrown.take_eq hprev]
    exact h.prevTerm
  · rw [hg.start hled]
    exact h.reaches
  · rw [hgrown.take_eq h.held]
    exact h.chosen.mono hg le_rfl

/-- So does the offer of a snapshot. -/
theorem InstallSnapshotParam.Backed.mono {param : InstallSnapshotParam} (h : param.Backed g R)
    (hc : g.Charts R) (hg : Grows R R') : param.Backed g R' := by
  have hled := led_of_eq h.led
  have hgrown := hg.leadLog hled
  obtain ⟨p, hp, hprobed⟩ := h.probed
  refine ⟨hg.lead h.led, h.held.trans hgrown.length_le, ?_, ?_, p, hp, hprobed.mono hc.sound hg hled⟩
  · rw [hgrown.take_eq h.held]
    exact h.term
  · rw [hgrown.take_eq h.held]
    exact h.chosen.mono hg le_rfl

theorem RaftMessage.Backed.mono {m : RaftMessage} (h : m.Backed g R) (hc : g.Charts R)
    (hg : Grows R R') : m.Backed g R' := by
  cases m with
  | requestVote target param => exact RequestVoteParam.Backed.mono h hg
  | preVote target param => trivial
  | appendEntries target param => exact AppendEntriesParam.Backed.mono h hc hg
  | installSnapshot target param => exact InstallSnapshotParam.Backed.mono h hc hg

/-! ## Growth -/

/-- Operations that elect nobody and add to no leader's log. -/
theorem Group.Charts.keep (h : g.Charts R) (hsound : R'.Sound g.voterIds) (hg : Grows R R')
    (hlead : R'.lead = R.lead) (hleadLog : R'.leadLog = R.leadLog) : g.Charts R' := by
  refine ⟨h.distinct, hsound, fun {t v} hl => ?_, fun {t} hl => ?_⟩
  · rw [hlead] at hl
    obtain ⟨hpos, hle, hvoter⟩ := h.entered hl
    exact ⟨hpos, hle.trans (hg.term v), hvoter⟩
  · rw [hlead] at hl
    rw [hleadLog]
    exact h.indexed hl

/-- The log and what is applied of it stay; the term does not fall. -/
theorem Group.Keeps.rest {e' : RaftElection} (h : g.Keeps R id e l a) (hc : g.Charts R')
    (hg : Grows R R') (hlog : R'.log id = R.log id) (hle : e.currentTerm ≤ e'.currentTerm)
    (hterm : R'.term id = e'.currentTerm) (hvote : R'.vote e'.currentTerm id = e'.votedFor) :
    g.Keeps R' id e' l a := by
  refine ⟨hc, h.voter, hterm, hvote, hlog ▸ h.log, hlog ▸ h.held, ?_, h.compacted, h.applied⟩
  rw [hlog]
  exact h.chosen.mono hg hle

/-- Neither stands nor leads. -/
theorem Group.Mirrors.passive (h : g.Keeps R id e l a) (hrole : e.role = .follower ∨ e.role = .preCandidate) :
    g.Mirrors R id e l a r := by
  refine ⟨h, fun hr => ?_, fun hr => ?_⟩ <;> rw [hr] at hrole <;> rcases hrole with h | h <;> cases h

namespace Group.Mirrors

/-- A core that has not moved mirrors what others have made of the replicated log. -/
theorem still (h : g.Mirrors R id e l a r) (hc : g.Charts R') (hg : Grows R R')
    (hstill : R.Still id R') : g.Mirrors R' id e l a r := by
  have hlog := hstill.log
  refine ⟨h.rest hc hg hlog le_rfl (hstill.term.trans h.term) ((hstill.vote _).trans h.vote),
    fun hr => ?_, fun hr => ?_⟩
  · have hstands := h.stands hr
    refine ⟨hstands.positive, ?_, fun hlead => hstands.undecided (hstill.lead hlead), fun u hu => ?_⟩
    · rw [hlog]
      exact hg.cand hstands.cand
    · exact ⟨(hstands.granted u hu).1, hg.vote (hstands.granted u hu).2⟩
  · have hheads := h.heads hr
    have hled : R.lead e.currentTerm ≠ none := h.term ▸ hheads.leading.led
    refine ⟨hheads.leading.mono hg hstill, ?_, ?_, fun u => (hheads.tracks u).mono h.charts.sound hg hled⟩
    · rw [hg.start hled, hlog]
      exact hheads.own
    · rw [hlog]
      exact hheads.acked.trans (hg.acked _ _)

/-- A leader's log is the log of its term. -/
theorem leadLog_eq (h : g.Mirrors R id e l a r) (hrole : e.role = .leader) :
    R.leadLog e.currentTerm = R.log id := by
  have hlog := (h.heads hrole).leading.log
  rwa [h.term] at hlog

/-- A leader is the leader of its term. -/
theorem lead_eq (h : g.Mirrors R id e l a r) (hrole : e.role = .leader) :
    R.lead e.currentTerm = some id := by
  have hlead := (h.heads hrole).leading.lead
  rwa [h.term] at hlead

/-- The election state of a core is what the ballot says of it. -/
theorem votes (h : g.Mirrors R id e l a r) : e.Votes g R.toBallot id :=
  ⟨h.term, h.vote, fun hr => (h.stands hr).granted, h.lead_eq⟩

end Group.Mirrors

/-- What a snapshot covers has been committed. -/
theorem Group.Keeps.snapshot_le (h : g.Keeps R id e l a) : l.snapshotIndex ≤ a.commitIndex :=
  h.compacted.trans h.applied

/-! ## Sending -/

/-- The part of a log behind position `p`, cut off after `n` entries. -/
theorem take_drop_eq {ℓ : List LogEntry} {p n : ℕ} :
    (ℓ.drop p).take n = (ℓ.take (p + ((ℓ.drop p).take n).length)).drop p := by
  rw [List.drop_take, Nat.add_sub_cancel_left, List.length_take]
  exact List.take_eq_take_min

namespace RaftCore.Mirrors

/-- An AppendEntries cut from the log of the leader that sends it. -/
theorem cut_backed (h : c.Mirrors g R id) (hrole : c.election.role = .leader)
    {param : AppendEntriesParam} (hfrom : param.fromReplicaId = id)
    (hterm : param.term = c.election.currentTerm) (hcommit : param.leaderCommit = c.raftApply.commitIndex)
    {n : ℕ} (hprev : param.prevLogIndex ≤ (R.log id).length)
    (hentries : param.entries = ((R.log id).drop param.prevLogIndex).take n)
    (hprevTerm : param.prevLogTerm = lastTerm ((R.log id).take param.prevLogIndex))
    (hreaches : param.entries ≠ [] ∨ (R.start c.election.currentTerm).length < param.prevLogIndex)
    (hprobed : R.Probed c.election.currentTerm param.toReplicaId param.prevLogIndex) :
    param.Backed g R := by
  have hleadLog := h.leadLog_eq hrole
  have hlead := h.lead_eq hrole
  have hchosen := h.chosen
  rw [← hterm] at hleadLog hlead hchosen hreaches hprobed
  rw [← hleadLog] at hprev hentries hprevTerm hchosen
  refine ⟨hfrom ▸ hlead, ?_, ?_, hprevTerm, hreaches, ?_, hcommit ▸ hchosen, hprobed⟩
  · rw [hentries, List.length_take, List.length_drop]
    omega
  · conv_rhs => rw [hentries, ← take_drop_eq]
    exact hentries
  · rw [hcommit, hleadLog]
    exact h.held

/-- The AppendEntries for a peer that the leader probes at `next`. -/
theorem appendParam_backed (h : c.Mirrors g R id) (hself : c.selfId = id)
    (hrole : c.election.role = .leader) {target : PeerMember}
    (hnext : 0 < c.replication.nextIndex target.replicaId)
    (hprev : c.raftLog.snapshotIndex ≤ c.replication.nextIndex target.replicaId - 1) :
    (c.appendParam target (c.replication.nextIndex target.replicaId)).Backed g R := by
  have hheads := h.heads hrole
  have htracked := hheads.tracks target.replicaId
  have hbounded := htracked.bounded
  rw [h.leadLog_eq hrole] at hbounded
  set next := c.replication.nextIndex target.replicaId with hdef
  -- the next index is at most one behind the log
  have hin : next - 1 ≤ (R.log id).length := by omega
  have hentries : (c.appendParam target next).entries =
      ((R.log id).drop (next - 1)).take maxAppendEntriesPerMessage :=
    h.log.entriesFrom (by omega)
  refine h.cut_backed hrole hself rfl rfl hin hentries (h.log.termAt hprev hin) ?_ (htracked.probed hnext)
  -- a probe short of the end carries an entry, and the end lies behind the log the leader began with
  rcases Nat.lt_or_ge (next - 1) (R.log id).length with hlt | hge
  · refine .inl fun hnil => ?_
    have hlength := congrArg List.length (hentries.symm.trans hnil)
    rw [List.length_take, List.length_drop, List.length_nil] at hlength
    have hcap : 0 < maxAppendEntriesPerMessage := by decide
    omega
  · exact .inr (hheads.own.trans_le hge)

/-- The AppendEntries that asks a voter to confirm the leader. -/
theorem readParam_backed (h : c.Mirrors g R id) (hself : c.selfId = id)
    (hrole : c.election.role = .leader) (target : PeerMember) (seq : ℕ) :
    (c.readParam target seq).Backed g R := by
  have hlast := h.log.lastLogIndex
  have hown := (h.heads hrole).own
  rw [← hlast] at hown
  refine h.cut_backed (n := 0) hrole hself rfl rfl hlast.le List.take_zero.symm ?_ (.inr hown)
    (.inr (.inl hown.le))
  show c.raftLog.lastLogTerm = lastTerm ((R.log id).take c.raftLog.lastLogIndex)
  rw [hlast, List.take_length]
  exact h.log.lastLogTerm

/-- **What a core sends.** -/
theorem emits (h : c.Mirrors g R id) (hself : c.selfId = id) {ev : CoreEvent} {m : RaftMessage}
    (hm : c.Emits ev m) : m.Backed g R := by
  cases m with
  | requestVote target param =>
    obtain ⟨hrole, rfl⟩ := hm
    exact ⟨R.log id, hself.symm ▸ (h.stands hrole).cand, h.log.lastLogIndex.symm, h.log.lastLogTerm.symm⟩
  | preVote target param => trivial
  | appendEntries target param =>
    obtain ⟨hrole, -, ⟨hnext, hprev, rfl⟩ | ⟨seq, -, -, rfl⟩⟩ := hm
    · exact h.appendParam_backed hself hrole hnext hprev
    · exact h.readParam_backed hself hrole target seq
  | installSnapshot target param =>
    obtain ⟨hrole, -, hnext, hprev, rfl⟩ := hm
    have hleadLog := h.leadLog_eq hrole
    have hlead := h.lead_eq hrole
    have hcovered := h.log.covered
    have hterm := h.log.term.symm
    have hchosen := h.chosen.take (List.take_prefix_take_left h.snapshot_le)
    rw [← hself] at hlead
    rw [← hleadLog] at hcovered hterm hchosen
    exact ⟨hlead, hcovered, hterm, hchosen, _, hprev, ((h.heads hrole).tracks _).probed hnext⟩

end RaftCore.Mirrors

/-! ## What a leader remembers -/

namespace RaftReplication

variable {T : ℕ} {r' : RaftReplication} {u : ReplicaID}

variable {n : ℕ}

/-- One peer gets a new match index and a new next index. -/
theorem Tracks.update (h : r.Tracks R T) {m : ℕ} (hm : r'.matchIndex = Function.update r.matchIndex u m)
    (hn : r'.nextIndex = Function.update r.nextIndex u n) (hu : R.Tracked T u m n) : r'.Tracks R T := by
  intro v
  rw [hm, hn]
  by_cases hvu : v = u
  · subst hvu
    rwa [Function.update_self, Function.update_self]
  · rw [Function.update_of_ne hvu, Function.update_of_ne hvu]
    exact h v

/-- A new next index needs a position that may be probed. -/
theorem Tracks.updateNextIndex (h : r.Tracks R T) (hprobed : R.Probed T u (n - 1))
    (hbounded : n ≤ (R.leadLog T).length + 1) : (r.updateNextIndex u n).Tracks R T :=
  h.update (m := r.matchIndex u) (Function.update_eq_self u r.matchIndex).symm rfl
    ⟨(h u).matched, (h u).synced, fun _ => hprobed, hbounded⟩

/-- A peer has acknowledged what it was sent. -/
theorem Tracks.handlePeerAppendOk (h : r.Tracks R T) {prev : ℕ} (hacked : prev + n ≤ R.acked T u)
    (hsynced : R.Synced T u) (hinside : R.acked T u ≤ (R.leadLog T).length) :
    (r.handlePeerAppendOk u prev n).Tracks R T := by
  have hmatched := (h u).matched
  unfold RaftReplication.handlePeerAppendOk
  dsimp only
  split
  · refine h.update (m := prev + n) (n := prev + n + 1) rfl ?_ (hsynced.tracked hacked (by omega))
    simp [RaftReplication.updateNextIndex, updateMatchIndex]
  · exact h.updateNextIndex (hsynced.probed _) (by omega)

/-- A peer has refused what it was sent: the leader steps back, but not behind what the peer may share. -/
theorem Tracks.handlePeerAppendFailed (h : r.Tracks R T) {followerLast leaderLast prev : ℕ}
    (hfresh : prev + 1 = r.nextIndex u) (hlast : leaderLast = (R.leadLog T).length)
    (hstart : (R.start T).length ≤ leaderLast) (hinside : R.acked T u ≤ (R.leadLog T).length)
    (hfollower : R.Probed T u followerLast) (hback : R.Probed T u (prev - 1)) :
    (r.handlePeerAppendFailed u followerLast leaderLast).Tracks R T := by
  have hmatched := (h u).matched.trans hinside
  have hbounded := (h u).bounded
  unfold RaftReplication.handlePeerAppendFailed
  dsimp only
  refine h.updateNextIndex ?_ ?_
  · rcases Nat.eq_zero_or_pos (r.matchIndex u) with hzero | hpos
    · -- nothing is known to match: the new position is one of the two the reply speaks about
      rw [hzero]
      split
      · next hsmall =>
        rw [max_eq_left (by omega), show r.nextIndex u - 1 - 1 = prev - 1 by omega]
        exact hback
      · rw [max_eq_left (by omega), Nat.add_sub_cancel]
        rcases le_total followerLast leaderLast with hle | hle
        · rwa [min_eq_left hle]
        · rw [min_eq_right hle]
          exact .inr (.inl hstart)
    · exact ((h u).synced hpos).probed _
  · split <;> omega

/-- A peer has installed, or covers, the snapshot it was sent. -/
theorem Tracks.updateSnapshotWatermark (h : r.Tracks R T) {w : ℕ} (hacked : w ≤ R.acked T u)
    (hsynced : R.Synced T u) (hinside : R.acked T u ≤ (R.leadLog T).length) :
    (r.updateSnapshotWatermark u w).Tracks R T :=
  h.update rfl rfl (hsynced.tracked (max_le (h u).matched hacked)
    (max_le (h u).bounded (Nat.succ_le_succ (hacked.trans hinside))))

end RaftReplication

/-! ## Moves of a core -/

/-- The voters a leader counts for an index, itself among them, are a majority. -/
theorem Group.counted (hdistinct : g.Distinct) (hvoter : id ∈ g.voterIds) (p : ReplicaID → Bool)
    (hquorum : g.members.hasQuorum
      (1 + (g.voters.filter fun v => v.replicaId != id && p v.replicaId).length) = true) :
    ∃ Q, Majority g.voterIds Q ∧ ∀ u ∈ Q, u = id ∨ p u = true := by
  set others := (g.voters.filter fun v => v.replicaId != id && p v.replicaId).map PeerMember.replicaId
    with hothers
  have hmem : ∀ {u}, u ∈ others.toFinset → u ∈ g.voterIds ∧ u ≠ id ∧ p u = true := by
    intro u hu
    obtain ⟨v, hv, rfl⟩ := List.mem_map.mp (List.mem_toFinset.mp hu)
    obtain ⟨hv, htest⟩ := List.mem_filter.mp hv
    simp only [Bool.and_eq_true, bne_iff_ne] at htest
    exact ⟨List.mem_toFinset.mpr (List.mem_map_of_mem hv), htest⟩
  have hnodup : others.Nodup := hdistinct.sublist (List.filter_sublist.map _)
  refine ⟨insert id others.toFinset, Group.majority_of_quorum (fun u hu => ?_) ?_, fun u hu => ?_⟩
  · rcases Finset.mem_insert.mp hu with rfl | hin
    · exact hvoter
    · exact (hmem hin).1
  · rw [Finset.card_insert_of_notMem fun hin => (hmem hin).2.1 rfl, List.toFinset_card_of_nodup hnodup,
      hothers, List.length_map, Nat.add_comm]
    exact hquorum
  · exact (Finset.mem_insert.mp hu).imp_right fun hin => (hmem hin).2.2

/-- A new entry carries the term it was made in. -/
theorem newEntry_termOf (term index : ℕ) (param : ProposeParam) :
    termOf (RaftLog.newEntry term index param) = term := by
  cases param <;> rfl

namespace Group.Mirrors

/-- Only what a leader remembers changes, or a timer. -/
theorem idle {r' : RaftReplication} (h : g.Mirrors R id e l a r)
    (htracks : e.role = .leader → r.Tracks R e.currentTerm → r'.Tracks R e.currentTerm) :
    ∃ R', R.Moved id R' ∧ g.Mirrors R' id e l a r' := by
  refine ⟨R, .refl id R, h.toKeeps, h.stands, fun hr => ?_⟩
  obtain ⟨hleading, hown, hacked, hold⟩ := h.heads hr
  exact ⟨hleading, hown, hacked, htracks hr hold⟩

/-- Stepping down, in this term or into a later one. -/
theorem becomeFollower (h : g.Mirrors R id e l a r) {t : ℕ} (ht : e.currentTerm ≤ t) :
    ∃ R', R.Moved id R' ∧ g.Mirrors R' id (e.becomeFollower t) l a r := by
  have hc := h.charts
  unfold RaftElection.becomeFollower
  -- in the same term only the role changes; a new term forgets the vote
  split
  · exact ⟨R, .refl id R, .passive (h.rest hc (.refl R) rfl le_rfl h.term h.vote) (.inl rfl)⟩
  · next hne =>
    have hlt : R.term id < t := by
      rw [h.term]
      omega
    have hmoved := Replicated.Moved.raise hlt.le
    exact ⟨R.raise id t, hmoved, .passive (h.rest (hc.keep (hc.sound.raise hlt.le) hmoved.grows rfl rfl)
      hmoved.grows rfl ht (R.toBallot.raise_term_self id t) (hc.sound.unvoted hlt)) (.inl rfl)⟩

/-- The replica stands in the next term and votes for itself. -/
theorem becomeCandidate (h : g.Mirrors R id e l a r) (hself : e.selfId = id) :
    ∃ R', R.Moved id R' ∧ g.Mirrors R' id e.becomeCandidate l a r := by
  have hc := h.charts
  have hlt : R.term id < e.currentTerm + 1 := by
    rw [h.term]
    exact Nat.lt_succ_self _
  obtain ⟨hsound, hmoved, hvoted⟩ := hc.sound.campaign hlt
  refine ⟨_, hmoved, h.rest (hc.keep hsound hmoved.grows rfl rfl) hmoved.grows rfl (Nat.le_succ _)
    (R.toBallot.raise_term_self id _) (hself.symm ▸ hvoted), fun _ => ?_, fun hr => by cases hr⟩
  refine ⟨Nat.succ_pos _, if_pos ⟨rfl, rfl⟩, fun hlead => ?_, fun u hu => ?_⟩
  · -- nobody leads a term ahead of its own
    have hentered := (hc.entered hlead).2.1
    exact absurd hentered (Nat.not_le.mpr hlt)
  · obtain rfl : u = id := (Finset.mem_singleton.mp hu).trans hself
    exact ⟨h.voter, hvoted⟩

/-- The replica votes for a candidate whose log is as up to date as its own. -/
theorem grantVote (h : c.Mirrors g R id) {param : RequestVoteParam} (hparam : param.Backed R)
    (hterm : c.election.currentTerm = param.term)
    (hlater : c.laterThanOther param.lastLogTerm param.lastLogIndex = false)
    (hfree : c.election.canGrantVoteTo param.fromReplicaId = true) :
    ∃ R', R.Moved id R' ∧ g.Mirrors R' id { c.election with votedFor := some param.fromReplicaId }
      c.raftLog c.raftApply c.replication := by
  obtain ⟨ℓ, hcand, hlength, hlast⟩ := hparam
  have hvote : R.vote (R.term id) id = none ∨ R.vote (R.term id) id = some param.fromReplicaId := by
    rw [h.term, h.vote]
    unfold RaftElection.canGrantVoteTo at hfree
    split at hfree
    · next hnone => exact .inl hnone
    · next v hv =>
      rw [beq_iff_eq] at hfree
      exact .inr (hfree ▸ hv)
  -- the negation of the comparison the code makes, term first and length second
  have hup : Replicated.UpToDate (R.log id) ℓ := by
    unfold RaftCore.laterThanOther at hlater
    rw [h.log.lastLogTerm, h.log.lastLogIndex] at hlater
    rw [Replicated.UpToDate, hlast, hlength]
    split at hlater
    · next hne =>
      have hnot := of_decide_eq_false hlater
      exact .inl (by omega)
    · next heq =>
      have hnot := of_decide_eq_false hlater
      exact .inr ⟨not_not.mp heq, by omega⟩
  have hc := h.charts
  have hmoved := Replicated.Moved.grant hvote
  have hsound : (R.grant id param.fromReplicaId).Sound g.voterIds := by
    refine hc.sound.grant hvote ⟨ℓ, ?_, hup⟩
    rw [h.term, hterm]
    exact hcand
  have hvoted := R.toBallot.grant_vote_self id param.fromReplicaId
  rw [h.term] at hvoted
  refine ⟨R.grant id param.fromReplicaId, hmoved, h.rest (hc.keep hsound hmoved.grows rfl rfl) hmoved.grows rfl
    le_rfl h.term hvoted, fun hr => ?_, fun hr => ?_⟩
  · obtain ⟨hpos, hstood, hundecided, hgranted⟩ := h.stands hr
    exact ⟨hpos, hstood, hundecided, fun u hu => ⟨(hgranted u hu).1, hmoved.grows.vote (hgranted u hu).2⟩⟩
  · obtain ⟨hleading, hown, hacked, htracks⟩ := h.heads hr
    exact ⟨⟨hleading.lead, hleading.log⟩, hown, hacked,
      fun u => (htracks u).mono hc.sound hmoved.grows (led_of_eq (h.lead_eq hr))⟩

/-- The replica acknowledges what it holds of its leader's log. -/
theorem ack (h : g.Mirrors R id e l a r) {n : ℕ} (hled : R.lead e.currentTerm ≠ none)
    (hn : n ≤ (R.leadLog e.currentTerm).length) (hheld : (R.leadLog e.currentTerm).take n <+: R.log id) :
    R.Moved id (R.ack id n) ∧ g.Mirrors (R.ack id n) id e l a r ∧
      n ≤ (R.ack id n).acked e.currentTerm id := by
  have hmoved : R.Moved id (R.ack id n) := .ack n
  rw [← h.term] at hled hn hheld ⊢
  refine ⟨hmoved, h.still (h.charts.keep (h.charts.sound.ack hled hn hheld) hmoved.grows rfl rfl)
    hmoved.grows ⟨rfl, fun _ => rfl, rfl, fun hl => hl, fun _ => rfl⟩, ?_⟩
  rw [R.ack_acked]
  exact le_max_right _ _

/-- The leader appends an entry of its own. -/
theorem append (h : g.Keeps R id e l a) (hrole : e.role = .leader) (hleading : R.Leading id)
    (hstart : (R.start e.currentTerm).length ≤ (R.log id).length) (htracks : r.Tracks R e.currentTerm)
    (param : ProposeParam) :
    ∃ R', R.Moved id R' ∧ g.Mirrors R' id e (l.appendNewEntry e.currentTerm param) a r := by
  have hc := h.charts
  set entry := RaftLog.newEntry e.currentTerm ((R.log id).length + 1) param with hentry
  have hrepresents := h.log.appendNewEntry e.currentTerm param
  have hmoved := Replicated.Moved.append hleading entry
  have hlog : (R.append id entry).log id = R.log id ++ [entry] := Function.update_self _ _ _
  have hleadLog : (R.append id entry).leadLog (R.term id) = R.log id ++ [entry] := Function.update_self _ _ _
  have hcharts : g.Charts (R.append id entry) := by
    refine ⟨hc.distinct, hc.sound.append hleading ?_, hc.entered, fun {t} hl => ?_⟩
    · rw [h.term]
      exact newEntry_termOf _ _ _
    · by_cases ht : t = R.term id
      · rw [ht, hleadLog]
        exact hrepresents.indexed
      · have hsame : (R.append id entry).leadLog t = R.leadLog t := Function.update_of_ne ht _ _
        rw [hsame]
        exact hc.indexed hl
  have hheld : a.commitIndex ≤ (R.log id ++ [entry]).length := by
    rw [List.length_append]
    exact h.held.trans (Nat.le_add_right _ _)
  have hkeeps : g.Keeps (R.append id entry) id e (l.appendNewEntry e.currentTerm param) a := by
    refine ⟨hcharts, h.voter, h.term, h.vote, hlog ▸ hrepresents, hlog ▸ hheld, ?_, h.compacted, h.applied⟩
    rw [hlog, List.take_append_of_le_length h.held]
    exact h.chosen.mono hmoved.grows le_rfl
  -- the leader holds its own log, so it counts itself
  have hled : (R.append id entry).lead (R.term id) ≠ none := hleading.led
  have hall : ((R.append id entry).leadLog (R.term id)).take (R.log id ++ [entry]).length <+:
      (R.append id entry).log id := by
    rw [hleadLog, hlog]
    exact List.take_prefix _ _
  -- the entry is acknowledged by the leader at once
  have hmoved' : (R.append id entry).Moved id _ := .ack (R.log id ++ [entry]).length
  have hsound := hcharts.sound.ack hled (congrArg List.length hleadLog).ge hall
  refine ⟨_, hmoved.trans hmoved', hkeeps.rest (hcharts.keep hsound hmoved'.grows rfl rfl) hmoved'.grows rfl
    le_rfl h.term h.vote, fun hr => ?_, fun _ => ⟨⟨hleading.lead, hleadLog.trans hlog.symm⟩, ?_, ?_, ?_⟩⟩
  · rw [hrole] at hr
    cases hr
  · exact (Nat.lt_succ_of_le hstart).trans_eq ((congrArg List.length hlog).trans List.length_append).symm
  · rw [← h.term]
    refine le_trans ?_ ((le_max_right _ _).trans_eq ((R.append id entry).ack_acked id _).symm)
    exact (congrArg List.length hlog).le
  · exact fun u => (htracks u).mono hc.sound (hmoved.trans hmoved').grows (h.term ▸ hleading.led)

/-- A majority has voted for the candidate: it leads its term. -/
theorem elect (h : g.Mirrors R id e l a r) (hrole : e.role = .candidate)
    (hquorum : g.members.hasQuorum e.grantedVoters.card = true) :
    R.Moved id (R.elect id) ∧ g.Charts (R.elect id) ∧ (R.elect id).Leading id := by
  have hc := h.charts
  obtain ⟨hpos, hcand, hundecided, hgranted⟩ := h.stands hrole
  have hmajority := Group.majority_of_quorum (fun u hu => (hgranted u hu).1) hquorum
  rw [← h.term] at hpos hcand hundecided hgranted
  have hvotes : ∀ u ∈ e.grantedVoters, R.vote (R.term id) u = some id := fun u hu => (hgranted u hu).2
  -- a leader of this term would have been elected by a majority that also voted for `id`
  have hnone : R.lead (R.term id) = none := by
    rcases hlead : R.lead (R.term id) with - | v
    · rfl
    · have hv := hc.sound.fair.elected_unique hmajority hvotes hlead
      rw [hv] at hlead
      exact absurd hlead hundecided
  have hlead : (R.elect id).lead (R.term id) = some id := R.toBallot.elect_lead_self id
  have hleadLog : (R.elect id).leadLog (R.term id) = R.log id := Function.update_self _ _ _
  have hold : ∀ {t}, t ≠ R.term id → (R.elect id).lead t = R.lead t := R.toBallot.elect_lead_of_ne
  refine ⟨.elect hnone, ⟨hc.distinct, hc.sound.elect hnone hcand hmajority hvotes, fun {t v} hl => ?_,
    fun {t} hl => ?_⟩, ⟨hlead, hleadLog⟩⟩
  · by_cases ht : t = R.term id
    · subst ht
      obtain rfl := Option.some.inj (hlead.symm.trans hl)
      exact ⟨hpos, le_rfl, h.voter⟩
    · rw [hold ht] at hl
      exact hc.entered hl
  · by_cases ht : t = R.term id
    · rw [ht, hleadLog]
      exact h.log.indexed
    · have hsame : (R.elect id).leadLog t = R.leadLog t := Function.update_of_ne ht _ _
      rw [hold ht] at hl
      rw [hsame]
      exact hc.indexed hl

/-- The progress a new leader starts with. -/
theorem resetForLeader_tracks (h : g.Keeps R id e l a) (selfId : ReplicaID) (membership : RaftMembership) :
    (RaftReplication.resetForLeader selfId membership l).Tracks (R.elect id) e.currentTerm := by
  have hstart : (R.elect id).start (R.term id) = R.log id := Function.update_self _ _ _
  have hleadLog : (R.elect id).leadLog (R.term id) = R.log id := Function.update_self _ _ _
  rw [← h.term]
  refine fun u => ⟨Nat.zero_le _, fun hu => absurd hu (lt_irrefl 0), fun hu => .inr (.inl ?_), ?_⟩
  · simp only [RaftReplication.resetForLeader] at hu ⊢
    split at hu
    · next hpeer =>
      rw [hstart, if_pos hpeer, Nat.add_sub_cancel]
      exact h.log.lastLogIndex.ge
    · cases hu
  · rw [hleadLog, ← h.log.lastLogIndex]
    simp only [RaftReplication.resetForLeader]
    split
    · exact le_rfl
    · exact Nat.zero_le _

/-- **A new leader** begins with a no-op of its own. -/
theorem becomeLeader (h : g.Mirrors R id e l a r) (hrole : e.role = .candidate)
    (hquorum : g.members.hasQuorum e.grantedVoters.card = true) (membership : RaftMembership)
    (selfId : ReplicaID) :
    ∃ R', R.Moved id R' ∧ g.Mirrors R' id e.becomeLeader (l.appendNewEntry e.currentTerm .noop) a
      (RaftReplication.resetForLeader selfId membership l) := by
  obtain ⟨hmoved, hcharts, hleading⟩ := h.elect hrole hquorum
  have hkeeps : g.Keeps (R.elect id) id e.becomeLeader l a :=
    h.rest hcharts hmoved.grows rfl le_rfl h.term h.vote
  have hstart : (R.elect id).start e.currentTerm = R.log id := by
    rw [← h.term]
    exact Function.update_self _ _ _
  obtain ⟨R', hmoved', hmirrors⟩ := append hkeeps rfl hleading (congrArg List.length hstart).le
    (resetForLeader_tracks h.toKeeps selfId membership) .noop
  exact ⟨R', hmoved.trans hmoved', hmirrors⟩

/-- The voters a leader counts for an index have acknowledged it. -/
theorem chosenAt (h : c.Mirrors g R id) (hreg : c.Regular g id) (hrole : c.election.role = .leader)
    {new : ℕ} (hheld : new ≤ (R.log id).length) (hlow : c.raftLog.snapshotIndex < new)
    (hterm : c.raftLog.termAt new = c.election.currentTerm)
    (hquorum : c.membership.hasQuorum (c.replication.successCnt c.selfId c.membership new) = true) :
    Replicated.ChosenAt g.voterIds R c.election.currentTerm new := by
  have hheads := h.heads hrole
  have hleadLog := h.leadLog_eq hrole
  have hled := led_of_eq (h.lead_eq hrole)
  have hlead := h.charts.sound.led hled
  obtain ⟨entry, hentry⟩ : ∃ entry, (R.log id)[new - 1]? = some entry :=
    ⟨_, List.getElem?_eq_getElem (by omega)⟩
  -- the entry at the new index is of the current term, hence the leader's own
  have heterm : termOf entry = c.election.currentTerm := by
    rw [← hterm, h.log.termAt hlow.le hheld, ← Replicated.lastTerm_take_succ hentry,
      Nat.sub_add_cancel (by omega)]
  refine ⟨hled, ?_, hleadLog ▸ hheld, ?_⟩
  · -- entries the leader began with are older
    by_contra hshort
    have hstart := hlead.starts.take_eq (n := new) (by omega)
    rw [hleadLog] at hstart
    have hmem : entry ∈ (R.log id).take new :=
      List.mem_of_getElem? ((List.getElem?_take_of_lt (by omega)).trans hentry)
    rw [hstart] at hmem
    exact absurd heterm (hlead.before entry (List.mem_of_mem_take hmem)).ne
  · rw [hreg.self, hreg.membership] at hquorum
    unfold RaftReplication.successCnt at hquorum
    rw [g.voters_members] at hquorum
    obtain ⟨Q, hQ, hcount⟩ := Group.counted h.charts.distinct h.voter
      (fun v => decide (new ≤ c.replication.matchIndex v)) hquorum
    refine ⟨Q, hQ, fun u hu => ?_⟩
    rcases hcount u hu with rfl | hmatched
    · exact hheld.trans hheads.acked
    · exact (of_decide_eq_true hmatched).trans (hheads.tracks u).matched

end Group.Mirrors

/-! ## Handlers -/

/-- What an event says is so. An AppendEntries and a snapshot to install are looked at apart. -/
def CoreEvent.Informed (R : GroupLog) (id : ReplicaID) : CoreEvent → Prop
  | .requestVote param => param.Backed R
  | .voteResponse sender result => result.voteGranted = true → R.vote result.term sender = some id
  | .appendResponse sender sent result => R.lead sent.term ≠ none ∧
    (result.success = true → sent.prevLogIndex + sent.entries.length ≤ R.acked sent.term sender ∧
      R.Synced sent.term sender) ∧
    (result.success = false → result.term ≤ sent.term → R.Probed sent.term sender result.lastLogIndex ∧
      R.Probed sent.term sender (sent.prevLogIndex - 1))
  | .snapshotResponse sender sent result => R.lead sent.term ≠ none ∧
    (result.status.isOk = true → result.term ≤ sent.term →
      max result.snapshotWatermark sent.snapshotIndex ≤ R.acked sent.term sender ∧
        R.Synced sent.term sender)
  | .appendEntries _ | .installSnapshot _ => False
  | _ => True

variable {ev : CoreEvent}

/-- What an event says stays true while the replicated log grows. -/
theorem CoreEvent.Informed.mono (h : ev.Informed R id) (hc : g.Charts R) (hg : Grows R R') :
    ev.Informed R' id := by
  cases ev with
  | requestVote param => exact RequestVoteParam.Backed.mono h hg
  | voteResponse sender result => exact fun hgranted => hg.vote (h hgranted)
  | appendResponse sender sent result =>
    obtain ⟨hled, hok, hfailed⟩ := h
    refine ⟨hg.led hled, fun hsuccess => ?_, fun hfailure hle => ?_⟩
    · exact ⟨(hok hsuccess).1.trans (hg.acked _ _), (hok hsuccess).2.mono hg hled⟩
    · exact ⟨(hfailed hfailure hle).1.mono hc.sound hg hled, (hfailed hfailure hle).2.mono hc.sound hg hled⟩
  | snapshotResponse sender sent result =>
    obtain ⟨hled, hok⟩ := h
    refine ⟨hg.led hled, fun hstatus hle => ?_⟩
    exact ⟨(hok hstatus hle).1.trans (hg.acked _ _), (hok hstatus hle).2.mono hg hled⟩
  | appendEntries param => exact h
  | installSnapshot header => exact h
  | _ => trivial

/-- **One move of a core.** -/
theorem Micro.mirrors {s s' : CoreState} (hmove : Micro ev s s') (hreg : s.core.Regular g id)
    (h : s.core.Mirrors g R id) (hev : ev.Informed R id) :
    ∃ R', R.Moved id R' ∧ s'.core.Mirrors g R' id := by
  have hsound := h.charts.sound
  have hlast : s.core.election.role = .leader →
      s.core.raftLog.lastLogIndex = (R.leadLog s.core.election.currentTerm).length := by
    intro hr
    rw [h.leadLog_eq hr]
    exact h.log.lastLogIndex
  have hstart : s.core.election.role = .leader →
      (R.start s.core.election.currentTerm).length ≤ s.core.raftLog.lastLogIndex := by
    intro hr
    rw [h.log.lastLogIndex]
    exact (h.heads hr).own.le
  -- each move is one operation of the replicated log, or none
  cases hmove with
  | timers election heartbeat active => exact ⟨R, .refl id R, h⟩
  | follow term hle =>
    rw [s.becomeFollower_core term]
    exact h.becomeFollower hle
  | preCandidate ready voter role =>
    exact ⟨R, .refl id R, .passive (h.rest h.charts (.refl R) rfl le_rfl h.term h.vote) (.inr rfl)⟩
  | preVoteCounted sender role =>
    exact ⟨R, .refl id R, .passive (h.rest h.charts (.refl R) rfl le_rfl h.term h.vote) (.inr role)⟩
  | candidate ready voter role => exact h.becomeCandidate hreg.electionSelf
  | voteCounted sender result event role term granted voter =>
    subst event
    obtain ⟨hpos, hcand, hundecided, hgranted⟩ := h.stands role
    refine ⟨R, .refl id R, h.rest h.charts (.refl R) rfl le_rfl h.term h.vote,
      fun _ => ⟨hpos, hcand, hundecided, fun u hu => ?_⟩, fun hr => ?_⟩
    · rcases Finset.mem_insert.mp hu with rfl | hold
      · rw [hreg.membership] at voter
        exact ⟨Group.mem_voterIds voter, term ▸ hev granted⟩
      · exact hgranted u hold
    · exact absurd (role.symm.trans hr) (by decide)
  | lead ready voter role quorum =>
    rw [hreg.membership] at quorum
    exact h.becomeLeader role quorum _ _
  | grantVote param event ready voter candidate term log free =>
    subst event
    exact Group.Mirrors.grantVote h hev term log free
  | append param ready role voter source valid =>
    have hheads := h.heads role
    exact Group.Mirrors.append h.toKeeps role hheads.leading hheads.own.le hheads.tracks param
  | send m built plain => exact ⟨R, .refl id R, h⟩
  | offer target built free => exact h.idle fun _ hold => hold
  | setNext target role =>
    exact h.idle fun hr hold => hold.updateNextIndex (.inr (.inl (hstart hr))) (Nat.succ_le_succ (hlast hr).le)
  | settle sender sent event role term =>
    refine h.idle fun _ hold => ?_
    unfold RaftReplication.clearSnapshotInflight
    split <;> exact hold
  | ackOk sender sent result event ready role term noLater fresh success =>
    subst event
    obtain ⟨hacked, hsynced⟩ := hev.2.1 success
    rw [term] at hacked hsynced
    exact h.idle fun _ hold => hold.handlePeerAppendOk hacked hsynced (hsound.acked_le _ sender)
  | ackFailed sender sent result event role term noLater fresh failure =>
    subst event
    obtain ⟨hfollower, hback⟩ := hev.2.2 failure (noLater.trans_eq term.symm)
    rw [term] at hfollower hback
    exact h.idle fun hr hold => hold.handlePeerAppendFailed fresh (hlast hr) (hstart hr)
      (hsound.acked_le _ sender) hfollower hback
  | watermark sender sent result event ready role term noLater ok =>
    subst event
    obtain ⟨hacked, hsynced⟩ := hev.2 ok (noLater.trans_eq term.symm)
    rw [term] at hacked hsynced
    exact h.idle fun _ hold => hold.updateSnapshotWatermark hacked hsynced (hsound.acked_le _ sender)
  | leaderCommit new ready role later held term quorum =>
    rw [h.log.lastLogIndex] at held
    have hchosen := Group.Mirrors.chosenAt h hreg role held (h.snapshot_le.trans_lt later) term quorum
    refine ⟨R, .refl id R, ⟨h.charts, h.voter, h.term, h.vote, h.log, held, .inr ⟨_, new, le_rfl, hchosen, ?_⟩,
      h.compacted, h.applied.trans later.le⟩, h.stands, h.heads⟩
    rw [h.leadLog_eq role]
    exact List.prefix_rfl
  | accept param log r event =>
    subst event
    cases hev
  | install header event =>
    subst event
    cases hev

/-- **A handler of the core.** -/
theorem CoreEvent.step_mirrors (hplain : ev.Regular g) (hreg : c.Regular g id) (h : c.Mirrors g R id)
    (hev : ev.Informed R id) :
    ∃ R', R.Moved id R' ∧ (ev.step { core := c }).core.Mirrors g R' id ∧
      ∀ m ∈ (ev.step { core := c }).effects.messages, m.Backed g R' := by
  refine (CoreEvent.step_induction
    (P := fun s => s.core.Regular g id ∧ ∃ R', R.Moved id R' ∧ s.core.Mirrors g R' id ∧
      ∀ m ∈ s.effects.messages, m.Backed g R') ?_ ⟨hreg, R, .refl id R, h, by simp⟩).2
  rintro s s' hmove ⟨hs, R₁, hmoved, h₁, hsent⟩
  obtain ⟨R₂, hmoved', h₂⟩ := hmove.mirrors hs h₁ (hev.mono h.charts hmoved.grows)
  refine ⟨hmove.regular hplain hs, R₂, hmoved.trans hmoved', h₂, fun m hm => ?_⟩
  -- what this move sends was built from the core before it
  have hbacked : m.Backed g R₁ := by
    rcases hmove.messages hm with hold | hbuilt
    · exact hsent m hold
    · exact RaftCore.Mirrors.emits h₁ hs.self hbuilt
  exact hbacked.mono h₁.charts hmoved'.grows

end

end AdvisKV
