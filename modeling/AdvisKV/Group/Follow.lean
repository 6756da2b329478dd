import AdvisKV.Group.Logs

/-!
# AdvisKV — following a leader in a fixed group

A follower takes `min(leader_commit, last_log_index)` as committed, whatever its log holds behind the slice
it was sent. That is safe because a leader never probes a peer behind a position the two logs share without
having synced: an accepted AppendEntries leaves the follower's log a prefix of the leader's. The same is true
of a snapshot the follower installs or already covers.

Main results:

* `RaftCore.Mirrors.handleAppendEntries` — an AppendEntries and the reply to it.
* `Group.Mirrors.installReceived` — a snapshot that arrives.
* `Group.Mirrors.acknowledge` — the answer to a transfer.
-/

namespace AdvisKV

open Replicated (lastTerm)

section

variable {g : Group} {R R' : GroupLog} {id : ReplicaID} {c : RaftCore} {e : RaftElection} {l : RaftLog}
  {a : RaftApply} {r : RaftReplication} {T : ℕ}

/-! ## What a log has in common with its leader's -/

/-- Entries have been made in a term. -/
theorem Group.Charts.lastTerm_pos (hc : g.Charts R) {ℓ : List LogEntry} (h : R.Traced ℓ) {i : ℕ}
    (hpos : 0 < i) (hi : i ≤ ℓ.length) : 0 < lastTerm (ℓ.take i) := by
  obtain ⟨entry, he⟩ : ∃ entry, ℓ[i - 1]? = some entry := ⟨_, List.getElem?_eq_getElem (by omega)⟩
  have hlast := Replicated.lastTerm_take_succ he
  rw [Nat.sub_add_cancel hpos] at hlast
  obtain ⟨v, hv⟩ := Option.ne_none_iff_exists'.mp (h (i - 1) entry he).1
  rw [hlast]
  exact (hc.entered hv).1

theorem Group.contains_of_voter {v : ReplicaID} (h : v ∈ g.voterIds) : g.members.contains v = true := by
  obtain ⟨p, hp, rfl⟩ := List.mem_map.mp (List.mem_toFinset.mp h)
  rw [RaftMembership.contains, RaftMembership.findRaftMember, List.find?_isSome]
  exact ⟨⟨p, .voter⟩, List.mem_map_of_mem hp, by simp⟩

namespace Group.Keeps

/-- What the replica takes as committed is in the log of its leader. -/
theorem committed_leads (h : g.Keeps R id e l a) (hT : e.currentTerm = T) (hled : R.lead T ≠ none) :
    (R.log id).take a.commitIndex <+: R.leadLog T :=
  hT ▸ h.chosen.prefix_leadLog h.charts.sound (hT ▸ hled)

/-- A committed position: the leader's log has it too, with what is before it. -/
theorem take_of_committed (h : g.Keeps R id e l a) (hT : e.currentTerm = T) (hled : R.lead T ≠ none)
    {i : ℕ} (hi : i ≤ a.commitIndex) :
    i ≤ (R.leadLog T).length ∧ (R.leadLog T).take i <+: R.log id := by
  have hpre := (List.take_prefix_take_left hi).trans (h.committed_leads hT hled)
  have hin := hi.trans h.held
  rw [hpre.take_comm hin]
  exact ⟨(List.length_take_of_le hin).ge.trans hpre.length_le, List.take_prefix i _⟩

/-- A position at which the log has the term of its leader's log. -/
theorem take_of_termAt (h : g.Keeps R id e l a) (hled : R.lead T ≠ none) {i : ℕ}
    (hlow : l.snapshotIndex ≤ i) (hi : i ≤ (R.leadLog T).length)
    (hterm : l.termAt i = lastTerm ((R.leadLog T).take i)) :
    i ≤ (R.log id).length ∧ (R.log id).take i = (R.leadLog T).take i := by
  have hc := h.charts
  have htraced := (hc.sound.led hled).traced
  have hlen : i ≤ (R.log id).length := by
    by_contra hlong
    have hpos := hc.lastTerm_pos htraced (by omega : 0 < i) hi
    rw [← hterm, h.log.termAt_of_length_lt (by omega)] at hpos
    exact lt_irrefl _ hpos
  refine ⟨hlen, (hc.sound.traced id).take_eq_of_lastTerm htraced hlen hi ?_⟩
  rw [← hterm, h.log.termAt hlow hlen]

variable {ℓ : List LogEntry}

/-- What was committed stays in a log that follows the leader. -/
theorem committed_kept (h : g.Keeps R id e l a) (hfollows : R.Follows id ℓ) :
    (R.log id).take a.commitIndex <+: ℓ :=
  hfollows.keeps _ (List.take_prefix _ _) (h.committed_leads h.term.symm hfollows.led)

/-- A follower replaces its log by one that keeps what it shares with its leader. -/
theorem takeOver {l' : RaftLog} {b : RaftApply} (h : g.Keeps R id e l a) (hfollows : R.Follows id ℓ)
    (hrole : e.role = .follower) (hlog : l'.Represents ℓ) (hheld : b.commitIndex ≤ ℓ.length)
    (hchosen : R.Chosen g.voterIds e.currentTerm (ℓ.take b.commitIndex))
    (hcompacted : l'.snapshotIndex ≤ b.lastApplied) (happlied : b.lastApplied ≤ b.commitIndex) :
    R.Moved id (R.accept id ℓ) ∧ g.Mirrors (R.accept id ℓ) id e l' b r := by
  have hc := h.charts
  have hmoved := Replicated.Moved.accept hfollows
  have hself : (R.accept id ℓ).log id = ℓ := Function.update_self _ _ _
  refine ⟨hmoved, .passive ⟨hc.keep (hc.sound.accept hfollows) hmoved.grows rfl rfl, h.voter, h.term,
    h.vote, hself.symm ▸ hlog, hself.symm ▸ hheld, ?_, hcompacted, happlied⟩ (.inl hrole)⟩
  rw [hself]
  exact hchosen.mono hmoved.grows le_rfl

end Group.Keeps

/-! ## AppendEntries -/

namespace Group.Mirrors

theorem followLeader {s : CoreState} (h : s.core.Mirrors g R id) {t : ℕ}
    (hle : s.core.election.currentTerm ≤ t) :
    ∃ R', R.Moved id R' ∧ g.Mirrors R' id (s.followLeader t).core.election s.core.raftLog s.core.raftApply
      s.core.replication := by
  unfold CoreState.followLeader
  split
  · dsimp only
    rw [CoreState.becomeFollower_core]
    exact h.becomeFollower hle
  · exact ⟨R, .refl id R, h⟩

section

variable {param : AppendEntriesParam}

/-- What passes the prev-log test is shared. -/
theorem prev_shared (h : g.Mirrors R id e l a r) (hparam : param.Backed g R)
    (hprev : CoreState.prevLogMatches l param = true) :
    param.prevLogIndex ≤ (R.log id).length ∧
      (R.log id).take param.prevLogIndex = (R.leadLog param.term).take param.prevLogIndex := by
  rcases Nat.eq_zero_or_pos param.prevLogIndex with hzero | hpos
  · rw [hzero]
    exact ⟨Nat.zero_le _, rfl⟩
  · rw [CoreState.prevLogMatches, if_pos hpos] at hprev
    split at hprev
    · cases hprev
    · next hlow =>
      rw [beq_iff_eq, hparam.prevTerm] at hprev
      exact h.take_of_termAt (led_of_eq hparam.led) (Nat.le_of_not_lt hlow)
        ((Nat.le_add_right _ _).trans hparam.inside) hprev

/-- What fails it: the leader may go on probing one position earlier. -/
theorem prev_unshared (h : g.Mirrors R id e l a r) (hparam : param.Backed g R)
    (hto : param.toReplicaId = id) (hterm : e.currentTerm = param.term)
    (hprev : CoreState.prevLogMatches l param = false) :
    R.Probed param.term id (param.prevLogIndex - 1) := by
  have hled := led_of_eq hparam.led
  have hmine : R.term id = param.term := h.term.trans hterm
  have hinside := (Nat.le_add_right _ _).trans hparam.inside
  unfold CoreState.prevLogMatches at hprev
  split at hprev
  · next hpos =>
    split at hprev
    · next hlow =>
      -- the snapshot covers the position, so the replica has synced
      obtain ⟨hlen, hshared⟩ := h.take_of_committed hterm hled h.snapshot_le
      have hprobed := hparam.probed
      rw [hto] at hprobed
      exact .inr (.inr ⟨hmine, .inl (hprobed.prefix_of_held h.charts.sound hmine hled hlen hlow hshared)⟩)
    · next hlow =>
      refine .inr (.inr ⟨hmine, .inr fun hpre => ?_⟩)
      rw [Nat.sub_add_cancel hpos] at hpre
      have hlen := hpre.length_le
      rw [List.length_take_of_le hinside] at hlen
      rw [beq_eq_false_iff_ne, h.log.termAt (Nat.le_of_not_lt hlow) hlen, hpre.take_comm hinside] at hprev
      exact hprev hparam.prevTerm.symm
  · cases hprev

/-- The end of its own log is a position the leader may go on probing at. -/
theorem end_probed (h : g.Mirrors R id e l a r) (hled : R.lead T ≠ none) (hterm : e.currentTerm = T) :
    R.Probed T id l.lastLogIndex := by
  rw [h.log.lastLogIndex]
  rcases Nat.lt_or_ge (R.log id).length (R.leadLog T).length with hlt | hge
  · refine .inr (.inr ⟨h.term.trans hterm, .inr fun hpre => ?_⟩)
    have hlen := hpre.length_le
    rw [List.length_take_of_le (by omega)] at hlen
    omega
  · exact .inr (.inl ((h.charts.sound.led hled).starts.length_le.trans hge))

/-- The entries of a leader can be merged once the prev-log test has passed. -/
theorem merges (h : g.Mirrors R id e l a r) (hparam : param.Backed g R) (hterm : e.currentTerm = param.term)
    (hprev : CoreState.prevLogMatches l param = true) :
    ∃ log res, l.appendEntriesFromLeader param.entries = .ok (log, res) ∧
      log.Represents (R.merged param.term id (param.prevLogIndex + param.entries.length)) ∧
      log.snapshotIndex = l.snapshotIndex := by
  obtain ⟨hlen, hshared⟩ := h.prev_shared hparam hprev
  have hled := led_of_eq hparam.led
  have hc := h.charts
  have hcovered := (List.take_prefix_take_left h.snapshot_le).trans (h.committed_leads hterm hled)
  obtain ⟨log, res, hok, hsnapshot, hcases⟩ := h.log.merge (hc.indexed hled) hcovered
    (fun i e e' he he' hsame => (hc.sound.traced id).take_eq (hc.sound.led hled).traced he he' hsame)
    hlen hshared (Nat.le_add_right _ _) hparam.inside
  rw [← hparam.entries] at hok
  refine ⟨log, res, hok, ?_, hsnapshot⟩
  unfold Replicated.merged
  rcases hcases with ⟨hall, hkept⟩ | ⟨hnot, hnew⟩
  · rwa [if_pos hall]
  · rwa [if_neg hnot]

/-- **An accepted AppendEntries.** -/
theorem accept (h : g.Mirrors R id e l a r) (hrole : e.role = .follower) (hparam : param.Backed g R)
    (hto : param.toReplicaId = id) (hterm : e.currentTerm = param.term) {log : RaftLog}
    (hlog : log.Represents (R.merged param.term id (param.prevLogIndex + param.entries.length)))
    (hsnapshot : log.snapshotIndex = l.snapshotIndex) :
    ∃ R', R.Moved id R' ∧
      g.Mirrors R' id e log (a.advanceCommitIndexFromLeader log param.leaderCommit) r ∧
      (a.advanceCommitIndexFromLeader log param.leaderCommit).lastApplied = a.lastApplied ∧
      a.commitIndex ≤ (a.advanceCommitIndexFromLeader log param.leaderCommit).commitIndex ∧
      param.prevLogIndex + param.entries.length ≤ R'.acked param.term id ∧ R'.Synced param.term id := by
  have hled := led_of_eq hparam.led
  have hmine : R.term id = param.term := h.term.trans hterm
  set n := param.prevLogIndex + param.entries.length with hn
  set ℓ := R.merged param.term id n with hℓ
  -- the log after the merge follows the leader's
  have hfollows : R.Follows id ℓ := by
    have hprobed := hparam.probed
    rw [hto] at hprobed
    refine hprobed.follows h.charts.sound hmine hled (Nat.le_add_right _ _) hparam.inside ?_
    exact hparam.reaches.imp_left fun hsome => Nat.lt_add_of_pos_right (List.length_pos_iff.mpr hsome)
  have hleads := hfollows.leads
  rw [hmine] at hleads
  -- the commit index moves inside what the leader has chosen
  have hold := h.committed_kept hfollows
  have hlen : a.commitIndex ≤ ℓ.length := (List.length_take_of_le h.held).ge.trans hold.length_le
  have hadvance : ∃ i, a.advanceCommitIndexFromLeader log param.leaderCommit = { a with commitIndex := i } ∧
      a.commitIndex ≤ i ∧ i ≤ ℓ.length ∧ R.Chosen g.voterIds e.currentTerm (ℓ.take i) := by
    rw [RaftApply.advanceCommitIndexFromLeader, hlog.lastLogIndex]
    split
    · next hlt =>
      refine ⟨_, rfl, le_min hlt.le hlen, min_le_right _ _, hterm ▸ hparam.chosen.take ?_⟩
      rw [← hleads.take_eq (min_le_right _ _)]
      exact List.take_prefix_take_left (min_le_left _ _)
    · refine ⟨_, rfl, le_rfl, hlen, ?_⟩
      rw [hold.take_comm h.held]
      exact h.chosen
  obtain ⟨i, happly, hle, hheld, hchosen⟩ := hadvance
  rw [happly]
  obtain ⟨hmoved, hmirrors⟩ := h.takeOver (b := { a with commitIndex := i }) (r := r) hfollows hrole hlog
    hheld hchosen (hsnapshot.le.trans h.compacted) (h.applied.trans hle)
  -- what was sent is in the log now, so it can be acknowledged
  have hself : (R.accept id ℓ).log id = ℓ := Function.update_self _ _ _
  obtain ⟨hmoved', hmirrors', hacked⟩ := hmirrors.ack (n := n) (hterm.symm ▸ hled)
    (hterm.symm ▸ hparam.inside) (by rw [hself, hterm]; exact R.prefix_merged _ _ _)
  refine ⟨_, hmoved.trans hmoved', hmirrors', rfl, hle, hterm ▸ hacked, .inr ⟨hmine, ?_⟩⟩
  show (R.accept id ℓ).log id <+: R.leadLog param.term
  rw [hself]
  exact hleads

end

end Group.Mirrors

namespace CoreState

variable {s : CoreState} {param : AppendEntriesParam}

theorem handleAppendEntries_of_mismatch (hmember : s.core.membership.contains param.fromReplicaId = true)
    (hle : s.core.election.currentTerm ≤ param.term)
    (hprev : prevLogMatches s.core.raftLog param = false) :
    s.handleAppendEntries param =
      ({ term := param.term, success := false, lastLogIndex := s.core.raftLog.lastLogIndex },
        s.followLeader param.term) := by
  simp only [handleAppendEntries, hmember, Nat.not_lt.mpr hle, hprev, (followLeader_election hle).1,
    followLeader_raftLog, Bool.not_true, Bool.false_eq_true, if_false, Bool.not_false, if_true]

theorem handleAppendEntries_of_merge (hmember : s.core.membership.contains param.fromReplicaId = true)
    (hle : s.core.election.currentTerm ≤ param.term) (hprev : prevLogMatches s.core.raftLog param = true)
    {log : RaftLog} {res : LogAppendResult}
    (hmerge : s.core.raftLog.appendEntriesFromLeader param.entries = .ok (log, res)) :
    (s.handleAppendEntries param).1.success = true ∧
      (s.handleAppendEntries param).2.core.raftLog = log ∧
      (s.handleAppendEntries param).2.core.raftApply =
        s.core.raftApply.advanceCommitIndexFromLeader log param.leaderCommit ∧
      (s.handleAppendEntries param).2.core.election = (s.followLeader param.term).core.election := by
  by_cases hnil : param.entries = []
  · obtain ⟨hlog, happly, helection, -⟩ :=
      acceptAppend_core (s.followLeader param.term) param.leaderCommit
    rw [followLeader_raftLog] at hlog happly
    rw [followLeader_raftApply] at happly
    rw [hnil] at hmerge
    obtain ⟨rfl, -⟩ := Prod.mk.inj (Except.ok.inj hmerge)
    simp only [handleAppendEntries, hmember, Nat.not_lt.mpr hle, hprev, hnil, hlog, happly, helection,
      followLeader_raftLog, Bool.not_true, Bool.false_eq_true, if_false, if_true, and_self]
  · obtain ⟨hlog, happly, helection, -⟩ :=
      acceptAppend_core ((s.followLeader param.term).storeMerge log res) param.leaderCommit
    have hbefore : ((s.followLeader param.term).storeMerge log res).core.raftApply = s.core.raftApply :=
      s.followLeader_raftApply param.term
    rw [hbefore] at happly
    simp only [handleAppendEntries, hmember, Nat.not_lt.mpr hle, hprev, hnil, hmerge, followLeader_raftLog,
      Bool.not_true, Bool.false_eq_true, if_false]
    exact ⟨trivial, hlog, happly, helection⟩

end CoreState

/-- **An AppendEntries and its reply.** -/
theorem RaftCore.Mirrors.handleAppendEntries (h : c.Mirrors g R id) (hreg : c.Regular g id)
    {param : AppendEntriesParam} (hparam : param.Backed g R) (hto : param.toReplicaId = id) :
    ∃ R', R.Moved id R' ∧ (CoreState.handleAppendEntries { core := c } param).2.core.Mirrors g R' id ∧
      (CoreState.handleAppendEntries { core := c } param).2.core.raftApply.lastApplied =
        c.raftApply.lastApplied ∧
      c.raftApply.commitIndex ≤
        (CoreState.handleAppendEntries { core := c } param).2.core.raftApply.commitIndex ∧
      (CoreEvent.appendResponse id param (CoreState.handleAppendEntries { core := c } param).1).Informed R'
        param.fromReplicaId := by
  have hled := led_of_eq hparam.led
  have hmember : c.membership.contains param.fromReplicaId = true := by
    rw [hreg.membership]
    exact Group.contains_of_voter (h.charts.entered hparam.led).2.2
  set s : CoreState := { core := c } with hs
  rcases Nat.lt_or_ge param.term c.election.currentTerm with hlate | hle
  · -- out of date: the reply carries the later term
    have heq : s.handleAppendEntries param =
        ({ term := c.election.currentTerm, success := false, lastLogIndex := c.raftLog.lastLogIndex }, s) := by
      simp only [hs, CoreState.handleAppendEntries, hmember, hlate, Bool.not_true, Bool.false_eq_true,
        if_false, if_true]
    rw [heq]
    exact ⟨R, .refl id R, h, rfl, le_rfl, hled, (fun hsuccess => by cases hsuccess),
      fun _ hle => absurd hle (Nat.not_le.mpr hlate)⟩
  obtain ⟨hterm, hrole⟩ := CoreState.followLeader_election (s := s) hle
  obtain ⟨R₁, hmoved, h₁⟩ := Group.Mirrors.followLeader (s := s) h hle
  have hparam₁ := hparam.mono h.charts hmoved.grows
  have hled₁ := led_of_eq hparam₁.led
  by_cases hprev : CoreState.prevLogMatches c.raftLog param = true
  · obtain ⟨log, res, hok, hlog, hsnapshot⟩ := h₁.merges hparam₁ hterm hprev
    obtain ⟨hsuccess, hlog', happly', helection⟩ :=
      CoreState.handleAppendEntries_of_merge (s := s) hmember hle hprev hok
    obtain ⟨R₂, hmoved', h₂, happlied, hcommit, hacked, hsynced⟩ := h₁.accept hrole hparam₁ hto hterm hlog hsnapshot
    refine ⟨R₂, hmoved.trans hmoved', ?_, ?_, ?_, hmoved'.grows.led hled₁, fun _ => ⟨hacked, hsynced⟩,
      fun hfailure => ?_⟩
    · unfold RaftCore.Mirrors
      rw [hlog', happly', helection]
      exact .passive h₂.toKeeps (.inl hrole)
    · rw [happly']
      exact happlied
    · rw [happly']
      exact hcommit
    · rw [hsuccess] at hfailure
      cases hfailure
  · -- refused: the reply says how far back the leader has to go
    have hfails := Bool.eq_false_of_not_eq_true hprev
    rw [CoreState.handleAppendEntries_of_mismatch (s := s) hmember hle hfails]
    refine ⟨R₁, hmoved, ?_, ?_, ?_, hled₁, (fun hsuccess => by cases hsuccess),
      fun _ _ => ⟨h₁.end_probed hled₁ hterm, h₁.prev_unshared hparam₁ hto hterm hfails⟩⟩
    · unfold RaftCore.Mirrors
      rw [CoreState.followLeader_raftLog, CoreState.followLeader_raftApply]
      exact .passive h₁.toKeeps (.inl hrole)
    · rw [CoreState.followLeader_raftApply]
    · rw [CoreState.followLeader_raftApply]

/-! ## Snapshots -/

/-- What a transfer that is let through without installing anything has found. -/
def RaftCore.Covers (c : RaftCore) (param : InstallSnapshotParam) : Prop :=
  param.snapshotIndex ≤ c.raftApply.commitIndex ∨
    (param.snapshotIndex ≤ c.raftLog.lastLogIndex ∧
      c.raftLog.termAt param.snapshotIndex = param.snapshotTerm)

namespace Group.Mirrors

variable {param : InstallSnapshotParam}

/-- A replica that holds a snapshot on offer to it has synced. -/
theorem synced_of_held (h : g.Mirrors R id e l a r) (hparam : param.Backed g R)
    (hto : param.toReplicaId = id) (hterm : e.currentTerm = param.term)
    (hheld : (R.leadLog param.term).take param.snapshotIndex <+: R.log id) :
    R.Holds param.term id param.snapshotIndex ∧ R.Synced param.term id := by
  have hmine : R.term id = param.term := h.term.trans hterm
  obtain ⟨p, hp, hprobed⟩ := hparam.probed
  rw [hto] at hprobed
  exact ⟨.inr ⟨hmine, hheld⟩, .inr ⟨hmine,
    hprobed.prefix_of_held h.charts.sound hmine (led_of_eq hparam.led) hparam.held hp hheld⟩⟩

/-- **A snapshot the replica has no use for** is one it holds. -/
theorem covered (h : c.Mirrors g R id) (hparam : param.Backed g R) (hto : param.toReplicaId = id)
    (hterm : c.election.currentTerm = param.term) (hcovers : c.Covers param) :
    R.Holds param.term id param.snapshotIndex ∧ R.Synced param.term id := by
  have hled := led_of_eq hparam.led
  refine h.synced_of_held hparam hto hterm ?_
  rcases Nat.lt_or_ge c.raftApply.commitIndex param.snapshotIndex with hlt | hge
  · obtain ⟨-, hmatch⟩ := hcovers.resolve_left (Nat.not_le.mpr hlt)
    rw [← hparam.term] at hmatch
    rw [← (h.take_of_termAt hled (h.snapshot_le.trans hlt.le) hparam.held hmatch).2]
    exact List.take_prefix _ _
  · exact (h.take_of_committed hterm hled hge).2

/-- **A snapshot that arrives** and lies behind what the replica has committed. -/
theorem installReceived (h : g.Mirrors R id e l a r) (hrole : e.role = .follower) (hparam : param.Backed g R)
    (hto : param.toReplicaId = id) (hterm : e.currentTerm = param.term)
    (hlater : a.commitIndex < param.snapshotIndex) :
    ∃ R', R.Moved id R' ∧ g.Mirrors R' id e (l.installSnapshot param.snapshotIndex param.snapshotTerm)
        ⟨param.snapshotIndex, param.snapshotIndex⟩ r ∧
      R'.Holds param.term id param.snapshotIndex ∧ R'.Synced param.term id ∧
      lastTerm ((R'.log id).take param.snapshotIndex) = param.snapshotTerm := by
  set i := param.snapshotIndex with hi
  set ℓ := (R.leadLog param.term).take i with hℓ
  have hled := led_of_eq hparam.led
  have hlen : ℓ.length = i := List.length_take_of_le hparam.held
  have hbehind : l.snapshotIndex ≤ i := h.snapshot_le.trans hlater.le
  have hchosen : R.Chosen g.voterIds e.currentTerm ℓ := hterm ▸ hparam.chosen
  have hinstall : ∃ R', R.Moved id R' ∧ g.Mirrors R' id e (l.installSnapshot i param.snapshotTerm) ⟨i, i⟩ r ∧
      ℓ <+: R'.log id := by
    by_cases hkept : i ≤ (R.log id).length ∧ lastTerm ((R.log id).take i) = param.snapshotTerm
    · -- the log has the entry the snapshot ends with, so it stays
      have hshared : (R.log id).take i = ℓ :=
        (h.charts.sound.traced id).take_eq_of_lastTerm (h.charts.sound.led hled).traced hkept.1
          hparam.held (hkept.2.trans hparam.term.symm)
      refine ⟨R, .refl id R, .passive ⟨h.charts, h.voter, h.term, h.vote,
        h.log.install_kept hbehind hkept.1 hkept.2, hkept.1, ?_, le_rfl, le_rfl⟩ (.inl hrole), ?_⟩
      · rw [hshared]
        exact hchosen
      · rw [← hshared]
        exact List.take_prefix _ _
    · have hfollows : R.Follows id ℓ := by
        refine Replicated.follows_take (h.term.trans hterm) hled fun hpre => hkept ?_
        refine ⟨hlen.ge.trans hpre.length_le, ?_⟩
        rw [hpre.take_comm hparam.held]
        exact hparam.term
      have hrep := h.log.install_replaced (by rw [hlen]; exact hbehind)
        ((h.charts.indexed hled).take i) (by rw [hlen, hparam.term]; exact hkept)
      rw [hlen, hparam.term] at hrep
      obtain ⟨hmoved, hmirrors⟩ := h.takeOver (b := ⟨i, i⟩) (r := r) hfollows hrole hrep hlen.ge
        (by rw [List.take_of_length_le hlen.le]; exact hchosen) le_rfl le_rfl
      have hself : (R.accept id ℓ).log id = ℓ := Function.update_self _ _ _
      exact ⟨_, hmoved, hmirrors, hself.symm ▸ List.prefix_rfl⟩
  obtain ⟨R', hmoved, hmirrors, hheld⟩ := hinstall
  have hgrown := (hmoved.grows.leadLog hled).take_eq hparam.held
  obtain ⟨hholds, hsynced⟩ := hmirrors.synced_of_held (hparam.mono h.charts hmoved.grows) hto hterm
    (hgrown.symm ▸ hheld)
  refine ⟨R', hmoved, hmirrors, hholds, hsynced, ?_⟩
  rw [hheld.take_comm hparam.held]
  exact hparam.term

/-- The replica acknowledges what a finished transfer has found and what its own snapshot covers. -/
theorem acknowledge (h : g.Mirrors R id e l a r) (hparam : param.Backed g R)
    (hle : e.currentTerm ≤ param.term) (hholds : R.Holds param.term id param.snapshotIndex) :
    ∃ R', R.Moved id R' ∧ g.Mirrors R' id e l a r ∧
      max param.snapshotIndex l.snapshotIndex ≤ R'.acked param.term id := by
  have hled := led_of_eq hparam.led
  obtain ⟨hmine, hheld⟩ := hholds.resolve_left (by rw [h.term]; exact Nat.not_lt.mpr hle)
  have hterm : e.currentTerm = param.term := h.term.symm.trans hmine
  obtain ⟨hlen, hsnapshot⟩ := h.take_of_committed hterm hled h.snapshot_le
  have hboth : (R.leadLog param.term).take (max param.snapshotIndex l.snapshotIndex) <+: R.log id := by
    rcases le_total param.snapshotIndex l.snapshotIndex with hle' | hle'
    · rwa [max_eq_right hle']
    · rwa [max_eq_left hle']
  obtain ⟨hmoved, hmirrors, hacked⟩ := h.ack (n := max param.snapshotIndex l.snapshotIndex)
    (hterm.symm ▸ hled) (hterm.symm ▸ max_le hparam.held hlen) (hterm.symm ▸ hboth)
  exact ⟨_, hmoved, hmirrors, hterm ▸ hacked⟩

end Group.Mirrors

end

end AdvisKV
