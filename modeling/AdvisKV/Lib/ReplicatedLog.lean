import AdvisKV.Lib.Ballot
import Mathlib.Data.List.Infix

/-!
# Replicated logs

A log kept by several replicas, one leader a term. Beside the ballot, the state remembers the log of every
replica, the log with which a candidate stood, the log of each term's leader and how far each replica is
known to hold it. A replica takes over a prefix of its leader's log, never giving up what it shares with
it, and only votes for a candidate whose log is as up to date as its own.

Main results:

* `Replicated.Moved` — what an operation of one replica never takes back, and what it leaves to the others.
* `Replicated.Sound` — the invariant, with one lemma per operation.
-/

namespace List.IsPrefix

variable {α : Type*} {l l' : List α} {n : ℕ}

theorem take_eq (h : l <+: l') (hn : n ≤ l.length) : l'.take n = l.take n := by
  obtain ⟨rest, rfl⟩ := h
  exact List.take_append_of_le_length hn

/-- The part of `l` that `l'` has is a part of `l'` that `l` has. -/
theorem take_comm (h : l.take n <+: l') (hn : n ≤ l.length) : l'.take n = l.take n := by
  rw [h.take_eq (List.length_take_of_le hn).ge, List.take_take, min_self]

theorem getElem?_some (h : l <+: l') {i : ℕ} {a : α} (ha : l[i]? = some a) : l'[i]? = some a := by
  obtain ⟨hi, rfl⟩ := List.getElem?_eq_some_iff.mp ha
  exact List.prefix_iff_getElem?.mp h i hi

end List.IsPrefix

/-- Entries that carry the term they were made in. -/
class Termed (E : Type*) where
  termOf : E → ℕ

export Termed (termOf)

/-- The state of a replicated log; only `log` and the terms are what replicas hold. -/
structure Replicated (V E : Type*) extends Ballot V where
  log : V → List E := fun _ => []
  cand : ℕ → V → Option (List E) := fun _ _ => none
  start : ℕ → List E := fun _ => []
  leadLog : ℕ → List E := fun _ => []
  acked : ℕ → V → ℕ := fun _ _ => 0

set_option linter.unusedSectionVars false

namespace Replicated

variable {V E : Type*} [DecidableEq V] [Termed E]

/-! ## Operations -/

def raise (s : Replicated V E) (v : V) (t : ℕ) : Replicated V E :=
  { s with toBallot := s.toBallot.raise v t }

def grant (s : Replicated V E) (v c : V) : Replicated V E :=
  { s with toBallot := s.toBallot.grant v c }

/-- Replica `v` enters term `t` and stands in it with the log it has. -/
def stand (s : Replicated V E) (v : V) (t : ℕ) : Replicated V E :=
  { s.raise v t with cand := fun τ u => if τ = t ∧ u = v then some (s.log v) else s.cand τ u }

/-- Replica `c` is elected; its log is the leader's log from now on. -/
def elect (s : Replicated V E) (c : V) : Replicated V E :=
  { s with
    toBallot := s.toBallot.elect c
    start := Function.update s.start (s.term c) (s.log c)
    leadLog := Function.update s.leadLog (s.term c) (s.log c) }

/-- The leader `c` appends an entry of its own. -/
def append (s : Replicated V E) (c : V) (e : E) : Replicated V E :=
  { s with
    log := Function.update s.log c (s.log c ++ [e])
    leadLog := Function.update s.leadLog (s.term c) (s.log c ++ [e]) }

/-- Replica `v` replaces its log. -/
def accept (s : Replicated V E) (v : V) (ℓ : List E) : Replicated V E :=
  { s with log := Function.update s.log v ℓ }

/-- It becomes known that `v` holds `n` entries of its leader. -/
def ack (s : Replicated V E) (v : V) (n : ℕ) : Replicated V E :=
  { s with acked := fun t u => if t = s.term v ∧ u = v then max (s.acked t u) n else s.acked t u }

/-! ## The invariant -/

/-- Every entry comes from the leader of its term, with all that was before it there. -/
def Traced (s : Replicated V E) (ℓ : List E) : Prop :=
  ∀ i e, ℓ[i]? = some e → s.lead (termOf e) ≠ none ∧ ℓ.take (i + 1) <+: s.leadLog (termOf e)

def lastTerm (ℓ : List E) : ℕ := (ℓ.getLast?.map termOf).getD 0

variable {ℓ : List E} {e : E} {t : ℕ} {c : V}

/-- A log cut behind an entry ends with the term of that entry. -/
theorem lastTerm_take_succ {i : ℕ} (he : ℓ[i]? = some e) :
    lastTerm (ℓ.take (i + 1)) = termOf e := by
  obtain ⟨hi, -⟩ := List.getElem?_eq_some_iff.mp he
  rw [lastTerm, List.getLast?_eq_getElem?, List.length_take_of_le (by omega),
    List.getElem?_take_of_lt (by omega), Nat.add_sub_cancel, he]
  rfl

/-- The log `ℓ'` is at least as up to date as `ℓ`. -/
def UpToDate (ℓ ℓ' : List E) : Prop :=
  lastTerm ℓ < lastTerm ℓ' ∨ (lastTerm ℓ = lastTerm ℓ' ∧ ℓ.length ≤ ℓ'.length)

/-- The log `ℓ`, which `u` held before term `T`, has what `u` acknowledged in an earlier term, unless a
leader in between lacked it. -/
def Kept (s : Replicated V E) (T : ℕ) (u : V) (ℓ : List E) : Prop :=
  ∀ t n, t < T → n ≤ s.acked t u →
    (∀ τ, t < τ → τ < T → s.lead τ ≠ none → (s.leadLog t).take n <+: s.start τ) →
    (s.leadLog t).take n <+: ℓ

/-- What is true of the log of a replica. -/
structure OwnedBy (s : Replicated V E) (v : V) : Prop where
  traced : s.Traced (s.log v)
  bounded : ∀ e ∈ s.log v, termOf e ≤ s.term v
  keep : s.Kept (s.term v + 1) v (s.log v)

/-- What is true of the log of a leader. -/
structure LedBy (s : Replicated V E) (t : ℕ) : Prop where
  traced : s.Traced (s.leadLog t)
  starts : s.start t <+: s.leadLog t
  before : ∀ e ∈ s.start t, termOf e < t
  own : ∀ e ∈ (s.leadLog t).drop (s.start t).length, termOf e = t

structure Sound (voters : Finset V) (s : Replicated V E) : Prop where
  fair : s.toBallot.Fair voters
  owned : ∀ v, s.OwnedBy v
  stood : ∀ {t v ℓ}, s.cand t v = some ℓ → s.Traced ℓ ∧ (∀ e ∈ ℓ, termOf e < t) ∧ t ≤ s.term v
  led : ∀ {t}, s.lead t ≠ none → s.LedBy t
  acks : ∀ {t v}, s.acked t v ≠ 0 →
    s.lead t ≠ none ∧ t ≤ s.term v ∧ s.acked t v ≤ (s.leadLog t).length
  voted : ∀ {t u c}, s.vote t u = some c → s.lead t = none →
    ∃ ℓ ℓ', s.Traced ℓ ∧ s.cand t c = some ℓ' ∧ UpToDate ℓ ℓ' ∧ s.Kept t u ℓ
  elected : ∀ {t}, s.lead t ≠ none → ∃ Q, Majority voters Q ∧
    ∀ u ∈ Q, t ≤ s.term u ∧ ∃ ℓ, s.Traced ℓ ∧ UpToDate ℓ (s.start t) ∧ s.Kept t u ℓ

/-! ## Moves -/

/-- A later state: nothing decided is taken back, and within a term a log changes only to a prefix of its
leader's, with all it shared with that leader before. -/
structure Grows (s s' : Replicated V E) : Prop where
  term : ∀ v, s.term v ≤ s'.term v
  vote : ∀ {t v c}, s.vote t v = some c → s'.vote t v = some c
  lead : ∀ {t c}, s.lead t = some c → s'.lead t = some c
  cand : ∀ {t v ℓ}, s.cand t v = some ℓ → s'.cand t v = some ℓ
  start : ∀ {t}, s.lead t ≠ none → s'.start t = s.start t
  leadLog : ∀ {t}, s.lead t ≠ none → s.leadLog t <+: s'.leadLog t
  acked : ∀ t v, s.acked t v ≤ s'.acked t v
  log : ∀ {v}, s'.term v = s.term v → s.lead (s.term v) ≠ none → s'.log v = s.log v ∨
    (s'.log v <+: s'.leadLog (s.term v) ∧
      ∀ p, p <+: s.log v → p <+: s.leadLog (s.term v) → p <+: s'.log v)

/-- Replica `u` has not moved. -/
structure Still (u : V) (s s' : Replicated V E) : Prop where
  term : s'.term u = s.term u
  vote : ∀ t, s'.vote t u = s.vote t u
  log : s'.log u = s.log u
  lead : ∀ {t}, s'.lead t = some u → s.lead t = some u
  leadLog : ∀ {t}, s.lead t = some u → s'.leadLog t = s.leadLog t

/-- What may have happened at replica `v`: the others keep what they have. -/
structure Moved (v : V) (s s' : Replicated V E) : Prop where
  grows : Grows s s'
  others : ∀ {u}, u ≠ v → Still u s s'

variable {voters : Finset V} {s s' s'' : Replicated V E} {v : V}

theorem Grows.refl (s : Replicated V E) : Grows s s :=
  ⟨fun _ => le_rfl, id, id, id, fun _ => rfl, fun _ => List.prefix_rfl, fun _ _ => le_rfl,
    fun _ _ => .inl rfl⟩

/-- A term that has a leader keeps it. -/
theorem Grows.led (h : Grows s s') (hlead : s.lead t ≠ none) : s'.lead t ≠ none := by
  obtain ⟨c, hc⟩ := Option.ne_none_iff_exists'.mp hlead
  rw [h.lead hc]
  exact Option.some_ne_none c

/-- Growth composes; for the logs this is where a term that is not left twice matters. -/
theorem Grows.trans (h : Grows s s') (h' : Grows s' s'') : Grows s s'' where
  term v := (h.term v).trans (h'.term v)
  vote hv := h'.vote (h.vote hv)
  lead hl := h'.lead (h.lead hl)
  cand hc := h'.cand (h.cand hc)
  start hl := (h'.start (h.led hl)).trans (h.start hl)
  leadLog hl := (h.leadLog hl).trans (h'.leadLog (h.led hl))
  acked t v := (h.acked t v).trans (h'.acked t v)
  log {v} hterm hl := by
    have hle := h.term v
    have hle' := h'.term v
    have h₁ : s'.term v = s.term v := by omega
    have h₂ : s''.term v = s'.term v := by omega
    have hgrown := h.leadLog hl
    have hsecond := h'.log h₂ (h₁ ▸ h.led hl)
    rw [h₁] at hsecond
    -- either move may have left the log alone; what is kept by both is kept by the two
    rcases h.log h₁ hl with heq | ⟨hpre, hkeep⟩
    · rcases hsecond with heq' | ⟨hpre', hkeep'⟩
      · exact .inl (heq'.trans heq)
      · exact .inr ⟨hpre', fun p hp hq => hkeep' p (heq ▸ hp) (hq.trans hgrown)⟩
    · rcases hsecond with heq' | ⟨hpre', hkeep'⟩
      · rw [heq']
        exact .inr ⟨hpre.trans (h'.leadLog (h.led hl)), hkeep⟩
      · exact .inr ⟨hpre', fun p hp hq => hkeep' p (hkeep p hp hq) (hq.trans hgrown)⟩

theorem Moved.refl (v : V) (s : Replicated V E) : Moved v s s :=
  ⟨.refl s, fun _ => ⟨rfl, fun _ => rfl, rfl, fun h => h, fun _ => rfl⟩⟩

/-- Two operations of one replica are one. -/
theorem Moved.trans (h : Moved v s s') (h' : Moved v s' s'') : Moved v s s'' := by
  refine ⟨h.grows.trans h'.grows, fun hu => ?_⟩
  obtain ⟨hterm, hvote, hlog, hlead, hleadLog⟩ := h.others hu
  obtain ⟨hterm', hvote', hlog', hlead', hleadLog'⟩ := h'.others hu
  exact ⟨hterm'.trans hterm, fun t => (hvote' t).trans (hvote t), hlog'.trans hlog,
    fun hl => hlead (hlead' hl), fun hl => (hleadLog' (h.grows.lead hl)).trans (hleadLog hl)⟩

/-! ## What growth keeps -/

/-- The origin of an entry stays. -/
theorem Traced.mono (h : s.Traced ℓ) (hg : Grows s s') : s'.Traced ℓ := by
  intro i e he
  obtain ⟨hled, hpre⟩ := h i e he
  exact ⟨hg.led hled, hpre.trans (hg.leadLog hled)⟩

/-- A prefix has the origin of the whole. -/
theorem Traced.take {ℓ' : List E} (h : s.Traced ℓ') (hpre : ℓ <+: ℓ') : s.Traced ℓ := by
  intro i e he
  obtain ⟨hi, -⟩ := List.getElem?_eq_some_iff.mp he
  obtain ⟨hled, htake⟩ := h i e (hpre.getElem?_some he)
  refine ⟨hled, ?_⟩
  rwa [hpre.take_eq (by omega)] at htake

theorem Sound.traced (hs : s.Sound voters) (v : V) : s.Traced (s.log v) := (hs.owned v).traced

/-- What is acknowledged does not change. -/
theorem Sound.take_leadLog (hs : s.Sound voters) (hg : Grows s s') {n : ℕ} {u : V} (hn : n ≤ s.acked t u) :
    (s'.leadLog t).take n = (s.leadLog t).take n := by
  rcases Nat.eq_zero_or_pos n with rfl | hpos
  · simp
  · obtain ⟨hled, -, hle⟩ := hs.acks (t := t) (v := u) (by omega)
    exact (hg.leadLog hled).take_eq (hn.trans hle)

/-- Growth keeps what a log kept, while nothing earlier is acknowledged anew. -/
theorem Kept.mono (hs : s.Sound voters) (hg : Grows s s') {T : ℕ} {u : V} (h : s.Kept T u ℓ)
    (hacked : ∀ t < T, s'.acked t u = s.acked t u) : s'.Kept T u ℓ := by
  intro t n ht hn hbetween
  rw [hacked t ht] at hn
  rw [hs.take_leadLog hg hn] at hbetween ⊢
  -- the leaders in between may have become more, which only adds to the premise
  refine h t n ht hn fun τ h₁ h₂ hled => ?_
  rw [← hg.start hled]
  exact hbetween τ h₁ h₂ (hg.led hled)

/-- A replica has acknowledged nothing of the terms it has not entered. -/
theorem Sound.keeps (hs : s.Sound voters) (u : V) {T : ℕ} (hT : s.term u < T) : s.Kept T u (s.log u) := by
  intro t n ht hn hbetween
  rcases Nat.lt_or_ge (s.term u) t with hlate | hle
  · have hzero : s.acked t u = 0 := by
      by_contra hne
      have := (hs.acks hne).2.1
      omega
    obtain rfl : n = 0 := by omega
    simp
  · exact (hs.owned u).keep t n (by omega) hn fun τ h₁ h₂ => hbetween τ h₁ (by omega)

/-- The log of a replica that has not changed, in whatever term it is now. -/
theorem Sound.owned_mono (hs : s.Sound voters) (hg : Grows s s') (hlog : s'.log v = s.log v)
    (hacked : ∀ t, s'.acked t v = s.acked t v) : s'.OwnedBy v := by
  refine ⟨hlog ▸ (hs.traced v).mono hg, fun e he => ?_, ?_⟩
  · rw [hlog] at he
    exact ((hs.owned v).bounded e he).trans (hg.term v)
  · rw [hlog]
    exact (hs.keeps v (Nat.lt_succ_of_le (hg.term v))).mono hs hg fun t _ => hacked t

/-- A candidate's log stays as it stood. -/
theorem Sound.stood_mono (hs : s.Sound voters) (hg : Grows s s') (hc : s.cand t v = some ℓ) :
    s'.Traced ℓ ∧ (∀ e ∈ ℓ, termOf e < t) ∧ t ≤ s'.term v := by
  obtain ⟨htraced, hbefore, hterm⟩ := hs.stood hc
  exact ⟨htraced.mono hg, hbefore, hterm.trans (hg.term v)⟩

/-- An acknowledgement that did not change is still one. -/
theorem Sound.acks_mono (hs : s.Sound voters) (hg : Grows s s') (hacked : s'.acked t v = s.acked t v)
    (hne : s'.acked t v ≠ 0) :
    s'.lead t ≠ none ∧ t ≤ s'.term v ∧ s'.acked t v ≤ (s'.leadLog t).length := by
  rw [hacked] at hne ⊢
  obtain ⟨hled, hterm, hlen⟩ := hs.acks hne
  exact ⟨hg.led hled, hterm.trans (hg.term v), hlen.trans (hg.leadLog hled).length_le⟩

/-- A leader's log that has not changed. -/
theorem LedBy.mono (h : s.LedBy t) (hg : Grows s s') (hled : s.lead t ≠ none)
    (hsame : s'.leadLog t = s.leadLog t) : s'.LedBy t := by
  have hstart := hg.start hled
  exact ⟨hsame ▸ h.traced.mono hg, hsame ▸ hstart ▸ h.starts, hstart ▸ h.before, hsame ▸ hstart ▸ h.own⟩

/-- An operation of a replica acknowledges only in that replica's term. -/
def Acks (s s' : Replicated V E) : Prop := ∀ t u, t < s.term u → s'.acked t u = s.acked t u

/-- The reason for a vote stays a reason. -/
theorem Sound.voted_mono (hs : s.Sound voters) (hg : Grows s s') (ha : Acks s s') {u : V}
    (hvote : s.vote t u = some c) (hnone : s.lead t = none) :
    ∃ ℓ ℓ', s'.Traced ℓ ∧ s'.cand t c = some ℓ' ∧ UpToDate ℓ ℓ' ∧ s'.Kept t u ℓ := by
  obtain ⟨ℓ, ℓ', htraced, hcand, hup, hkept⟩ := hs.voted hvote hnone
  have hentered : t ≤ s.term u := hs.fair.entered (hvote ▸ Option.some_ne_none c)
  exact ⟨ℓ, ℓ', htraced.mono hg, hg.cand hcand, hup, hkept.mono hs hg fun τ hτ => ha τ u (by omega)⟩

/-- The reasons behind an election stay reasons. -/
theorem Sound.elected_mono (hs : s.Sound voters) (hg : Grows s s') (ha : Acks s s') (hled : s.lead t ≠ none) :
    ∃ Q, Majority voters Q ∧
      ∀ u ∈ Q, t ≤ s'.term u ∧ ∃ ℓ, s'.Traced ℓ ∧ UpToDate ℓ (s'.start t) ∧ s'.Kept t u ℓ := by
  obtain ⟨Q, hQ, hvoters⟩ := hs.elected hled
  refine ⟨Q, hQ, fun u hu => ?_⟩
  obtain ⟨hterm, ℓ, htraced, hup, hkept⟩ := hvoters u hu
  refine ⟨hterm.trans (hg.term u), ℓ, htraced.mono hg, ?_, hkept.mono hs hg fun τ hτ => ha τ u (by omega)⟩
  rwa [hg.start hled]

/-! ## Terms and votes -/

/-- Nothing has happened yet. -/
theorem Sound.empty (voters : Finset V) : Sound voters ({} : Replicated V E) where
  fair := Ballot.Fair.empty voters
  owned v := ⟨(fun i e he => by simp at he), (fun e he => by simp at he), fun t n _ _ _ => by simp⟩
  stood h := by cases h
  led h := absurd rfl h
  acks h := absurd rfl h
  voted h := by cases h
  elected h := absurd rfl h

/-- Entering a later term. -/
theorem Moved.raise (hle : s.term v ≤ t) : Moved v s (s.raise v t) := by
  have hother : ∀ {u}, u ≠ v → (s.raise v t).term u = s.term u := s.toBallot.raise_term_of_ne t
  refine ⟨⟨fun u => ?_, id, id, id, fun _ => rfl, fun _ => List.prefix_rfl, fun _ _ => le_rfl,
    fun _ _ => .inl rfl⟩, fun hu => ⟨hother hu, fun _ => rfl, rfl, fun h => h, fun _ => rfl⟩⟩
  by_cases hu : u = v
  · subst hu
    exact hle.trans (s.toBallot.raise_term_self u t).ge
  · exact (hother hu).ge

/-- Entering a later term keeps the invariant. -/
theorem Sound.raise (hs : s.Sound voters) (hle : s.term v ≤ t) : (s.raise v t).Sound voters := by
  have hg := (Moved.raise hle).grows
  have ha : Acks s (s.raise v t) := fun _ _ _ => rfl
  exact ⟨hs.fair.raise hle, fun u => hs.owned_mono hg rfl fun _ => rfl, hs.stood_mono hg,
    fun hled => (hs.led hled).mono hg hled rfl, hs.acks_mono hg rfl, hs.voted_mono hg ha,
    hs.elected_mono hg ha⟩

/-- A vote moves nothing but the ballot. -/
theorem Moved.grant (hfree : s.vote (s.term v) v = none ∨ s.vote (s.term v) v = some c) :
    Moved v s (s.grant v c) := by
  have hballot := Ballot.Moved.grant hfree
  exact ⟨⟨fun _ => le_rfl, hballot.voted, id, id, fun _ => rfl, fun _ => List.prefix_rfl,
    fun _ _ => le_rfl, fun _ _ => .inl rfl⟩,
    fun hu => ⟨rfl, fun _ => hballot.vote hu, rfl, fun h => h, fun _ => rfl⟩⟩

/-- A vote for a candidate that is up to date, at least while the term has no leader. -/
theorem Sound.grant (hs : s.Sound voters) (hfree : s.vote (s.term v) v = none ∨ s.vote (s.term v) v = some c)
    (hup : ∃ ℓ, s.cand (s.term v) c = some ℓ ∧ UpToDate (s.log v) ℓ) :
    (s.grant v c).Sound voters := by
  have hg := (Moved.grant hfree).grows
  have ha : Acks s (s.grant v c) := fun _ _ _ => rfl
  refine ⟨hs.fair.grant hfree, fun u => hs.owned_mono hg rfl fun _ => rfl, hs.stood_mono hg,
    fun hled => (hs.led hled).mono hg hled rfl, hs.acks, fun {t u c'} hv hn => ?_, hs.elected_mono hg ha⟩
  by_cases hne : u ≠ v ∨ t ≠ s.term v
  · have hold : s.vote t u = some c' := (s.toBallot.grant_vote_of_ne hne).symm.trans hv
    exact hs.voted_mono hg ha hold hn
  · obtain ⟨rfl, rfl⟩ : u = v ∧ t = s.term v := by
      simpa only [not_or, not_not] using hne
    have hc : some c = some c' := (s.toBallot.grant_vote_self u c).symm.trans hv
    cases hc
    obtain ⟨ℓ, hcand, huptodate⟩ := hup
    refine ⟨s.log u, ℓ, (hs.traced u).mono hg, hcand, huptodate, ?_⟩
    -- the term has no leader yet, so only earlier leaders count
    have hkept : s.Kept (s.term u) u (s.log u) := by
      intro t n ht hn' hbetween
      refine (hs.owned u).keep t n (by omega) hn' fun τ h₁ h₂ hled => hbetween τ h₁ ?_ hled
      refine lt_of_le_of_ne (by omega) ?_
      rintro rfl
      exact hled hn
    exact hkept.mono hs hg fun _ _ => rfl

/-- Standing in a term that was not entered before. -/
theorem Moved.stand (hs : s.Sound voters) (hlt : s.term v < t) : Moved v s (s.stand v t) := by
  have hraise := Moved.raise hlt.le
  refine ⟨⟨hraise.grows.term, id, id, fun {τ u ℓ} hc => (if_neg ?_).trans hc, fun _ => rfl,
    fun _ => List.prefix_rfl, fun _ _ => le_rfl, fun _ _ => .inl rfl⟩,
    fun hu => ⟨(hraise.others hu).term, fun _ => rfl, rfl, fun h => h, fun _ => rfl⟩⟩
  -- whoever stood in `t` before has entered `t`
  rintro ⟨rfl, rfl⟩
  have hentered := (hs.stood hc).2.2
  omega

/-- **Standing** in a later term. -/
theorem Sound.stand (hs : s.Sound voters) (hlt : s.term v < t) : (s.stand v t).Sound voters := by
  have hg := (Moved.stand hs hlt).grows
  have ha : Acks s (s.stand v t) := fun _ _ _ => rfl
  refine ⟨hs.fair.raise hlt.le, fun u => hs.owned_mono hg rfl fun _ => rfl, fun {τ u ℓ} hc => ?_,
    fun hled => (hs.led hled).mono hg hled rfl, hs.acks_mono hg rfl, hs.voted_mono hg ha,
    hs.elected_mono hg ha⟩
  -- the new candidate stands with the log it has, every other one as before
  by_cases heq : τ = t ∧ u = v
  · obtain rfl := Option.some.inj ((if_pos heq).symm.trans hc)
    obtain ⟨rfl, rfl⟩ := heq
    exact ⟨(hs.traced u).mono hg, fun e he => ((hs.owned u).bounded e he).trans_lt hlt,
      (s.toBallot.raise_term_self u τ).ge⟩
  · exact hs.stood_mono hg ((if_neg heq).symm.trans hc)

/-- Nobody has voted in a term it has not entered. -/
theorem Sound.unvoted (hs : s.Sound voters) (hlt : s.term v < t) : s.vote t v = none := by
  by_contra hvoted
  have hentered := hs.fair.entered hvoted
  omega

/-- A candidate votes for itself. -/
theorem Sound.campaign (hs : s.Sound voters) (hlt : s.term v < t) :
    ((s.stand v t).grant v v).Sound voters ∧ Moved v s ((s.stand v t).grant v v) ∧
      ((s.stand v t).grant v v).vote t v = some v := by
  have hterm : (s.stand v t).term v = t := s.toBallot.raise_term_self v t
  have hfree : (s.stand v t).vote ((s.stand v t).term v) v = none := hterm.symm ▸ hs.unvoted hlt
  have hvoted := (s.stand v t).toBallot.grant_vote_self v v
  rw [hterm] at hvoted
  exact ⟨(hs.stand hlt).grant (.inl hfree) ⟨s.log v, if_pos ⟨hterm, rfl⟩, .inr ⟨rfl, le_rfl⟩⟩,
    (Moved.stand hs hlt).trans (.grant (.inl hfree)), hvoted⟩

/-! ## Leaders -/

/-- An election in a term without a leader. -/
theorem Moved.elect (hnone : s.lead (s.term v) = none) : Moved v s (s.elect v) := by
  have hother : ∀ {t}, s.lead t ≠ none → t ≠ s.term v := by
    rintro t hled rfl
    exact hled hnone
  refine ⟨⟨fun _ => le_rfl, id, fun {t c} hl => ?_, id, fun hled => Function.update_of_ne (hother hled) _ _,
    fun hled => ?_, fun _ _ => le_rfl, fun _ _ => .inl rfl⟩,
    fun {u} hu => ⟨rfl, fun _ => rfl, rfl, fun {t} hl => ?_, fun hl => ?_⟩⟩
  · exact (s.toBallot.elect_lead_of_ne (hother (hl ▸ Option.some_ne_none c))).trans hl
  · exact (Function.update_of_ne (hother hled) (s.log v) s.leadLog).symm ▸ List.prefix_rfl
  · by_cases ht : t = s.term v
    · subst ht
      have hself : (s.elect v).lead (s.term v) = some v := s.toBallot.elect_lead_self v
      exact absurd (Option.some.inj (hl.symm.trans hself)) hu
    · exact (s.toBallot.elect_lead_of_ne ht).symm.trans hl
  · exact Function.update_of_ne (hother (hl ▸ Option.some_ne_none u)) _ _

/-- **Elections.** A majority of the votes elects a candidate that still has the log it stood with. -/
theorem Sound.elect (hs : s.Sound voters) {Q : Finset V} (hnone : s.lead (s.term c) = none)
    (hcand : s.cand (s.term c) c = some (s.log c)) (hQ : Majority voters Q)
    (hvotes : ∀ u ∈ Q, s.vote (s.term c) u = some c) : (s.elect c).Sound voters := by
  have hg := (Moved.elect hnone).grows
  have ha : Acks s (s.elect c) := fun _ _ _ => rfl
  have hstart : (s.elect c).start (s.term c) = s.log c := Function.update_self _ _ _
  have hleadLog : (s.elect c).leadLog (s.term c) = s.log c := Function.update_self _ _ _
  have hself : (s.elect c).lead (s.term c) = some c := s.toBallot.elect_lead_self c
  have hold : ∀ {t}, t ≠ s.term c → (s.elect c).lead t = s.lead t := s.toBallot.elect_lead_of_ne
  refine ⟨hs.fair.elect hQ hvotes, fun u => hs.owned_mono hg rfl fun _ => rfl, hs.stood_mono hg,
    fun {t} hled => ?_, hs.acks_mono hg rfl, fun {t u c'} hv hn => ?_, fun {t} hled => ?_⟩
  · by_cases ht : t = s.term c
    · subst ht
      refine ⟨?_, ?_, ?_, ?_⟩
      · rw [hleadLog]
        exact (hs.traced c).mono hg
      · rw [hleadLog, hstart]
      · rw [hstart]
        exact (hs.stood hcand).2.1
      · rw [hleadLog, hstart]
        simp
    · rw [hold ht] at hled
      exact (hs.led hled).mono hg hled (Function.update_of_ne ht _ _)
  · have ht : t ≠ s.term c := by
      rintro rfl
      rw [hself] at hn
      cases hn
    rw [hold ht] at hn
    exact hs.voted_mono hg ha hv hn
  · by_cases ht : t = s.term c
    · -- the voters have compared with the log `c` stood with, which is its start
      subst ht
      refine ⟨Q, hQ, fun u hu => ?_⟩
      obtain ⟨ℓ, ℓ', htraced, hc, hup, hkept⟩ := hs.voted_mono hg ha (hvotes u hu) hnone
      obtain rfl := Option.some.inj (hcand.symm.trans hc)
      exact ⟨hs.fair.entered (hvotes u hu ▸ Option.some_ne_none c), ℓ, htraced, hstart.symm ▸ hup, hkept⟩
    · rw [hold ht] at hled
      exact hs.elected_mono hg ha hled

/-- The leader of the term, with the leader's log, so that it may append. -/
structure Leading (s : Replicated V E) (c : V) : Prop where
  lead : s.lead (s.term c) = some c
  log : s.leadLog (s.term c) = s.log c

theorem Leading.led (h : s.Leading v) : s.lead (s.term v) ≠ none := by
  rw [h.lead]
  exact Option.some_ne_none v

/-- A leader that has not moved still leads. -/
theorem Leading.mono (h : s.Leading v) (hg : Grows s s') (hstill : Still v s s') : s'.Leading v := by
  refine ⟨?_, ?_⟩
  · rw [hstill.term]
    exact hg.lead h.lead
  · rw [hstill.term, hstill.log, hstill.leadLog h.lead]
    exact h.log

/-- A leader's own entry goes behind all it has. -/
theorem Moved.append (hlead : s.Leading v) (e : E) : Moved v s (s.append v e) := by
  have hleadLog : (s.append v e).leadLog (s.term v) = s.log v ++ [e] := Function.update_self _ _ _
  have hlog : (s.append v e).log v = s.log v ++ [e] := Function.update_self _ _ _
  have hother : ∀ {t}, t ≠ s.term v → (s.append v e).leadLog t = s.leadLog t :=
    fun ht => Function.update_of_ne ht _ _
  refine ⟨⟨fun _ => le_rfl, id, id, id, fun _ => rfl, fun {t} _ => ?_, fun _ _ => le_rfl,
    fun {u} _ _ => ?_⟩, fun hu => ⟨rfl, fun _ => rfl, Function.update_of_ne hu _ _, fun h => h,
    fun hl => hother ?_⟩⟩
  · by_cases ht : t = s.term v
    · subst ht
      rw [hleadLog, hlead.log]
      exact List.prefix_append _ _
    · rw [hother ht]
  · by_cases hu : u = v
    · subst hu
      rw [hlog]
      exact .inr ⟨hleadLog.symm ▸ List.prefix_rfl, fun p hp _ => hp.trans (List.prefix_append _ _)⟩
    · exact .inl (Function.update_of_ne hu _ _)
  · -- the term has one leader, so another one's log is the log of another term
    rintro rfl
    exact hu (Option.some.inj (hl.symm.trans hlead.lead))

/-- An entry behind a traced log is traced when its leader's log has both. -/
theorem Traced.append (h : s.Traced ℓ) (hled : s.lead (termOf e) ≠ none)
    (hlog : ℓ ++ [e] <+: s.leadLog (termOf e)) : s.Traced (ℓ ++ [e]) := by
  intro i e' he'
  rcases Nat.lt_or_ge i ℓ.length with hlt | hge
  · rw [List.getElem?_append_left hlt] at he'
    rw [List.take_append_of_le_length (by omega)]
    exact h i e' he'
  · rw [List.getElem?_append_right hge, List.getElem?_singleton] at he'
    split at he'
    · cases he'
      rw [List.take_of_length_le (by simp; omega)]
      exact ⟨hled, hlog⟩
    · cases he'

/-- **Appending.** -/
theorem Sound.append (hs : s.Sound voters) (hlead : s.Leading c) (he : termOf e = s.term c) :
    (s.append c e).Sound voters := by
  have hg := (Moved.append hlead e).grows
  have ha : Acks s (s.append c e) := fun _ _ _ => rfl
  have hleadLog : (s.append c e).leadLog (s.term c) = s.log c ++ [e] := Function.update_self _ _ _
  have hlog : (s.append c e).log c = s.log c ++ [e] := Function.update_self _ _ _
  have htraced : (s.append c e).Traced (s.log c ++ [e]) := by
    refine ((hs.traced c).mono hg).append ?_ ?_
    · rw [he]
      exact hlead.led
    · rw [he, hleadLog]
  -- only the leader's log and the log of its term have changed
  refine ⟨hs.fair, fun u => ?_, hs.stood_mono hg, fun {t} hled => ?_, hs.acks_mono hg rfl,
    hs.voted_mono hg ha, hs.elected_mono hg ha⟩
  · by_cases hu : u = c
    · subst hu
      refine ⟨hlog ▸ htraced, fun e' he' => ?_, ?_⟩
      · rw [hlog] at he'
        rcases List.mem_append.mp he' with hold | hnew
        · exact (hs.owned u).bounded e' hold
        · rw [List.mem_singleton.mp hnew, he]
          exact le_rfl
      · rw [hlog]
        intro t n ht hn hbetween
        rw [hs.take_leadLog hg hn] at hbetween ⊢
        exact ((hs.owned u).keep t n ht hn hbetween).trans (List.prefix_append _ _)
    · exact hs.owned_mono hg (Function.update_of_ne hu _ _) fun _ => rfl
  · by_cases ht : t = s.term c
    · subst ht
      have h := hs.led hled
      have hstarts := h.starts
      have hown := h.own
      rw [hlead.log] at hstarts hown
      refine ⟨hleadLog ▸ htraced, hleadLog ▸ hstarts.trans (List.prefix_append _ _), h.before,
        fun e' he' => ?_⟩
      rw [hleadLog] at he'
      replace he' : e' ∈ (s.log c ++ [e]).drop (s.start (s.term c)).length := he'
      rw [List.drop_append_of_le_length hstarts.length_le] at he'
      rcases List.mem_append.mp he' with hold | hnew
      · exact hown e' hold
      · rw [List.mem_singleton.mp hnew, he]
    · exact (hs.led hled).mono hg hled (Function.update_of_ne ht _ _)

/-! ## Followers -/

/-- What a replica may replace its log by: a prefix of its leader's log that keeps what the two share. -/
structure Follows (s : Replicated V E) (v : V) (ℓ : List E) : Prop where
  led : s.lead (s.term v) ≠ none
  leads : ℓ <+: s.leadLog (s.term v)
  keeps : ∀ p, p <+: s.log v → p <+: s.leadLog (s.term v) → p <+: ℓ

/-- Taking over a prefix of the leader's log. -/
theorem Moved.accept (h : s.Follows v ℓ) : Moved v s (s.accept v ℓ) := by
  refine ⟨⟨fun _ => le_rfl, id, id, id, fun _ => rfl, fun _ => List.prefix_rfl, fun _ _ => le_rfl,
    fun {u} _ _ => ?_⟩, fun hu => ⟨rfl, fun _ => rfl, Function.update_of_ne hu _ _, fun h => h,
    fun _ => rfl⟩⟩
  by_cases hu : u = v
  · subst hu
    have hlog : (s.accept u ℓ).log u = ℓ := Function.update_self _ _ _
    rw [hlog]
    exact .inr ⟨h.leads, h.keeps⟩
  · exact .inl (Function.update_of_ne hu _ _)

/-- A leader's log has no entry of a later term. -/
theorem LedBy.bounded (h : s.LedBy t) (he : e ∈ s.leadLog t) : termOf e ≤ t := by
  rw [← List.take_append_drop (s.start t).length (s.leadLog t)] at he
  rcases List.mem_append.mp he with hold | hown
  · rw [h.starts.take_eq le_rfl, List.take_length] at hold
    exact (h.before e hold).le
  · exact (h.own e hown).le

/-- **Following a leader.** -/
theorem Sound.accept (hs : s.Sound voters) (h : s.Follows v ℓ) :
    (s.accept v ℓ).Sound voters := by
  have hg := (Moved.accept h).grows
  have ha : Acks s (s.accept v ℓ) := fun _ _ _ => rfl
  have hlead := hs.led h.led
  refine ⟨hs.fair, fun u => ?_, hs.stood_mono hg, fun hled => (hs.led hled).mono hg hled rfl, hs.acks,
    hs.voted_mono hg ha, hs.elected_mono hg ha⟩
  -- the other replicas have the logs they had
  by_cases hu : u = v
  · subst hu
    have hlog : (s.accept u ℓ).log u = ℓ := Function.update_self _ _ _
    refine ⟨?_, fun e he => ?_, ?_⟩
    · rw [hlog]
      exact (hlead.traced.take h.leads).mono hg
    · rw [hlog] at he
      exact hlead.bounded (h.leads.subset he)
    · rw [hlog]
      intro t n ht hn hbetween
      refine h.keeps _ ((hs.owned u).keep t n ht hn hbetween) ?_
      -- what was acknowledged earlier is in this leader's log too, or the premise fails
      rcases Nat.lt_or_ge t (s.term u) with hlt | hge
      · exact (hbetween (s.term u) hlt (Nat.lt_succ_self _) h.led).trans hlead.starts
      · obtain rfl : t = s.term u := le_antisymm (Nat.le_of_lt_succ ht) hge
        exact List.take_prefix n _
  · exact hs.owned_mono hg (Function.update_of_ne hu _ _) fun _ => rfl

/-- What is known to be held only grows. -/
theorem Moved.ack (n : ℕ) : Moved v s (s.ack v n) := by
  refine ⟨⟨fun _ => le_rfl, id, id, id, fun _ => rfl, fun _ => List.prefix_rfl, fun t u => ?_,
    fun _ _ => .inl rfl⟩, fun _ => ⟨rfl, fun _ => rfl, rfl, fun h => h, fun _ => rfl⟩⟩
  show s.acked t u ≤ if t = s.term v ∧ u = v then _ else _
  split
  · exact le_max_left _ _
  · exact le_rfl

theorem ack_acked (s : Replicated V E) (v : V) (n : ℕ) :
    (s.ack v n).acked (s.term v) v = max (s.acked (s.term v) v) n :=
  if_pos ⟨rfl, rfl⟩

/-- What is acknowledged is inside the leader's log. -/
theorem Sound.acked_le (hs : s.Sound voters) (t : ℕ) (u : V) : s.acked t u ≤ (s.leadLog t).length := by
  rcases Nat.eq_zero_or_pos (s.acked t u) with hzero | hpos
  · rw [hzero]
    exact Nat.zero_le _
  · exact (hs.acks hpos.ne').2.2

/-- **Acknowledging** what the log holds of the leader's. -/
theorem Sound.ack (hs : s.Sound voters) {n : ℕ} (hled : s.lead (s.term v) ≠ none)
    (hn : n ≤ (s.leadLog (s.term v)).length) (hheld : (s.leadLog (s.term v)).take n <+: s.log v) :
    (s.ack v n).Sound voters := by
  have hg := (Moved.ack (s := s) (v := v) n).grows
  have hacked : ∀ t u, ¬(t = s.term v ∧ u = v) → (s.ack v n).acked t u = s.acked t u :=
    fun t u hne => if_neg hne
  have ha : Acks s (s.ack v n) := fun t u ht => hacked t u (by rintro ⟨rfl, rfl⟩; omega)
  -- only the acknowledgement of `v` in its term is new
  refine ⟨hs.fair, fun u => ?_, hs.stood_mono hg, fun hled => (hs.led hled).mono hg hled rfl,
    fun {t u} hne => ?_, hs.voted_mono hg ha, hs.elected_mono hg ha⟩
  · refine ⟨(hs.traced u).mono hg, (hs.owned u).bounded, fun t m ht hm hbetween => ?_⟩
    by_cases heq : t = s.term v ∧ u = v
    · obtain ⟨rfl, rfl⟩ := heq
      rw [s.ack_acked] at hm
      rcases le_max_iff.mp hm with hold | hnew
      · exact (hs.owned u).keep (s.term u) m ht hold hbetween
      · exact (List.take_prefix_take_left hnew).trans hheld
    · rw [hacked t u heq] at hm
      exact (hs.owned u).keep t m ht hm hbetween
  · by_cases heq : t = s.term v ∧ u = v
    · obtain ⟨rfl, rfl⟩ := heq
      rw [s.ack_acked]
      exact ⟨hled, le_rfl, max_le (hs.acked_le _ u) hn⟩
    · exact hs.acks_mono hg (hacked t u heq) hne

end Replicated
