import AdvisKV.Lib.ReplicatedLog

/-!
# Chosen prefixes

What a majority has acknowledged is there to stay: it is in the log of every later leader, and no two such
prefixes contradict each other.

Main results:

* `Replicated.Traced.take_eq` — two logs with entries of one term at one position agree up to it.
* `Replicated.Sound.chosen_start` — a chosen prefix is in the log of every later leader.
* `Replicated.Chosen.comparable` — of two chosen prefixes one continues the other.
* `Replicated.Probed.follows` — a leader that never probes below what a follower shares with it may have
  its entries merged without a check of what stands behind them.
-/

set_option linter.unusedSectionVars false

namespace Replicated

variable {V E : Type*} [DecidableEq V] [Termed E] {voters : Finset V} {s s' : Replicated V E}

/-! ## Matching -/

variable {ℓ : List E} {i t p : ℕ} {e : E}

/-- Two logs with entries of one term at one position agree up to it. -/
theorem Traced.take_eq {ℓ' : List E} (h : s.Traced ℓ) (h' : s.Traced ℓ') {e' : E} (he : ℓ[i]? = some e)
    (he' : ℓ'[i]? = some e') (hterm : termOf e = termOf e') :
    ℓ.take (i + 1) = ℓ'.take (i + 1) := by
  have hpre := (h i e he).2
  have hpre' := (h' i e' he').2
  rw [← hterm] at hpre'
  obtain ⟨hi, -⟩ := List.getElem?_eq_some_iff.mp he
  obtain ⟨hi', -⟩ := List.getElem?_eq_some_iff.mp he'
  have hlen : (ℓ.take (i + 1)).length = (ℓ'.take (i + 1)).length := by
    rw [List.length_take_of_le (by omega), List.length_take_of_le (by omega)]
  exact (List.prefix_of_prefix_length_le hpre hpre' hlen.le).eq_of_length hlen

/-- Two logs whose prefixes of one length end in one term share them. -/
theorem Traced.take_eq_of_lastTerm {ℓ' : List E} (h : s.Traced ℓ) (h' : s.Traced ℓ') (hi : i ≤ ℓ.length)
    (hi' : i ≤ ℓ'.length) (hterm : lastTerm (ℓ.take i) = lastTerm (ℓ'.take i)) :
    ℓ.take i = ℓ'.take i := by
  rcases Nat.eq_zero_or_pos i with rfl | hpos
  · rw [List.take_zero, List.take_zero]
  · obtain ⟨e, he⟩ : ∃ e, ℓ[i - 1]? = some e := ⟨_, List.getElem?_eq_getElem (by omega)⟩
    obtain ⟨e', he'⟩ : ∃ e', ℓ'[i - 1]? = some e' := ⟨_, List.getElem?_eq_getElem (by omega)⟩
    have htake := h.take_eq h' he he'
    rw [← lastTerm_take_succ he, ← lastTerm_take_succ he', Nat.sub_add_cancel hpos] at htake
    exact htake hterm

/-- Terms never fall along a log. -/
theorem Sound.term_le (hs : s.Sound voters) (h : s.Traced ℓ) {j : ℕ} {e' : E} (hij : i ≤ j)
    (he : ℓ[i]? = some e) (he' : ℓ[j]? = some e') : termOf e ≤ termOf e' := by
  obtain ⟨hled, hpre⟩ := h j e' he'
  have hmem : e ∈ ℓ.take (j + 1) := by
    refine List.mem_of_getElem? (i := i) ?_
    rw [List.getElem?_take_of_lt (by omega)]
    exact he
  exact (hs.led hled).bounded (hpre.subset hmem)

/-- A log with an entry of term `T`, and none of a later term, is a prefix of that leader's. -/
theorem Sound.prefix_leadLog (hs : s.Sound voters) (h : s.Traced ℓ) {T : ℕ} (hbound : ∀ e ∈ ℓ, termOf e ≤ T)
    (he : ℓ[i]? = some e) (hT : termOf e = T) :
    ℓ <+: s.leadLog T := by
  obtain ⟨hi, -⟩ := List.getElem?_eq_some_iff.mp he
  obtain ⟨last, hlast⟩ : ∃ last, ℓ[ℓ.length - 1]? = some last :=
    ⟨_, List.getElem?_eq_getElem (by omega)⟩
  -- its last entry is of term `T` too, and that entry's leader has everything before it
  have hge := hs.term_le h (by omega : i ≤ ℓ.length - 1) he hlast
  have hle := hbound last (List.mem_of_getElem? hlast)
  have hpre := (h _ last hlast).2
  rw [List.take_of_length_le (by omega), show termOf last = T by omega] at hpre
  exact hpre

/-- Behind what a leader started with there are only entries of its own. -/
theorem LedBy.own_at {T : ℕ} (h : s.LedBy T) (hi : (s.start T).length ≤ i) (he : (s.leadLog T)[i]? = some e) :
    termOf e = T := by
  refine h.own e (List.mem_of_getElem? (i := i - (s.start T).length) ?_)
  rwa [List.getElem?_drop, show (s.start T).length + (i - (s.start T).length) = i by omega]

/-! ## Choosing -/

/-- A majority holds the first `p` entries of the leader of term `t`, the last of them its own. -/
structure ChosenAt (voters : Finset V) (s : Replicated V E) (t p : ℕ) : Prop where
  led : s.lead t ≠ none
  own : (s.start t).length < p
  length : p ≤ (s.leadLog t).length
  quorum : ∃ Q, Majority voters Q ∧ ∀ u ∈ Q, p ≤ s.acked t u

/-- The last entry of a log and its term. -/
theorem exists_last (h : ℓ ≠ []) :
    ∃ e, ℓ[ℓ.length - 1]? = some e ∧ lastTerm ℓ = termOf e := by
  have hlen : 0 < ℓ.length := List.length_pos_iff.mpr h
  have he : ℓ[ℓ.length - 1]? = some ℓ[ℓ.length - 1] := List.getElem?_eq_getElem (by omega)
  have hlast := lastTerm_take_succ he
  rw [Nat.sub_add_cancel hlen, List.take_length] at hlast
  exact ⟨_, he, hlast⟩

/-- The last entry of a chosen prefix is of the term that chose it. -/
theorem ChosenAt.last (hs : s.Sound voters) (h : ChosenAt voters s t p) :
    ∃ e, (s.leadLog t)[p - 1]? = some e ∧ termOf e = t := by
  have hown := h.own
  have hlen := h.length
  have he : (s.leadLog t)[p - 1]? = some (s.leadLog t)[p - 1] := List.getElem?_eq_getElem (by omega)
  exact ⟨_, he, (hs.led h.led).own_at (by omega) he⟩

/-- **Leader completeness.** -/
theorem Sound.chosen_start (hs : s.Sound voters) (hc : ChosenAt voters s t p) (T : ℕ) :
    t < T → s.lead T ≠ none → (s.leadLog t).take p <+: s.start T := by
  -- by the term of the later leader: all leaders in between have the prefix already
  induction T using Nat.strong_induction_on with
  | _ T ih =>
    intro hlt hled
    -- a replica that acknowledged the prefix and voted for the leader of term `T`
    obtain ⟨Q, hQ, hvoters⟩ := hs.elected hled
    obtain ⟨Q', hQ', hacks⟩ := hc.quorum
    obtain ⟨u, hu, hu'⟩ := hQ.inter hQ'
    obtain ⟨-, ℓ, htraced, hup, hkept⟩ := hvoters u hu
    have hheld : (s.leadLog t).take p <+: ℓ :=
      hkept t p hlt (hacks u hu') fun τ h₁ h₂ hl => ih τ h₂ h₁ hl
    obtain ⟨e, he, heterm⟩ := hc.last hs
    have hown := hc.own
    have hplen : ((s.leadLog t).take p).length = p := List.length_take_of_le hc.length
    have heℓ : ℓ[p - 1]? = some e := by
      refine hheld.getElem?_some ?_
      rwa [List.getElem?_take_of_lt (by omega)]
    have hne : ℓ ≠ [] := by
      rintro rfl
      simp at heℓ
    obtain ⟨last, hlast, hlastTerm⟩ := exists_last hne
    have hpℓ : p ≤ ℓ.length := hplen ▸ hheld.length_le
    have hge : t ≤ lastTerm ℓ := by
      rw [hlastTerm, ← heterm]
      exact hs.term_le htraced (by omega) heℓ hlast
    have hS := hs.led hled
    -- the voter's log is not empty, so the candidate's is not either
    have hSne : s.start T ≠ [] := by
      intro hnil
      rw [hnil] at hup
      rcases hup with h | ⟨-, h⟩
      · simp [lastTerm] at h
      · exact hne (by simpa using h)
    obtain ⟨eS, heS, heSterm⟩ := exists_last hSne
    have hSlen := List.length_pos_iff.mpr hSne
    obtain ⟨hled', hpre'⟩ := (hS.traced.take hS.starts) _ eS heS
    rw [List.take_of_length_le (by omega)] at hpre'
    have hbefore : termOf eS < T := hS.before eS (List.mem_of_getElem? heS)
    have hle : lastTerm ℓ ≤ termOf eS := by
      rcases hup with h | ⟨h, -⟩ <;> omega
    -- the candidate's last entry is of term `t` at least; which leader made it decides
    rcases Nat.lt_or_ge t (termOf eS) with hlater | hsame
    · -- the candidate's last entry is from a leader in between, which had the prefix
      have hmid := (ih _ hbefore hlater hled').trans (hs.led hled').starts
      refine List.prefix_of_prefix_length_le hmid hpre' ?_
      by_contra hshort
      have hin : ((s.leadLog t).take p)[(s.start T).length - 1]? = some eS := by
        have hS' := List.prefix_of_prefix_length_le hpre' hmid (by omega)
        exact hS'.getElem?_some heS
      have hmem := List.mem_of_mem_take (List.mem_of_getElem? hin)
      have := (hs.led hc.led).bounded hmem
      omega
    · -- it is of the same term, so the longer log has the prefix
      have heq : termOf eS = t := by omega
      rw [heq] at hpre'
      refine List.prefix_of_prefix_length_le (List.take_prefix p _) hpre' ?_
      rcases hup with h | ⟨-, h⟩ <;> omega

/-- Some term up to `T` has chosen the prefix `ℓ`. -/
def Chosen (voters : Finset V) (s : Replicated V E) (T : ℕ) (ℓ : List E) : Prop :=
  ℓ = [] ∨ ∃ t p, t ≤ T ∧ ChosenAt voters s t p ∧ ℓ <+: (s.leadLog t).take p

/-- What is chosen stays chosen. -/
theorem ChosenAt.mono (h : ChosenAt voters s t p) (hg : Grows s s') :
    ChosenAt voters s' t p := by
  obtain ⟨Q, hQ, hacks⟩ := h.quorum
  refine ⟨hg.led h.led, ?_, h.length.trans (hg.leadLog h.led).length_le,
    Q, hQ, fun u hu => (hacks u hu).trans (hg.acked t u)⟩
  rw [hg.start h.led]
  exact h.own

namespace Chosen

variable {T T' : ℕ} {ℓ ℓ' : List E}

/-- A chosen prefix stays one, for every later term. -/
theorem mono (h : Chosen voters s T ℓ) (hg : Grows s s') (hT : T ≤ T') : Chosen voters s' T' ℓ := by
  rcases h with hnil | ⟨t, p, ht, hc, hpre⟩
  · exact .inl hnil
  · refine .inr ⟨t, p, ht.trans hT, hc.mono hg, ?_⟩
    rwa [(hg.leadLog hc.led).take_eq hc.length]

/-- A part of a chosen prefix is chosen. -/
theorem take (h : Chosen voters s T ℓ') (hpre : ℓ <+: ℓ') : Chosen voters s T ℓ := by
  rcases h with rfl | ⟨t, p, ht, hc, hpre'⟩
  · exact .inl (List.prefix_nil.mp hpre)
  · exact .inr ⟨t, p, ht, hc, hpre.trans hpre'⟩

/-- The leader of a term has what was chosen up to that term. -/
theorem prefix_leadLog (h : Chosen voters s T ℓ) (hs : s.Sound voters) (hled : s.lead T ≠ none) :
    ℓ <+: s.leadLog T := by
  rcases h with rfl | ⟨t, p, ht, hc, hpre⟩
  · exact List.nil_prefix
  · rcases Nat.lt_or_ge t T with hlt | hge
    · exact hpre.trans ((hs.chosen_start hc T hlt hled).trans (hs.led hled).starts)
    · obtain rfl : t = T := by omega
      exact hpre.trans (List.take_prefix p _)

/-- **Agreement.** -/
theorem comparable (h : Chosen voters s T ℓ) (h' : Chosen voters s T' ℓ') (hs : s.Sound voters) :
    ℓ <+: ℓ' ∨ ℓ' <+: ℓ := by
  rcases h with rfl | ⟨t, p, -, hc, hpre⟩
  · exact .inl List.nil_prefix
  rcases h' with rfl | ⟨t', p', -, hc', hpre'⟩
  · exact .inr List.nil_prefix
  -- both are prefixes of the log of the later of the two leaders
  have hlead : Chosen voters s t ℓ := .inr ⟨t, p, le_rfl, hc, hpre⟩
  have hlead' : Chosen voters s t' ℓ' := .inr ⟨t', p', le_rfl, hc', hpre'⟩
  rcases le_total t t' with hle | hle
  · exact List.prefix_or_prefix_of_prefix
      ((hlead.mono (.refl s) hle).prefix_leadLog hs hc'.led) (hlead'.prefix_leadLog hs hc'.led)
  · exact List.prefix_or_prefix_of_prefix (hlead.prefix_leadLog hs hc.led)
      ((hlead'.mono (.refl s) hle).prefix_leadLog hs hc.led)

/-- Chosen prefixes agree as far as both go. -/
theorem take_eq (h : Chosen voters s T ℓ) (h' : Chosen voters s T' ℓ') (hs : s.Sound voters) {n : ℕ}
    (hn : n ≤ ℓ.length) (hn' : n ≤ ℓ'.length) : ℓ.take n = ℓ'.take n := by
  rcases h.comparable h' hs with hpre | hpre
  · exact (hpre.take_eq hn).symm
  · exact hpre.take_eq hn'

end Chosen

/-! ## Followers -/

/-- Replica `u` has taken over the log of the leader of term `T`, or left that term. -/
def Synced (s : Replicated V E) (T : ℕ) (u : V) : Prop :=
  T < s.term u ∨ (s.term u = T ∧ s.log u <+: s.leadLog T)

/-- Replica `u` holds the first `n` entries of the leader of term `T`, or has left that term. -/
def Holds (s : Replicated V E) (T : ℕ) (u : V) (n : ℕ) : Prop :=
  T < s.term u ∨ (s.term u = T ∧ (s.leadLog T).take n <+: s.log u)

/-- The leader of term `T` may go on probing `u` behind position `p`: the two logs do not share more than
`p` entries unless `u` has synced. -/
def Probed (s : Replicated V E) (T : ℕ) (u : V) (p : ℕ) : Prop :=
  T < s.term u ∨ (s.start T).length ≤ p ∨
    (s.term u = T ∧ (s.log u <+: s.leadLog T ∨ ¬ (s.leadLog T).take (p + 1) <+: s.log u))

variable {T p n : ℕ} {u : V}

/-- A replica leaves its term, or stays in it. -/
theorem Grows.left_or_same (hg : Grows s s') (h : s.term u = T) : T < s'.term u ∨ s'.term u = T := by
  have hterm := hg.term u
  omega

/-- Once synced, a replica stays so while it is in the term. -/
theorem Synced.mono (h : s.Synced T u) (hg : Grows s s') (hled : s.lead T ≠ none) : s'.Synced T u := by
  rcases h with hlt | ⟨rfl, hpre⟩
  · exact .inl (hlt.trans_le (hg.term u))
  · refine (hg.left_or_same rfl).imp_right fun heq => ⟨heq, ?_⟩
    rcases hg.log heq hled with hsame | ⟨hnew, -⟩
    · rw [hsame]
      exact hpre.trans (hg.leadLog hled)
    · exact hnew

/-- What is held of a leader's log is not given up within the term. -/
theorem Holds.mono (h : s.Holds T u n) (hg : Grows s s') (hled : s.lead T ≠ none)
    (hn : n ≤ (s.leadLog T).length) : s'.Holds T u n := by
  rcases h with hlt | ⟨rfl, hpre⟩
  · exact .inl (hlt.trans_le (hg.term u))
  · refine (hg.left_or_same rfl).imp_right fun heq => ⟨heq, ?_⟩
    rw [(hg.leadLog hled).take_eq hn]
    rcases hg.log heq hled with hsame | ⟨-, hkeep⟩
    · rwa [hsame]
    · exact hkeep _ hpre (List.take_prefix n _)

theorem Synced.probed (h : s.Synced T u) (p : ℕ) : s.Probed T u p := by
  rcases h with hlt | ⟨heq, hpre⟩
  · exact .inl hlt
  · exact .inr (.inr ⟨heq, .inl hpre⟩)

/-- A position that may be probed from stays one. -/
theorem Probed.mono (h : s.Probed T u p) (hs : s.Sound voters) (hg : Grows s s')
    (hled : s.lead T ≠ none) : s'.Probed T u p := by
  rcases h with hlt | hlong | ⟨rfl, hpre | hmiss⟩
  · exact .inl (hlt.trans_le (hg.term u))
  · refine .inr (.inl ?_)
    rwa [hg.start hled]
  · exact (Synced.mono (.inr ⟨rfl, hpre⟩) hg hled).probed p
  · refine (hg.left_or_same rfl).imp_right fun heq => ?_
    -- only a position inside the leader's log can be missing at the follower
    rcases Nat.lt_or_ge p (s.leadLog (s.term u)).length with hin | hout
    · refine .inr ⟨heq, ?_⟩
      rcases hg.log heq hled with hsame | ⟨hnew, -⟩
      · refine .inr ?_
        rwa [hsame, (hg.leadLog hled).take_eq (by omega)]
      · exact .inl hnew
    · refine .inl ?_
      rw [hg.start hled]
      exact (hs.led hled).starts.length_le.trans hout

/-- What the leader of term `T` remembers of `u`, that `m` entries match and that the next to send is the
`n`th, is so. -/
structure Tracked (s : Replicated V E) (T : ℕ) (u : V) (m n : ℕ) : Prop where
  matched : m ≤ s.acked T u
  synced : 0 < m → s.Synced T u
  probed : 0 < n → s.Probed T u (n - 1)
  bounded : n ≤ (s.leadLog T).length + 1

/-- What a leader remembers of a peer stays true of it. -/
theorem Tracked.mono {m : ℕ} (h : s.Tracked T u m n) (hs : s.Sound voters) (hg : Grows s s')
    (hled : s.lead T ≠ none) : s'.Tracked T u m n :=
  ⟨h.matched.trans (hg.acked T u), fun hm => (h.synced hm).mono hg hled,
    fun hn => (h.probed hn).mono hs hg hled,
    h.bounded.trans (Nat.succ_le_succ (hg.leadLog hled).length_le)⟩

/-- A peer that has synced is tracked at any position up to what it has acknowledged. -/
theorem Synced.tracked {m : ℕ} (h : s.Synced T u) (hm : m ≤ s.acked T u)
    (hn : n ≤ (s.leadLog T).length + 1) : s.Tracked T u m n :=
  ⟨hm, fun _ => h, fun _ => h.probed _, hn⟩

/-- A replica that holds more of its leader's log than the leader started with has synced. -/
theorem Sound.prefix_of_long (hs : s.Sound voters) (hT : s.term u = T) (hled : s.lead T ≠ none)
    (hn : n ≤ (s.leadLog T).length) (hlong : (s.start T).length < n)
    (hheld : (s.leadLog T).take n <+: s.log u) : s.log u <+: s.leadLog T := by
  obtain ⟨e, he⟩ : ∃ e, (s.leadLog T)[n - 1]? = some e := ⟨_, List.getElem?_eq_getElem (by omega)⟩
  have hown := (hs.led hled).own_at (by omega) he
  refine hs.prefix_leadLog (hs.traced u) (hT ▸ (hs.owned u).bounded)
    (hheld.getElem?_some (i := n - 1) ?_) hown
  rwa [List.getElem?_take_of_lt (by omega)]

/-- A replica that holds more than its leader was probing for has synced. -/
theorem Probed.prefix_of_held (h : s.Probed T u p) (hs : s.Sound voters) (hT : s.term u = T)
    (hled : s.lead T ≠ none) (hn : n ≤ (s.leadLog T).length) (hp : p < n)
    (hheld : (s.leadLog T).take n <+: s.log u) : s.log u <+: s.leadLog T := by
  -- the entry behind the position is held, so the two logs share more than `p`
  have hnext : (s.leadLog T).take (p + 1) <+: s.log u :=
    (List.take_prefix_take_left (by omega)).trans hheld
  rcases h with hlt | hlong | ⟨-, hpre | hmiss⟩
  · omega
  · exact hs.prefix_of_long hT hled hn (hlong.trans_lt hp) hheld
  · exact hpre
  · exact absurd hnext hmiss

open Classical in
/-- The log of `u` after a merge of the first `n` entries of the leader of term `T`. -/
noncomputable def merged (s : Replicated V E) (T : ℕ) (u : V) (n : ℕ) : List E :=
  if (s.leadLog T).take n <+: s.log u then s.log u else (s.leadLog T).take n

theorem prefix_merged (s : Replicated V E) (T : ℕ) (u : V) (n : ℕ) :
    (s.leadLog T).take n <+: s.merged T u n := by
  unfold merged
  split
  · next hall => exact hall
  · exact List.prefix_rfl

/-- A log that lacks some of the first `n` entries of its leader may be cut down to them. -/
theorem follows_take (hT : s.term u = T) (hled : s.lead T ≠ none)
    (hnot : ¬ (s.leadLog T).take n <+: s.log u) : s.Follows u ((s.leadLog T).take n) := by
  subst hT
  refine ⟨hled, List.take_prefix n _, fun q hq hq' => ?_⟩
  rcases List.prefix_or_prefix_of_prefix hq' (List.take_prefix n _) with hsub | hsup
  · exact hsub
  · exact absurd (hsup.trans hq) hnot

/-- **Merging** behind a position `p` at which the two logs match. -/
theorem Probed.follows (h : s.Probed T u p) (hs : s.Sound voters) (hT : s.term u = T)
    (hled : s.lead T ≠ none) (hpn : p ≤ n) (hn : n ≤ (s.leadLog T).length)
    (hmore : p < n ∨ (s.start T).length < p) : s.Follows u (s.merged T u n) := by
  unfold merged
  split
  · next hall =>
    have hsynced : s.log u <+: s.leadLog T := by
      rcases hmore with hlt | hlong
      · exact h.prefix_of_held hs hT hled hn hlt hall
      · exact hs.prefix_of_long hT hled hn (by omega) hall
    subst hT
    exact ⟨hled, hsynced, fun q hq _ => hq⟩
  · next hnot => exact follows_take hT hled hnot

end Replicated
