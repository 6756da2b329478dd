import AdvisKV.Lib.ReplicatedLog
import AdvisKV.Model.RaftLog
import Mathlib.Data.List.TakeWhile

/-!
# AdvisKV — the full log behind a compacted one

A replica keeps the entries after its last snapshot. `Represents` names the whole log those stand for:
what the snapshot covers, of which only the last index and term are left, followed by the entries. The
queries and updates of `RaftLog` are read here as queries and updates of the whole log.

Main results:

* `Represents.merge` — merging a slice of the leader's log takes it over, or finds it there already.
* `Represents.install` — installing a snapshot keeps a log that has its last entry, and replaces any
  other.
-/

namespace AdvisKV

instance logEntryTermed : Termed LogEntry := ⟨LogEntry.term⟩

open Replicated (lastTerm)

theorem lastTerm_take_entry {ℓ : List LogEntry} {i : ℕ} {e : LogEntry} (he : ℓ[i]? = some e) :
    lastTerm (ℓ.take (i + 1)) = e.term :=
  Replicated.lastTerm_take_succ he

@[simp] theorem lastTerm_nil : lastTerm ([] : List LogEntry) = 0 := rfl

namespace RaftLog

/-- The log `l` is what is left of the whole log `ℓ` after its first `snapshotIndex` entries. -/
structure Represents (l : RaftLog) (ℓ : List LogEntry) : Prop where
  covered : l.snapshotIndex ≤ ℓ.length
  entries : l.logEntries = ℓ.drop l.snapshotIndex
  term : l.snapshotTerm = lastTerm (ℓ.take l.snapshotIndex)
  indexed : ConsecutiveFrom 0 ℓ

namespace Represents

variable {l : RaftLog} {ℓ L : List LogEntry}

/-- The kept part of a numbered log is numbered. -/
theorem consecutive (h : l.Represents ℓ) : l.Consecutive := by
  have hdrop := h.indexed.drop h.covered
  rwa [Nat.zero_add, ← h.entries] at hdrop

/-- The last index counts the whole log, the compacted part included. -/
theorem lastLogIndex (h : l.Represents ℓ) : l.lastLogIndex = ℓ.length := by
  have hcovered := h.covered
  rw [lastLogIndex_eq h.consecutive, h.entries, List.length_drop]
  omega

variable {i n : ℕ}

theorem entryAt (h : l.Represents ℓ) (hi : l.snapshotIndex < i) : l.entryAt i = ℓ[i - 1]? := by
  rw [RaftLog.entryAt, if_neg (by omega), h.entries, List.getElem?_drop,
    show l.snapshotIndex + (i - l.snapshotIndex - 1) = i - 1 by omega]

/-- Down to the snapshot the terms are those of the whole log. -/
theorem termAt (h : l.Represents ℓ) (hi : l.snapshotIndex ≤ i) (hlen : i ≤ ℓ.length) :
    l.termAt i = lastTerm (ℓ.take i) := by
  rcases Nat.eq_zero_or_pos i with rfl | hpos
  · simp [RaftLog.termAt]
  · rcases Nat.eq_or_lt_of_le hi with rfl | hlt
    · rw [RaftLog.termAt, if_neg (by omega), if_pos rfl, h.term]
    · obtain ⟨e, he⟩ : ∃ e, ℓ[i - 1]? = some e := ⟨_, List.getElem?_eq_getElem (by omega)⟩
      rw [termAt_of_entryAt ((h.entryAt hlt).trans he), ← lastTerm_take_entry he,
        Nat.sub_add_cancel hpos]

/-- Beyond the end the source answers 0. -/
theorem termAt_of_length_lt (h : l.Represents ℓ) (hi : ℓ.length < i) : l.termAt i = 0 := by
  have hcovered := h.covered
  have hnone : l.entryAt i = none := by
    rw [h.entryAt (by omega)]
    exact List.getElem?_eq_none (by omega)
  simp [RaftLog.termAt, hnone, show i ≠ 0 by omega, show i ≠ l.snapshotIndex by omega,
    show ¬ i < l.snapshotIndex by omega]

/-- The last term is the snapshot's when every entry is compacted. -/
theorem lastLogTerm (h : l.Represents ℓ) : l.lastLogTerm = lastTerm ℓ := by
  unfold RaftLog.lastLogTerm
  rcases hlast : l.logEntries.getLast? with - | e
  · have hnil := h.entries.symm.trans (List.getLast?_eq_none_iff.mp hlast)
    have hlen := List.drop_eq_nil_iff.mp hnil
    rw [h.term, List.take_of_length_le hlen]
  · have hsome : ℓ.getLast? = some e := by
      rw [← hlast, h.entries, List.getLast?_drop, if_neg]
      intro hle
      rw [h.entries, List.drop_eq_nil_of_le hle] at hlast
      cases hlast
    rw [lastTerm, hsome]
    rfl

/-- What a leader sends is a window of the whole log. -/
theorem entriesFrom (h : l.Represents ℓ) (hi : l.snapshotIndex < i) :
    l.entriesFrom i n = (ℓ.drop (i - 1)).take n := by
  unfold RaftLog.entriesFrom
  rw [h.lastLogIndex]
  split
  · next hout =>
    rcases hout with hlen | rfl
    · rw [List.drop_eq_nil_of_le (by omega), List.take_nil]
    · rw [List.take_zero]
  · rw [if_neg (by omega), h.entries, List.drop_drop,
      show l.snapshotIndex + (i - l.snapshotIndex - 1) = i - 1 by omega]

/-! ## Appending and merging -/

/-- The new entry gets the number of its place. -/
theorem appendNewEntry (h : l.Represents ℓ) (term : ℕ) (param : ProposeParam) :
    (l.appendNewEntry term param).Represents (ℓ ++ [newEntry term (ℓ.length + 1) param]) := by
  have hcovered := h.covered
  have hlast : l.lastLogIndex + 1 = ℓ.length + 1 := by rw [h.lastLogIndex]
  refine ⟨?_, ?_, ?_, ?_⟩
  · rw [List.length_append]
    exact hcovered.trans (Nat.le_add_right _ _)
  · show l.logEntries ++ [newEntry term (l.lastLogIndex + 1) param] =
      (ℓ ++ [newEntry term (ℓ.length + 1) param]).drop l.snapshotIndex
    rw [List.drop_append_of_le_length hcovered, h.entries, hlast]
  · show l.snapshotTerm = _
    rw [h.term]
    exact congrArg lastTerm (List.take_append_of_le_length hcovered).symm
  · refine ConsecutiveFrom.append_iff.mpr ⟨h.indexed, ConsecutiveFrom.cons_iff.mpr ⟨?_, .nil _⟩⟩
    cases param <;> simp [newEntry]

/-- Entries that replace the stored ones after a position `q` they share with `L`. -/
theorem updateEntries (h : l.Represents ℓ) (hL : ConsecutiveFrom 0 L) {q : ℕ} (hq : l.snapshotIndex ≤ q)
    (hqn : q ≤ n) (hn : n ≤ L.length) (hsame : ℓ.take q = L.take q) :
    (l.updateEntries (l.logEntries.take (q - l.snapshotIndex) ++ (L.take n).drop q)).Represents
      (L.take n) := by
  have hlen : (L.take n).length = n := List.length_take_of_le hn
  have hcut : (L.take n).take q = ℓ.take q := by
    rw [hsame, List.take_take, Nat.min_eq_left hqn]
  refine ⟨?_, ?_, ?_, hL.take n⟩
  · rw [hlen]
    exact hq.trans hqn
  · show l.logEntries.take (q - l.snapshotIndex) ++ (L.take n).drop q = (L.take n).drop l.snapshotIndex
    rw [h.entries, ← List.drop_take, ← hcut]
    conv_rhs => rw [← List.take_append_drop q (L.take n)]
    rw [List.drop_append_of_le_length]
    rw [List.length_take_of_le (by omega)]
    exact hq
  · show l.snapshotTerm = lastTerm ((L.take n).take l.snapshotIndex)
    rw [h.term, ← Nat.min_eq_left hq, ← List.take_take, ← hcut, List.take_take, Nat.min_eq_left hq]

/-- An entry of `L` that the log holds: the two share everything up to it. -/
theorem take_eq_of_holds (h : l.Represents ℓ) (hL : ConsecutiveFrom 0 L)
    (hcovered : ℓ.take l.snapshotIndex <+: L)
    (hmatch : ∀ i e e', ℓ[i]? = some e → L[i]? = some e' → e.term = e'.term →
      ℓ.take (i + 1) = L.take (i + 1)) {e : LogEntry} (he : L[i]? = some e) (hholds : l.holds e = true) :
    i < ℓ.length ∧ ℓ.take (i + 1) = L.take (i + 1) := by
  have hindex : e.index = i + 1 := by
    have := hL i e he
    omega
  have hcov := h.covered
  have hinside : i + 1 ≤ l.snapshotIndex → ℓ.take (i + 1) = L.take (i + 1) := by
    intro hsnap
    exact (((List.take_prefix_take_left hsnap).trans hcovered).take_comm (hsnap.trans hcov)).symm
  simp only [holds, Bool.or_eq_true, Bool.and_eq_true, decide_eq_true_eq, hindex,
    h.lastLogIndex] at hholds
  rcases hholds with hsnap | ⟨hlen, hterm⟩
  · exact ⟨by omega, hinside hsnap⟩
  · rcases Nat.lt_or_ge i l.snapshotIndex with hlt | hge
    · exact ⟨by omega, hinside hlt⟩
    · obtain ⟨e', he'⟩ : ∃ e', ℓ[i]? = some e' := ⟨_, List.getElem?_eq_getElem (by omega)⟩
      rw [h.termAt (by omega) hlen, lastTerm_take_entry he'] at hterm
      exact ⟨hlen, hmatch i e' e he' he hterm⟩

/-- **Merging** the entries of `L` behind a position `p` that the two logs share: `L` is taken over up to
the end of the slice, unless the log has it already. -/
theorem merge (h : l.Represents ℓ) (hL : ConsecutiveFrom 0 L) (hcovered : ℓ.take l.snapshotIndex <+: L)
    (hmatch : ∀ i e e', ℓ[i]? = some e → L[i]? = some e' → e.term = e'.term →
      ℓ.take (i + 1) = L.take (i + 1)) {p : ℕ} (hp : p ≤ ℓ.length) (hsame : ℓ.take p = L.take p) (hpn : p ≤ n)
    (hn : n ≤ L.length) :
    ∃ l' r, l.appendEntriesFromLeader ((L.take n).drop p) = .ok (l', r) ∧
      l'.snapshotIndex = l.snapshotIndex ∧
      ((L.take n <+: ℓ ∧ l'.Represents ℓ) ∨ (¬ L.take n <+: ℓ ∧ l'.Represents (L.take n))) := by
  have hlen : (L.take n).length = n := List.length_take_of_le hn
  have hslice : ConsecutiveFrom p ((L.take n).drop p) := by
    have hdrop := (hL.take n).drop (n := p) (by omega)
    rwa [Nat.zero_add] at hdrop
  have hreach : p ≤ l.lastLogIndex := by rwa [h.lastLogIndex]
  have hat : ∀ {k e}, ((L.take n).drop p)[k]? = some e → L[p + k]? = some e := by
    intro k e he
    rw [List.getElem?_drop] at he
    exact (List.take_prefix n L).getElem?_some he
  rw [appendEntriesFromLeader_eq h.consecutive hslice hreach]
  rcases hmissing : l.missing ((L.take n).drop p) with - | ⟨e, rest⟩
  · -- every entry is held, so the logs agree up to the last one of the slice
    refine ⟨l, {}, rfl, rfl, .inl ⟨?_, h⟩⟩
    rcases Nat.eq_or_lt_of_le hpn with rfl | hlt
    · rw [← hsame]
      exact List.take_prefix _ _
    · obtain ⟨e, he⟩ : ∃ e, ((L.take n).drop p)[n - 1 - p]? = some e := by
        refine ⟨_, List.getElem?_eq_getElem ?_⟩
        rw [List.length_drop, hlen]
        omega
      have hheld : l.holds e = true :=
        List.dropWhile_eq_nil_iff.mp hmissing e (List.mem_of_getElem? he)
      have hlast := hat he
      rw [show p + (n - 1 - p) = n - 1 by omega] at hlast
      obtain ⟨-, htake⟩ := h.take_eq_of_holds hL hcovered hmatch hlast hheld
      rw [show n - 1 + 1 = n by omega] at htake
      rw [← htake]
      exact List.take_prefix _ _
  · obtain ⟨held, hsplit, hheld, hindex, hsnap, hend, hterm⟩ :=
      missing_cons h.consecutive hslice hreach hmissing
    have hlengths : p + held.length + (rest.length + 1) = n := by
      have := congrArg List.length hsplit
      rw [List.length_drop, hlen, List.length_append, List.length_cons] at this
      omega
    have hfirst : L[p + held.length]? = some e := hat (by rw [hsplit]; simp)
    have hagree : ℓ.take (p + held.length) = L.take (p + held.length) := by
      rcases List.eq_nil_or_concat' held with rfl | ⟨before, x, rfl⟩
      · exact hsame
      · have hx : L[p + before.length]? = some x := hat (by rw [hsplit]; simp)
        obtain ⟨-, htake⟩ := h.take_eq_of_holds hL hcovered hmatch hx (hheld x (by simp))
        rwa [List.length_append, List.length_singleton]
    have htail : e :: rest = (L.take n).drop (p + held.length) := by
      rw [← List.drop_drop, hsplit, List.drop_left]
    refine ⟨_, _, rfl, rfl, .inr ⟨fun hpre => ?_, ?_⟩⟩
    · -- the entry of `L` behind the agreement is not the log's
      have hown : ℓ[p + held.length]? = some e := by
        refine hpre.getElem?_some ?_
        rw [List.getElem?_take_of_lt (by omega)]
        exact hfirst
      obtain ⟨hi, -⟩ := List.getElem?_eq_some_iff.mp hown
      refine hterm (by rw [h.lastLogIndex]; omega) ?_
      rw [termAt_of_entryAt (e := e)]
      rw [h.entryAt hsnap, hindex]
      exact hown
    · have hcut : e.index - l.snapshotIndex - 1 = p + held.length - l.snapshotIndex := by omega
      rw [hcut, htail]
      exact h.updateEntries hL (by omega) (by omega) hn hagree

/-! ## Snapshots -/

/-- A snapshot that the log covers: the log stays, only more of it is compacted. -/
theorem install_kept (h : l.Represents ℓ) {t : ℕ} (hsnap : l.snapshotIndex ≤ i) (hi : i ≤ ℓ.length)
    (ht : lastTerm (ℓ.take i) = t) : (l.installSnapshot i t).Represents ℓ := by
  refine ⟨hi, ?_, ht.symm, h.indexed⟩
  show l.retainedEntriesAfterSnapshot i t = ℓ.drop i
  unfold retainedEntriesAfterSnapshot
  rw [h.lastLogIndex, h.termAt hsnap hi]
  split
  · next hend => rw [List.drop_eq_nil_of_le hend]
  · rw [if_neg (by simpa using ht), if_neg, h.entries, List.drop_drop,
      Nat.add_sub_cancel' hsnap]
    rw [h.entries, List.length_drop]
    omega

/-- A snapshot that the log does not have the last entry of: the log is what the snapshot covers. -/
theorem install_replaced (h : l.Represents ℓ) {ℓ₀ : List LogEntry} (hsnap : l.snapshotIndex ≤ ℓ₀.length)
    (hindexed : ConsecutiveFrom 0 ℓ₀)
    (hnew : ¬ (ℓ₀.length ≤ ℓ.length ∧ lastTerm (ℓ.take ℓ₀.length) = lastTerm ℓ₀)) :
    (l.installSnapshot ℓ₀.length (lastTerm ℓ₀)).Represents ℓ₀ := by
  refine ⟨le_rfl, ?_, ?_, hindexed⟩
  · show l.retainedEntriesAfterSnapshot ℓ₀.length (lastTerm ℓ₀) = ℓ₀.drop ℓ₀.length
    rw [List.drop_length]
    unfold retainedEntriesAfterSnapshot
    rw [h.lastLogIndex]
    split
    · rfl
    · next hlong =>
      rw [if_pos]
      rw [h.termAt hsnap (by omega)]
      exact fun hterm => hnew ⟨by omega, hterm⟩
  · show lastTerm ℓ₀ = lastTerm (ℓ₀.take ℓ₀.length)
    rw [List.take_length]

end Represents

end RaftLog

end AdvisKV
