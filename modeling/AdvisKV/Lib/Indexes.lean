import AdvisKV.Lib.Keyed
import Mathlib.Data.Finset.Basic

/-!
# Indexes

Two kinds of tables that answer a lookup from one attribute of a record. `Names` leads from a name to the one
record that has it; `Buckets` lists, under each key, the set of records that have it, and drops a key whose set
has become empty. Either table is determined by the relation it stands for, so one that is kept in step with
the records is the same as one that is built from them.

Main results:

* `Names.Stands.find` — what a lookup answers.
* `Names.Stands.put`, `Stands.erase`, `Buckets.Lists.add`, `Lists.remove` — updates of the tables.
* `Names.Stands.write`, `Stands.drop`, `Stands.delete`, `Buckets.Lists.enter`, `Lists.leave`, `Lists.rewrite` — a
  table that is kept in step with the records.
* `Names.stands_entries`, `Buckets.lists_entries` — one that is built from them.
* `Names.Stands.get_eq`, `Buckets.Lists.get_eq` — tables for one relation are the same under every key.
-/

/-! ## Attributes -/

namespace Keyed

variable {ρ κ ι : Type*} {idOf : ρ → ι} [DecidableEq ι]

/-- The record of `i` has `k` for its attribute; some records have none. -/
def Has (records : Keyed idOf) (attr : ρ → Option κ) (k : κ) (i : ι) : Prop :=
  ∃ r, records.get i = some r ∧ attr r = some k

variable {records : Keyed idOf} {attr : ρ → Option κ} {k n : κ} {i i₀ : ι} {r : ρ}

theorem has_iff : records.Has attr k i ↔ ∃ r ∈ records.entries, attr r = some k ∧ idOf r = i :=
  exists_congr fun r => by rw [get_eq_some_iff, and_right_comm, and_assoc]

theorem has_put :
    (records.put r).Has attr k i ↔ (attr r = some k ∧ i = idOf r) ∨ (i ≠ idOf r ∧ records.Has attr k i) := by
  unfold Has
  rw [get_put]
  by_cases hi : idOf r = i
  · subst hi
    simp
  · simp [hi, Ne.symm hi]

theorem has_erase : (records.erase i₀).Has attr k i ↔ i ≠ i₀ ∧ records.Has attr k i := by
  unfold Has
  rw [get_erase]
  by_cases hi : i₀ = i
  · simp [hi]
  · simp [hi, Ne.symm hi]

/-- If only the record of `i₀` has `n`, the other records are those with another attribute. -/
theorem has_of_ne_iff (hold : ∀ old, records.get i₀ = some old → attr old = some n)
    (hfree : ∀ i, records.Has attr n i → i = i₀) :
    i ≠ i₀ ∧ records.Has attr k i ↔ k ≠ n ∧ records.Has attr k i := by
  refine and_congr_left fun hhas => not_congr ⟨?_, ?_⟩
  · rintro rfl
    obtain ⟨old, hget, hk⟩ := hhas
    exact Option.some.inj (hk.symm.trans (hold old hget))
  · rintro rfl
    exact hfree i hhas

end Keyed

/-! ## Names -/

/-- A table from names to records. -/
abbrev Names (κ ι : Type*) := Keyed (Prod.fst : κ × ι → κ)

namespace Names

variable {κ ι : Type*} [DecidableEq κ]

/-- **What a table of names stands for.** -/
def Stands (m : Names κ ι) (R : κ → ι → Prop) : Prop := ∀ k i, m.get k = some (k, i) ↔ R k i

variable {m m' : Names κ ι} {R R' : κ → ι → Prop}

theorem stands_empty : Stands (Keyed.empty : Names κ ι) fun _ _ => False := fun _ _ => by simp

theorem Stands.congr (h : m.Stands R) (hR : ∀ k i, R k i ↔ R' k i) : m.Stands R' :=
  fun k i => (h k i).trans (hR k i)

/-- **Extensionality.** -/
theorem Stands.get_eq (h : m.Stands R) (h' : m'.Stands R) (k : κ) : m.get k = m'.get k := by
  rcases hget : m.get k with _ | ⟨k₁, i⟩
  · rcases hget' : m'.get k with _ | ⟨k₂, i⟩
    · rfl
    · have hkey : k₂ = k := Keyed.key_of_get hget'
      subst hkey
      have hsome := (h k₂ i).mpr ((h' k₂ i).mp hget')
      rw [hget] at hsome
      exact absurd hsome.symm (Option.some_ne_none _)
  · have hkey : k₁ = k := Keyed.key_of_get hget
    subst hkey
    exact ((h' k₁ i).mpr ((h k₁ i).mp hget)).symm

/-- **Lookups.** -/
theorem Stands.find (h : m.Stands R) (k : κ) (i : ι) : (m.get k).map Prod.snd = some i ↔ R k i := by
  rw [← h k i, Option.map_eq_some_iff]
  constructor
  · rintro ⟨⟨k', i'⟩, hget, rfl⟩
    have hkey : k' = k := Keyed.key_of_get hget
    rw [hget, hkey]
  · intro hget
    exact ⟨_, hget, rfl⟩

/-- Writing a name takes it from whatever had it. -/
theorem Stands.put (h : m.Stands R) (k : κ) (i : ι) :
    Stands (Keyed.put m (k, i)) fun k' i' => (k' = k ∧ i' = i) ∨ (k' ≠ k ∧ R k' i') := by
  intro k' i'
  rw [Keyed.get_put]
  by_cases hk : k = k'
  · subst hk
    simp [eq_comm]
  · simp [hk, Ne.symm hk, h k' i']

/-- Erasing a name leaves the others. -/
theorem Stands.erase (h : m.Stands R) (k : κ) :
    Stands (Keyed.erase m k) fun k' i' => k' ≠ k ∧ R k' i' := by
  intro k' i'
  rw [Keyed.get_erase]
  by_cases hk : k = k'
  · simp [hk]
  · simp [hk, Ne.symm hk, h k' i']

/-- Entering records one after another, those of one name under one id. -/
theorem stands_build {β : Type*} (attr : β → Option κ) (id : β → ι) (xs : List β)
    (hunique : ∀ x ∈ xs, ∀ y ∈ xs, ∀ k, attr x = some k → attr y = some k → id x = id y) :
    Stands (xs.foldl (fun m x => (attr x).elim m fun k => Keyed.put m (k, id x)) Keyed.empty) fun k i =>
      ∃ x ∈ xs, attr x = some k ∧ id x = i := by
  -- from the back: the last record is entered into the table of the others
  induction xs using List.reverseRecOn with
  | nil => exact stands_empty.congr fun k i => by simp
  | append_singleton xs x ih =>
    have hrest := ih fun y hy z hz => hunique y (List.mem_append_left _ hy) z (List.mem_append_left _ hz)
    rw [List.foldl_append, List.foldl_cons, List.foldl_nil]
    rcases hx : attr x with _ | n
    · exact hrest.congr fun k i => by simp [or_and_right, exists_or, hx]
    refine (hrest.put n (id x)).congr fun k i => ?_
    constructor
    · rintro (⟨rfl, rfl⟩ | ⟨-, y, hy, hyk⟩)
      · exact ⟨x, by simp, hx, rfl⟩
      · exact ⟨y, List.mem_append_left _ hy, hyk⟩
    · rintro ⟨y, hy, hyk, rfl⟩
      rcases eq_or_ne k n with rfl | hne
      · exact .inl ⟨rfl, hunique y hy x (by simp) k hyk hx⟩
      rcases List.mem_append.mp hy with hold | hnew
      · exact .inr ⟨hne, y, hold, hyk, rfl⟩
      · rw [List.mem_singleton.mp hnew, hx] at hyk
        exact absurd (Option.some.inj hyk).symm hne

section Records

variable {ρ : Type*} {idOf : ρ → ι} [DecidableEq ι] {records : Keyed idOf} {attr : ρ → Option κ} {n : κ} {r : ρ}

/-- **Building** it from records whose names are distinct. -/
theorem stands_entries (hunique : ∀ {k i i'}, records.Has attr k i → records.Has attr k i' → i = i') :
    Stands (records.entries.foldl (fun m r => (attr r).elim m fun k => Keyed.put m (k, idOf r)) Keyed.empty)
      (records.Has attr) := by
  refine (stands_build attr idOf _ fun x hx y hy k hxk hyk => ?_).congr fun _ _ => Keyed.has_iff.symm
  exact hunique (Keyed.has_iff.mpr ⟨x, hx, hxk, rfl⟩) (Keyed.has_iff.mpr ⟨y, hy, hyk, rfl⟩)

/-- A record is written under its name, which no other one has. The table may have given up the name before. -/
theorem Stands.write (h : m.Stands R) (hR : ∀ k i, k ≠ n → (R k i ↔ records.Has attr k i))
    (hold : ∀ old, records.get (idOf r) = some old → attr old = some n)
    (hfree : ∀ i, records.Has attr n i → i = idOf r) (hattr : attr r = some n) :
    Stands (Keyed.put m (n, idOf r)) ((records.put r).Has attr) := by
  refine (h.put n (idOf r)).congr fun k i => ?_
  rw [Keyed.has_put, Keyed.has_of_ne_iff hold hfree, hattr, Option.some.injEq, eq_comm (a := k),
    and_congr_right (hR k i)]

/-- A record that has lost its name is written. -/
theorem Stands.drop (h : m.Stands (records.Has attr))
    (hold : ∀ old, records.get (idOf r) = some old → attr old = some n)
    (hfree : ∀ i, records.Has attr n i → i = idOf r) (hattr : attr r = none) :
    Stands (Keyed.erase m n) ((records.put r).Has attr) := by
  refine (h.erase n).congr fun k i => ?_
  rw [Keyed.has_put, Keyed.has_of_ne_iff hold hfree]
  simp [hattr]

/-- A record is deleted. -/
theorem Stands.delete (h : m.Stands (records.Has attr)) {i₀ : ι}
    (hold : ∀ old, records.get i₀ = some old → attr old = some n)
    (hfree : ∀ i, records.Has attr n i → i = i₀) :
    Stands (Keyed.erase m n) ((records.erase i₀).Has attr) :=
  (h.erase n).congr fun _ _ => (Keyed.has_erase.trans (Keyed.has_of_ne_iff hold hfree)).symm

end Records

end Names

/-! ## Sets -/

/-- A table of sets. -/
abbrev Buckets (κ α : Type*) := Keyed (Prod.fst : κ × Finset α → κ)

namespace Buckets

variable {κ α : Type*} [DecidableEq κ]

/-- The set under a key. -/
def bucket (b : Buckets κ α) (k : κ) : Finset α := ((b.get k).map Prod.snd).getD ∅

/-- **What a table lists.** -/
structure Lists (b : Buckets κ α) (R : κ → α → Prop) : Prop where
  mem : ∀ k a, a ∈ b.bucket k ↔ R k a
  tidy : ∀ k, b.get k ≠ some (k, ∅)

variable {b b' : Buckets κ α} {R R' : κ → α → Prop}

theorem lists_empty : Lists (Keyed.empty : Buckets κ α) fun _ _ => False where
  mem := fun _ _ => by simp [bucket]
  tidy := fun _ => by simp

theorem Lists.congr (h : b.Lists R) (hR : ∀ k a, R k a ↔ R' k a) : b.Lists R' :=
  ⟨fun k a => (h.mem k a).trans (hR k a), h.tidy⟩

/-- Writing the set of one key leaves the sets of the others. -/
theorem bucket_put (b : Buckets κ α) (k k' : κ) (s : Finset α) :
    bucket (b.put (k, s)) k' = if k = k' then s else b.bucket k' := by
  unfold bucket
  rw [Keyed.get_put]
  by_cases hk : k = k'
  · simp [hk]
  · simp [hk]

theorem bucket_erase (b : Buckets κ α) (k k' : κ) :
    bucket (Keyed.erase b k) k' = if k = k' then ∅ else b.bucket k' := by
  unfold bucket
  rw [Keyed.get_erase]
  by_cases hk : k = k'
  · simp [hk]
  · simp [hk]

variable [DecidableEq α]

/-- A key is there when it lists something. -/
theorem Lists.get (h : b.Lists R) (k : κ) :
    b.get k = if b.bucket k = ∅ then none else some (k, b.bucket k) := by
  rcases hget : b.get k with _ | ⟨k', s⟩
  · simp [bucket, hget]
  · have hkey : k' = k := Keyed.key_of_get hget
    subst hkey
    have hs : s ≠ ∅ := fun hempty => h.tidy k' (by rw [hget, hempty])
    simp [bucket, hget, hs]

/-- **Extensionality.** -/
theorem Lists.get_eq (h : b.Lists R) (h' : b'.Lists R) (k : κ) : b.get k = b'.get k := by
  have hsame : b.bucket k = b'.bucket k := Finset.ext fun a => (h.mem k a).trans (h'.mem k a).symm
  rw [h.get, h'.get, hsame]

/-! ## Updates -/

/-- Add a value under a key. -/
def add (b : Buckets κ α) (k : κ) (a : α) : Buckets κ α := b.put (k, insert a (b.bucket k))

/-- Remove a value under a key, and the key with the last one. -/
def remove (b : Buckets κ α) (k : κ) (a : α) : Buckets κ α :=
  match b.get k with
  | none => b
  | some entry => if entry.2.erase a = ∅ then b.erase k else b.put (k, entry.2.erase a)

/-- Adding a value lists it under its key, besides everything listed before. -/
theorem Lists.add (h : b.Lists R) (k : κ) (a : α) :
    (b.add k a).Lists fun k' a' => (k' = k ∧ a' = a) ∨ R k' a' where
  mem := by
    intro k' a'
    unfold Buckets.add
    rw [bucket_put]
    by_cases hk : k = k'
    · subst hk
      simp [h.mem]
    · simp [hk, Ne.symm hk, h.mem]
  tidy := by
    intro k'
    unfold Buckets.add
    rw [Keyed.get_put]
    by_cases hk : k = k'
    · simp [hk]
    · simpa [hk] using h.tidy k'

/-- A removal takes one value out of one set, whether its key stays or goes with it. -/
theorem bucket_remove (b : Buckets κ α) (k : κ) (a : α) (k' : κ) :
    (b.remove k a).bucket k' = if k = k' then (b.bucket k').erase a else b.bucket k' := by
  unfold remove
  rcases hget : b.get k with _ | ⟨k₀, s⟩
  · by_cases hk : k = k'
    · subst hk
      simp [bucket, hget]
    · simp [hk]
  · -- the key stays while its set is not empty
    have hbucket : b.bucket k = s := by simp [bucket, hget]
    by_cases hempty : s.erase a = ∅
    · simp only [hempty, if_true, bucket_erase]
      by_cases hk : k = k'
      · subst hk
        simp [hbucket, hempty]
      · simp [hk]
    · simp only [hempty, if_false, bucket_put]
      by_cases hk : k = k'
      · subst hk
        simp [hbucket]
      · simp [hk]

/-- Removing a value leaves every other entry, and no empty set behind. -/
theorem Lists.remove (h : b.Lists R) (k : κ) (a : α) :
    (b.remove k a).Lists fun k' a' => ¬ (k' = k ∧ a' = a) ∧ R k' a' where
  mem := by
    intro k' a'
    rw [bucket_remove]
    by_cases hk : k = k'
    · subst hk
      simp [h.mem]
    · simp [hk, Ne.symm hk, h.mem]
  tidy := by
    intro k'
    unfold Buckets.remove
    rcases hget : b.get k with _ | ⟨k₀, s⟩
    · exact h.tidy k'
    · by_cases hempty : s.erase a = ∅
      · simp only [hempty, if_true, Keyed.get_erase]
        by_cases hk : k = k'
        · simp [hk]
        · simpa [hk] using h.tidy k'
      · simp only [hempty, if_false, Keyed.get_put]
        by_cases hk : k = k'
        · simp [hk, hempty]
        · simpa [hk] using h.tidy k'

/-- Entering records one after another. -/
theorem lists_build {β : Type*} (attr : β → Option κ) (id : β → α) (xs : List β) :
    Lists (xs.foldl (fun b x => (attr x).elim b fun k => b.add k (id x)) Keyed.empty) fun k a =>
      ∃ x ∈ xs, attr x = some k ∧ id x = a := by
  induction xs using List.reverseRecOn with
  | nil => exact lists_empty.congr fun k a => by simp
  | append_singleton xs x ih =>
    rw [List.foldl_append, List.foldl_cons, List.foldl_nil]
    rcases hx : attr x with _ | n
    · exact ih.congr fun k a => by simp [or_and_right, exists_or, hx]
    · exact (ih.add n (id x)).congr fun k a => by simp [or_and_right, exists_or, hx, or_comm, eq_comm]

section Records

variable {ρ : Type*} {idOf : ρ → α} {records : Keyed idOf} {attr : ρ → Option κ} {r old : ρ}

/-- **Building** it from the records. -/
theorem lists_entries (records : Keyed idOf) (attr : ρ → Option κ) :
    Lists (records.entries.foldl (fun b r => (attr r).elim b fun k => b.add k (idOf r)) Keyed.empty)
      (records.Has attr) :=
  (lists_build attr idOf _).congr fun _ _ => Keyed.has_iff.symm

/-- A new record is listed under its key, if it has one. -/
theorem Lists.enter (h : b.Lists (records.Has attr)) (hnone : records.get (idOf r) = none) :
    Lists ((attr r).elim b fun k => b.add k (idOf r)) ((records.put r).Has attr) := by
  have hother : ∀ {k a}, a ≠ idOf r ∧ records.Has attr k a ↔ records.Has attr k a := fun {k a} =>
    and_iff_right_of_imp fun ⟨r', hget, _⟩ heq => by simp [heq, hnone] at hget
  rcases hr : attr r with _ | n
  · exact h.congr fun k a => by simp [Keyed.has_put, hr, hother]
  · exact (h.add n (idOf r)).congr fun k a => by simp [Keyed.has_put, hr, hother, eq_comm]

/-- A record that goes is taken from its list. -/
theorem Lists.leave (h : b.Lists (records.Has attr)) (hold : records.get (idOf old) = some old) :
    Lists ((attr old).elim b fun k => b.remove k (idOf old)) ((records.erase (idOf old)).Has attr) := by
  rcases hattr : attr old with _ | n
  · refine h.congr fun k a => ?_
    rw [Keyed.has_erase, and_iff_right_of_imp]
    rintro ⟨r', hget, hk⟩ rfl
    rw [← Option.some.inj (hold.symm.trans hget), hattr] at hk
    cases hk
  · refine (h.remove n (idOf old)).congr fun k a => ?_
    rw [Keyed.has_erase]
    refine and_congr_left fun ⟨r', hget, hk⟩ => not_congr ⟨And.right, fun ha => ⟨?_, ha⟩⟩
    rw [ha] at hget
    rw [← Option.some.inj (hold.symm.trans hget), hattr] at hk
    exact (Option.some.inj hk).symm

/-- A record is written over another one. -/
theorem Lists.rewrite (h : b.Lists (records.Has attr)) (hold : records.get (idOf r) = some old) :
    Lists ((attr r).elim ((attr old).elim b fun k => b.remove k (idOf old))
      fun k => Buckets.add ((attr old).elim b fun k => b.remove k (idOf old)) k (idOf r))
      ((records.put r).Has attr) := by
  have hid : idOf old = idOf r := Keyed.key_of_get hold
  have hnone : (records.erase (idOf old)).get (idOf r) = none := by rw [Keyed.get_erase, if_pos hid]
  refine ((h.leave (hid ▸ hold)).enter hnone).congr fun k a => ?_
  rw [Keyed.has_put, Keyed.has_put, Keyed.has_erase, hid, ← and_assoc, and_self]

end Records

end Buckets
