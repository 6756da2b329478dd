import Mathlib.Data.List.Nodup
import Mathlib.Tactic

/-!
# Tables of records with unique keys

A finite map whose values carry their own key, kept as the list of its values. The keys of the list are
distinct by construction, so a table is determined by its list and a list of records with distinct keys is
the table it fills.

Main results:

* `Keyed.get_put`, `Keyed.get_erase` — reading after an update.
* `Keyed.get_foldl_put`, `get_foldl_put_of_mem`, `get_foldl_put_of_not_mem` — reading after many writes.
* `Keyed.fill_entries` — filling an empty table with the records of a table gives that table back.
-/

/-- A table of records `α`, each under the key `key` gives it. -/
structure Keyed {κ α : Type*} (key : α → κ) where
  entries : List α
  nodup : (entries.map key).Nodup

namespace Keyed

variable {κ α : Type*} {key : α → κ}

variable {t : Keyed key} {k : κ} {a : α} {records : List α}

@[ext] theorem ext {t' : Keyed key} (h : t.entries = t'.entries) : t = t' := by
  obtain ⟨entries, nodup⟩ := t
  obtain ⟨entries', nodup'⟩ := t'
  cases h
  rfl

instance [DecidableEq α] : DecidableEq (Keyed key) := fun t t' =>
  decidable_of_iff (t.entries = t'.entries) ⟨ext, fun h => h ▸ rfl⟩

/-- The table without records. -/
def empty : Keyed key := ⟨[], List.nodup_nil⟩

@[simp] theorem entries_empty : (empty : Keyed key).entries = [] := rfl

variable [DecidableEq κ]

/-- The record under `k`. -/
def get (t : Keyed key) (k : κ) : Option α := t.entries.find? fun a => key a = k

/-- The list after `a` has replaced the record under its key, or has been added behind all others. -/
def putList (key : α → κ) (a : α) : List α → List α
  | [] => [a]
  | b :: bs => if key b = key a then a :: bs else b :: putList key a bs

/-- A write keeps the keys and their order, and puts a new key behind all others. -/
theorem map_key_putList (a : α) (bs : List α) :
    (putList key a bs).map key =
      if key a ∈ bs.map key then bs.map key else bs.map key ++ [key a] := by
  induction bs with
  | nil => simp [putList]
  | cons b bs ih =>
    unfold putList
    by_cases hb : key b = key a
    · rw [if_pos hb]
      simp [hb]
    · rw [if_neg hb, List.map_cons, ih]
      have hne : key a ≠ key b := fun h => hb h.symm
      by_cases hmem : key a ∈ bs.map key
      · rw [if_pos hmem, if_pos (by simp only [List.map_cons, List.mem_cons]; exact Or.inr hmem)]
        rfl
      · rw [if_neg hmem, if_neg (by simp only [List.map_cons, List.mem_cons]; tauto)]
        rfl

/-- Write a record under its key. -/
def put (t : Keyed key) (a : α) : Keyed key where
  entries := putList key a t.entries
  nodup := by
    -- either no key is new, or the only new one was not there before
    rw [map_key_putList]
    split
    · exact t.nodup
    · next hmem =>
      rw [List.nodup_append]
      refine ⟨t.nodup, List.nodup_singleton _, ?_⟩
      intro x hx y hy hxy
      rw [List.mem_singleton] at hy
      exact hmem (hy ▸ hxy ▸ hx)

/-- Remove the record under `k`. -/
def erase (t : Keyed key) (k : κ) : Keyed key where
  entries := t.entries.filter fun a => key a ≠ k
  nodup := List.Nodup.sublist (List.filter_sublist.map key) t.nodup

/-! ## Reading -/

theorem key_of_get (h : t.get k = some a) : key a = k := by
  have := List.find?_some h
  simpa using this

theorem mem_of_get (h : t.get k = some a) : a ∈ t.entries :=
  List.mem_of_find?_eq_some h

/-- A lookup finds the record that has the key. -/
theorem get_eq_some_iff :
    t.get k = some a ↔ a ∈ t.entries ∧ key a = k := by
  constructor
  · intro h
    exact ⟨mem_of_get h, key_of_get h⟩
  · rintro ⟨hmem, rfl⟩
    rcases hget : t.get (key a) with _ | b
    · have := List.find?_eq_none.mp hget a hmem
      simp at this
    · -- two records under one key are one record
      have heq : b = a := List.inj_on_of_nodup_map t.nodup (mem_of_get hget) hmem (key_of_get hget)
      rw [heq]

theorem get_eq_none_iff : t.get k = none ↔ ∀ a ∈ t.entries, key a ≠ k := by
  simp [get, List.find?_eq_none]

/-- Reading as if a key that is not there had been erased. -/
theorem get_of_isNone (h : (t.get k).isNone) (k' : κ) : t.get k' = if k = k' then none else t.get k' := by
  split
  · next heq => exact heq ▸ Option.isNone_iff_eq_none.mp h
  · rfl

@[simp] theorem get_empty (k : κ) : (empty : Keyed key).get k = none := rfl

/-- After a write the records are the one written and old ones. -/
theorem mem_putList {b : α} {bs : List α} (h : b ∈ putList key a bs) : b = a ∨ b ∈ bs := by
  induction bs with
  | nil => exact Or.inl (List.mem_singleton.mp h)
  | cons c bs ih =>
    unfold putList at h
    split at h
    · rcases List.mem_cons.mp h with rfl | hb
      · exact Or.inl rfl
      · exact Or.inr (List.mem_cons_of_mem _ hb)
    · rcases List.mem_cons.mp h with rfl | hb
      · exact Or.inr List.mem_cons_self
      · exact (ih hb).imp id (List.mem_cons_of_mem _)

/-- A lookup in the written list. -/
theorem find?_putList (a : α) (k : κ) (bs : List α) :
    (putList key a bs).find? (fun x => key x = k) =
      if key a = k then some a else bs.find? fun x => key x = k := by
  induction bs with
  | nil =>
    by_cases hk : key a = k
    · simp [putList, hk]
    · simp [putList, hk]
  | cons b bs ih =>
    unfold putList
    by_cases hb : key b = key a
    · rw [if_pos hb]
      by_cases hk : key a = k
      · simp [hk]
      · simp [hk, hb]
    · rw [if_neg hb]
      by_cases hbk : key b = k
      · have hak : key a ≠ k := fun h => hb (hbk.trans h.symm)
        simp [hbk, hak]
      · simp [hbk, ih]

/-- **Reading after a write.** -/
theorem get_put (t : Keyed key) (a : α) (k : κ) :
    (t.put a).get k = if key a = k then some a else t.get k :=
  find?_putList a k t.entries

/-- **Reading after a removal.** -/
theorem get_erase (t : Keyed key) (k k' : κ) :
    (t.erase k).get k' = if k = k' then none else t.get k' := by
  by_cases hk : k = k'
  · rw [if_pos hk, get_eq_none_iff]
    intro a ha hak
    have := (List.mem_filter.mp ha).2
    simp only [ne_eq, decide_not, Bool.not_eq_eq_eq_not, Bool.not_true, decide_eq_false_iff_not] at this
    exact this (hak.trans hk.symm)
  · rw [if_neg hk]
    rcases hget : t.get k' with _ | a
    · rw [get_eq_none_iff] at hget ⊢
      intro a ha
      exact hget a (List.mem_filter.mp ha).1
    · rw [get_eq_some_iff] at hget ⊢
      refine ⟨List.mem_filter.mpr ⟨hget.1, ?_⟩, hget.2⟩
      simp only [ne_eq, decide_not, Bool.not_eq_eq_eq_not, Bool.not_true, decide_eq_false_iff_not]
      exact fun h => hk (h.symm.trans hget.2)

/-! ## Filling -/

/-- The table a list of records fills, one write after the other. -/
def fill (records : List α) : Keyed key := records.foldl put empty

/-- A new key goes to the end. -/
theorem putList_of_not_mem {bs : List α} (h : key a ∉ bs.map key) :
    putList key a bs = bs ++ [a] := by
  induction bs with
  | nil => rfl
  | cons b bs ih =>
    rw [List.map_cons, List.mem_cons, not_or] at h
    unfold putList
    rw [if_neg (fun hb => h.1 hb.symm), ih h.2, List.cons_append]

/-- Records with new and distinct keys are added in their order. -/
theorem entries_foldl_put (records : List α) (t : Keyed key)
    (h : ((t.entries ++ records).map key).Nodup) :
    (records.foldl put t).entries = t.entries ++ records := by
  induction records generalizing t with
  | nil => exact (List.append_nil _).symm
  | cons a records ih =>
    have hnew : key a ∉ t.entries.map key := by
      intro hmem
      rw [List.map_append, List.nodup_append] at h
      exact h.2.2 _ hmem _ (List.mem_map_of_mem List.mem_cons_self) rfl
    have hput : (t.put a).entries = t.entries ++ [a] := putList_of_not_mem hnew
    have hrest : (((t.put a).entries ++ records).map key).Nodup := by
      rw [hput, List.append_assoc, List.singleton_append]
      exact h
    rw [List.foldl_cons, ih (t.put a) hrest, hput, List.append_assoc, List.singleton_append]

/-- Writes under other keys do not show. -/
theorem get_foldl_put_of_not_mem (h : k ∉ records.map key) (t : Keyed key) :
    (records.foldl put t).get k = t.get k := by
  induction records generalizing t with
  | nil => rfl
  | cons a records ih =>
    rw [List.map_cons, List.mem_cons, not_or] at h
    rw [List.foldl_cons, ih h.2, get_put, if_neg fun heq => h.1 heq.symm]

/-- The last record written under a key is the one found. -/
theorem get_foldl_put_of_mem (h : k ∈ records.map key) (t : Keyed key) :
    ∃ a ∈ records, (records.foldl put t).get k = some a := by
  induction records generalizing t with
  | nil => cases h
  | cons a records ih =>
    -- the last record of the key decides, so the search goes to the back first
    by_cases hrest : k ∈ records.map key
    · obtain ⟨b, hb, hget⟩ := ih hrest (t.put a)
      exact ⟨b, List.mem_cons_of_mem _ hb, hget⟩
    · have hkey : key a = k := by
        rcases List.mem_cons.mp h with heq | hmem
        · exact heq.symm
        · exact absurd hmem hrest
      refine ⟨a, List.mem_cons_self, ?_⟩
      rw [List.foldl_cons, get_foldl_put_of_not_mem hrest, get_put, if_pos hkey]

/-- **Reading after many writes** under distinct keys. -/
theorem get_foldl_put (hdistinct : (records.map key).Nodup) (t : Keyed key) (k : κ) :
    (records.foldl put t).get k = (records.find? fun a => key a = k).or (t.get k) := by
  induction records generalizing t with
  | nil => rfl
  | cons a records ih =>
    rw [List.map_cons, List.nodup_cons] at hdistinct
    rw [List.foldl_cons, ih hdistinct.2, get_put]
    by_cases hk : key a = k
    · -- no later record has the key of `a`, so its write is the last one
      have hnone : records.find? (fun b => key b = k) = none := by
        rw [List.find?_eq_none]
        intro b hb hbk
        exact hdistinct.1 (hk ▸ (of_decide_eq_true hbk) ▸ List.mem_map_of_mem hb)
      rw [hnone, if_pos hk, List.find?_cons_of_pos (by simpa using hk)]
      rfl
    · rw [if_neg hk, List.find?_cons_of_neg (by simpa using hk)]

/-- With distinct keys the order of the records does not matter. -/
theorem find?_perm {xs ys : List α} (h : xs.Perm ys) (hdistinct : (xs.map key).Nodup) (k : κ) :
    xs.find? (fun a => key a = k) = ys.find? fun a => key a = k := by
  induction h with
  | nil => rfl
  | cons x _ ih =>
    rw [List.map_cons, List.nodup_cons] at hdistinct
    rw [List.find?_cons, List.find?_cons, ih hdistinct.2]
  | swap x y l =>
    rw [List.map_cons, List.map_cons, List.nodup_cons] at hdistinct
    have hne : key y ≠ key x := fun heq => hdistinct.1 (heq ▸ List.mem_cons_self)
    by_cases hx : key x = k
    · have hy : key y ≠ k := hx ▸ hne
      simp [hx, hy]
    · simp [List.find?_cons, hx]
  | trans hxy _ ihxy ihyz => rw [ihxy hdistinct, ihyz ((hxy.map key).nodup_iff.mp hdistinct)]

/-- **Filling.** The records of a table fill exactly that table. -/
theorem fill_entries (t : Keyed key) : fill t.entries = t := by
  apply ext
  exact entries_foldl_put t.entries empty (by simpa using t.nodup)

end Keyed
