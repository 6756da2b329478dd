import Mathlib.Data.List.Basic

/-!
# Tilings

A list of records with half-open ranges of numbers, each of which starts where the one before ends. Every
number between the two ends lies in exactly one of them, and a binary search over the starts finds it.

Main results:

* `upperBound_eq` — the binary search finds the first record that satisfies a predicate.
* `Tiles.locate` — it finds the one record whose range has a number.
-/

/-! ## Binary search -/

section Search

variable {α : Type*} (p : α → Bool) (xs : List α)

/-- The loop of `std::upper_bound`: the answer is one of `first, …, first + len`. Each turn halves `len`. -/
def upperBoundLoop : Nat → Nat → Nat → Nat
  | 0, first, _ => first
  | fuel + 1, first, len =>
    if len = 0 then first
    else match xs[first + len / 2]? with
      | none => first
      | some x =>
        if p x then upperBoundLoop fuel first (len / 2)
        else upperBoundLoop fuel (first + len / 2 + 1) (len - len / 2 - 1)

/-- The index of the first record that satisfies `p`, when all records after it do. -/
def upperBound : Nat := upperBoundLoop p xs xs.length 0 xs.length

variable {p xs}

/-- The loop keeps the answer between its two ends. -/
theorem upperBoundLoop_eq {k : Nat} (hbelow : ∀ i x, i < k → xs[i]? = some x → p x = false)
    (habove : ∀ i x, k ≤ i → xs[i]? = some x → p x = true) {fuel first len : Nat} (hfuel : len ≤ fuel)
    (hlen : first + len ≤ xs.length) (hfirst : first ≤ k) (hlast : k ≤ first + len) :
    upperBoundLoop p xs fuel first len = k := by
  -- on the fuel: a turn leaves less than half of `len`, so `len` turns are enough
  induction fuel generalizing first len with
  | zero =>
    show first = k
    omega
  | succ fuel ih =>
    unfold upperBoundLoop
    by_cases hzero : len = 0
    · rw [if_pos hzero]
      omega
    · have hmid : first + len / 2 < xs.length := by omega
      rw [if_neg hzero, List.getElem?_eq_getElem hmid]
      show (if p xs[first + len / 2] = true then _ else _) = k
      by_cases hp : p xs[first + len / 2] = true
      · have hk : k ≤ first + len / 2 := by
          by_contra hlt
          have := hbelow _ _ (by omega) (List.getElem?_eq_getElem hmid)
          rw [hp] at this
          exact absurd this Bool.noConfusion
        rw [if_pos hp]
        exact ih (by omega) (by omega) hfirst hk
      · have hk : first + len / 2 < k := by
          by_contra hge
          exact hp (habove _ _ (by omega) (List.getElem?_eq_getElem hmid))
        rw [if_neg hp]
        exact ih (by omega) (by omega) (by omega) (by omega)

/-- **The search**: no record before `k` satisfies the predicate, and all others do. -/
theorem upperBound_eq {k : Nat} (hk : k ≤ xs.length)
    (hbelow : ∀ i x, i < k → xs[i]? = some x → p x = false)
    (habove : ∀ i x, k ≤ i → xs[i]? = some x → p x = true) : upperBound p xs = k :=
  upperBoundLoop_eq hbelow habove (Nat.le_refl _) (by omega) (Nat.zero_le _) (by omega)

end Search

/-! ## Ranges that follow each other -/

section Tiling

variable {α : Type*} (lo hi : α → Nat)

/-- The ranges `[lo x, hi x)` lead from `a` to `b`. -/
def Tiles : Nat → Nat → List α → Prop
  | a, b, [] => a = b
  | a, b, x :: xs => lo x = a ∧ lo x < hi x ∧ Tiles (hi x) b xs

variable {lo hi} {a b : Nat} {xs : List α}

/-- A range lies between the ends. -/
theorem Tiles.bounds (h : Tiles lo hi a b xs) : a ≤ b ∧ ∀ x ∈ xs, a ≤ lo x ∧ hi x ≤ b := by
  induction xs generalizing a with
  | nil => exact ⟨Nat.le_of_eq h, fun x hx => absurd hx List.not_mem_nil⟩
  | cons y ys ih =>
    obtain ⟨hstart, hlt, hrest⟩ := h
    obtain ⟨hle, hbounds⟩ := ih hrest
    refine ⟨by omega, fun x hx => ?_⟩
    rcases List.mem_cons.mp hx with rfl | hx
    · omega
    · have := hbounds x hx
      omega

/-- A range ends where the later ones have not started. -/
theorem Tiles.ordered (h : Tiles lo hi a b xs) : xs.Pairwise fun x y => hi x ≤ lo y := by
  induction xs generalizing a with
  | nil => exact List.Pairwise.nil
  | cons y ys ih =>
    obtain ⟨-, -, hrest⟩ := h
    exact List.pairwise_cons.mpr ⟨fun x hx => (hrest.bounds.2 x hx).1, ih hrest⟩

theorem Tiles.nonempty (h : Tiles lo hi a b xs) {x : α} (hx : x ∈ xs) : lo x < hi x := by
  induction xs generalizing a with
  | nil => exact absurd hx List.not_mem_nil
  | cons y ys ih =>
    obtain ⟨-, hlt, hrest⟩ := h
    rcases List.mem_cons.mp hx with rfl | hx
    · exact hlt
    · exact ih hrest hx

/-- Every number between the ends is in some range. -/
theorem Tiles.cover (h : Tiles lo hi a b xs) {n : Nat} (ha : a ≤ n) (hb : n < b) :
    ∃ (i : Nat) (x : α), xs[i]? = some x ∧ lo x ≤ n ∧ n < hi x := by
  induction xs generalizing a with
  | nil =>
    have : a = b := h
    omega
  | cons y ys ih =>
    obtain ⟨hstart, -, hrest⟩ := h
    by_cases hn : n < hi y
    · exact ⟨0, y, rfl, by omega, hn⟩
    · obtain ⟨i, x, hx, hin⟩ := ih hrest (by omega)
      exact ⟨i + 1, x, hx, hin⟩

/-- Positions in order have ranges in order. -/
theorem Tiles.before (h : Tiles lo hi a b xs) {i j : Nat} {x y : α} (hx : xs[i]? = some x)
    (hy : xs[j]? = some y) (hij : i < j) : hi x ≤ lo y := by
  obtain ⟨hi', rfl⟩ := List.getElem?_eq_some_iff.mp hx
  obtain ⟨hj', rfl⟩ := List.getElem?_eq_some_iff.mp hy
  exact List.pairwise_iff_getElem.mp h.ordered i j hi' hj' hij

/-- **Locating a number**: its range is the only one that has it, and the one before the first that starts
above it. -/
theorem Tiles.locate (h : Tiles lo hi a b xs) {n : Nat} (ha : a ≤ n) (hb : n < b) :
    ∃ (i : Nat) (x : α), xs[i]? = some x ∧ lo x ≤ n ∧ n < hi x ∧
      upperBound (fun x => decide (n < lo x)) xs = i + 1 ∧
      ∀ (j : Nat) y, xs[j]? = some y → lo y ≤ n → n < hi y → j = i := by
  obtain ⟨i, x, hx, hlo, hhi⟩ := h.cover ha hb
  have hi' : i < xs.length := (List.getElem?_eq_some_iff.mp hx).1
  refine ⟨i, x, hx, hlo, hhi, upperBound_eq hi' ?_ ?_, ?_⟩
  · intro j y hj hy
    have hle : lo y ≤ n := by
      rcases Nat.lt_or_ge j i with hji | hij
      · have hbefore := h.before hy hx hji
        have hlt := h.nonempty (List.mem_of_getElem? hy)
        omega
      · obtain rfl : j = i := by omega
        rw [hx, Option.some.injEq] at hy
        exact hy ▸ hlo
    simp [hle]
  · intro j y hj hy
    have hafter := h.before hx hy hj
    have hlt : n < lo y := by omega
    simp [hlt]
  · intro j y hy hlo' hhi'
    rcases Nat.lt_trichotomy j i with hji | rfl | hij
    · have := h.before hy hx hji
      omega
    · rfl
    · have := h.before hx hy hij
      omega

end Tiling
