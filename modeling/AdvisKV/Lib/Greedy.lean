import Mathlib.Data.List.Basic
import Mathlib.Data.List.Induction
import Mathlib.Order.Basic

/-!
# Greedy choice

Two facts about greedy loops. A scan that keeps the better of two elements ends with one that no element beats,
and picks that always come from a group with the fewest picks leave no group behind by two while it has
elements left.
-/

namespace Greedy

universe u v

variable {α : Type u} {γ : Type v}

/-! ## The best of a list -/

/-- One step of the scan: `x` replaces the best so far if it is better. -/
def keepBetter (better : α → α → Bool) (best : Option α) (x : α) : Option α :=
  match best with
  | none => some x
  | some b => if better x b then some x else some b

/-- The element a scan of the list ends with; the first one where several are equally good. -/
def best (better : α → α → Bool) (xs : List α) : Option α := xs.foldl (keepBetter better) none

/-- A strict order, as a test. -/
structure StrictOrder (better : α → α → Bool) : Prop where
  irrefl : ∀ a, better a a = false
  trans : ∀ a b c, better a b = true → better b c = true → better a c = true

/-- What a scan of `xs` knows: nothing on the empty list, else an element of it that none of it beats. -/
def Unbeaten (better : α → α → Bool) (xs : List α) : Option α → Prop
  | none => xs = []
  | some b => b ∈ xs ∧ ∀ x ∈ xs, better x b = false

variable {better : α → α → Bool} {candidates : List α}

/-- One step of the scan keeps what it knows. -/
theorem Unbeaten.keepBetter (hbetter : StrictOrder better) {xs : List α} {b : Option α}
    (h : Unbeaten better xs b) (x : α) : Unbeaten better (xs ++ [x]) (keepBetter better b x) := by
  rcases b with _ | b
  · obtain rfl : xs = [] := h
    refine ⟨List.mem_singleton_self x, fun y hy => ?_⟩
    rw [List.mem_singleton.mp hy]
    exact hbetter.irrefl x
  · obtain ⟨hb, hbest⟩ := h
    by_cases hx : better x b = true
    · simp only [Greedy.keepBetter, hx, if_true, Unbeaten]
      refine ⟨List.mem_append_right xs (List.mem_singleton_self x), fun y hy => ?_⟩
      rcases List.mem_append.mp hy with hy | hy
      · -- what beats `x` beats the element `x` replaced
        by_contra hyx
        have hyb := hbetter.trans y x b (Bool.not_eq_false _ ▸ hyx) hx
        rw [hbest y hy] at hyb
        exact Bool.noConfusion hyb
      · rw [List.mem_singleton.mp hy]
        exact hbetter.irrefl x
    · simp only [Greedy.keepBetter, hx, Bool.false_eq_true, if_false, Unbeaten]
      refine ⟨List.mem_append_left _ hb, fun y hy => ?_⟩
      rcases List.mem_append.mp hy with hy | hy
      · exact hbest y hy
      · rw [List.mem_singleton.mp hy]
        exact Bool.not_eq_true _ ▸ hx

/-- **The best of a list** is beaten by none of it. -/
theorem best_unbeaten (hbetter : StrictOrder better) (xs : List α) :
    Unbeaten better xs (best better xs) := by
  -- from the back, as the scan adds elements there
  induction xs using List.reverseRecOn with
  | nil => rfl
  | append_singleton xs x ih =>
    unfold best at ih ⊢
    rw [List.foldl_append]
    exact ih.keepBetter hbetter x

/-! ## Levelling -/

variable [DecidableEq γ] (group : α → γ)

/-- How many of the chosen elements are in a group. -/
def tally (chosen : List α) (g : γ) : Nat := chosen.countP fun a => group a = g

@[simp] theorem tally_nil (g : γ) : tally group [] g = 0 := rfl

theorem tally_concat (chosen : List α) (n : α) (g : γ) :
    tally group (chosen ++ [n]) g = tally group chosen g + if group n = g then 1 else 0 := by
  simp [tally, List.countP_append, List.countP_cons]

/-- Each element was picked from a group that had the fewest picks among the candidates left. -/
def Levels (candidates chosen : List α) : Prop :=
  ∀ front n back, chosen = front ++ n :: back → ∀ m ∈ candidates, m ∉ front →
    tally group front (group n) ≤ tally group front (group m)

variable {group}

/-- What was true of all picks is true of all but the last. -/
theorem Levels.of_concat {chosen : List α} {n : α} (h : Levels group candidates (chosen ++ [n])) :
    Levels group candidates chosen := fun front a back heq m hm hfront =>
  h front a (back ++ [n]) (by rw [heq, List.append_assoc, List.cons_append]) m hm hfront

/-- A group that is two picks behind another has no candidates left. -/
theorem Levels.exhausted {chosen : List α} (h : Levels group candidates chosen) {m : α} (hm : m ∈ candidates)
    {g : γ} (hbehind : tally group chosen (group m) + 2 ≤ tally group chosen g) :
    m ∈ chosen := by
  induction chosen using List.reverseRecOn with
  | nil => simp at hbehind
  | append_singleton chosen n ih =>
    rw [tally_concat, tally_concat] at hbehind
    by_cases hg : group n = g
    · -- the last pick went to the group ahead, so nothing of the group behind was left
      by_contra hleft
      have hfront : m ∉ chosen := fun hmem => hleft (List.mem_append_left _ hmem)
      have hle := h chosen n [] rfl m hm hfront
      rw [hg] at hle
      rw [if_pos hg] at hbehind
      omega
    · rw [if_neg hg] at hbehind
      exact List.mem_append_left _ (ih h.of_concat (by omega))

end Greedy
