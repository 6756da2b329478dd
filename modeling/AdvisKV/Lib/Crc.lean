import Mathlib.Data.BitVec
import Mathlib.Logic.Function.Iterate
import Mathlib.Tactic

/-!
# Cyclic redundancy checks

The reflected form of a check of any width: the register moves down by one bit, and the polynomial is added when
the bit that falls out is set. A byte is added to the low bits before eight moves. A move is linear, and for a
polynomial whose top bit is set it is injective; as long as the bytes fit into the register side by side, adding them
one by one is adding them at once.

Main results:

* `Crc.iterate_move_table` — several moves at once, with a table for the low bits.
* `Crc.remainder_eq_word` — a few bytes fed one by one, and all at once.
* `Crc.remainder_burst` — two streams that differ in as many consecutive bytes as fit into the register leave
  different remainders.
-/

namespace Crc

variable {w : Nat} (p : BitVec w)

/-- The register moves by one bit. -/
def move (c : BitVec w) : BitVec w := if c.getLsbD 0 then (c >>> 1) ^^^ p else c >>> 1

/-- A byte goes in. -/
def feed (c : BitVec w) (b : UInt8) : BitVec w := (move p)^[8] (c ^^^ b.toBitVec.setWidth w)

/-- A stream of bytes goes in. -/
def remainder (c : BitVec w) (bs : List UInt8) : BitVec w := bs.foldl (feed p) c

/-! ## Moves -/

/-- A move is linear. -/
theorem move_xor (a b : BitVec w) : move p (a ^^^ b) = move p a ^^^ move p b := by
  unfold move
  rw [BitVec.getLsbD_xor, BitVec.ushiftRight_xor_distrib]
  rcases a.getLsbD 0 with _ | _
  · rcases b.getLsbD 0 with _ | _
    · simp
    · simp [BitVec.xor_assoc]
  · rcases b.getLsbD 0 with _ | _
    · simp only [Bool.xor_false, if_true, Bool.false_eq_true, if_false]
      rw [BitVec.xor_assoc, BitVec.xor_comm (b >>> 1) p, ← BitVec.xor_assoc]
    · -- the polynomial is added twice
      simp only [Bool.xor_self, Bool.false_eq_true, if_false, if_true]
      rw [BitVec.xor_assoc (a >>> 1), BitVec.xor_comm (b >>> 1) p, ← BitVec.xor_assoc p, BitVec.xor_self,
        BitVec.zero_xor]

theorem iterate_move_xor (n : Nat) (a b : BitVec w) :
    (move p)^[n] (a ^^^ b) = (move p)^[n] a ^^^ (move p)^[n] b := by
  induction n generalizing a b with
  | zero => rfl
  | succ n ih =>
    rw [Function.iterate_succ_apply, Function.iterate_succ_apply, Function.iterate_succ_apply, move_xor, ih]

/-- The top bit after a move is the bit that fell out. -/
theorem msb_move (hp : p.msb = true) (c : BitVec w) : (move p c).msb = c.getLsbD 0 := by
  unfold move
  split
  · next h => simp [BitVec.msb_xor, hp, h, BitVec.msb_ushiftRight]
  · next h => simp [BitVec.msb_ushiftRight, h]

/-- With the top bit in the polynomial a move loses nothing. -/
theorem move_injective (hp : p.msb = true) : Function.Injective (move p) := by
  intro a b h
  -- the top bit tells which bit fell out, hence whether the polynomial was added
  have hlow : a.getLsbD 0 = b.getLsbD 0 := by rw [← msb_move p hp, ← msb_move p hp, h]
  have hhigh : a >>> 1 = b >>> 1 := by
    unfold move at h
    rw [hlow] at h
    split at h
    · exact (BitVec.xor_left_inj p).mp h
    · exact h
  apply BitVec.eq_of_getLsbD_eq
  intro i _
  rcases i with _ | i
  · exact hlow
  · have hbit := congrArg (fun x => x.getLsbD i) hhigh
    simpa [Nat.add_comm] using hbit

/-- Bits that do not reach the low end only move down. -/
theorem iterate_move_shiftLeft {x : BitVec w} {n : Nat} (h : ∀ i, w ≤ i + n → x.getLsbD i = false) :
    (move p)^[n] (x <<< n) = x := by
  induction n with
  | zero => simp
  | succ n ih =>
    have hstep : move p (x <<< (n + 1)) = x <<< n := by
      unfold move
      rw [if_neg (by simp)]
      apply BitVec.eq_of_getLsbD_eq
      intro i hi
      have htop := h (i - n)
      simp only [BitVec.getLsbD_ushiftRight, BitVec.getLsbD_shiftLeft]
      rw [show 1 + i - (n + 1) = i - n by omega]
      by_cases hlast : 1 + i < w
      · simp [hlast, hi, show 1 + i < n + 1 ↔ i < n by omega]
      · simp only [hlast, decide_false, Bool.false_and, hi, decide_true, Bool.true_and]
        by_cases hlow : i < n
        · simp [hlow]
        · simp [htop (by omega)]
    rw [Function.iterate_succ_apply, hstep]
    exact ih fun i hi => h i (by omega)

/-- **A table**: the low bits of the register say what is added to the others. -/
theorem iterate_move_table (n : Nat) (c : BitVec w) :
    (move p)^[n] c = (c >>> n) ^^^ (move p)^[n] (c &&& BitVec.ofNat w (2 ^ n - 1)) := by
  have hsplit : c = ((c >>> n) <<< n) ^^^ (c &&& BitVec.ofNat w (2 ^ n - 1)) := by
    apply BitVec.eq_of_getLsbD_eq
    intro i hi
    simp only [BitVec.getLsbD_xor, BitVec.getLsbD_shiftLeft, BitVec.getLsbD_ushiftRight, BitVec.getLsbD_and,
      BitVec.getLsbD_ofNat, Nat.testBit_two_pow_sub_one]
    by_cases hlow : i < n
    · simp [hi, hlow]
    · simp [hi, hlow, show n + (i - n) = i by omega]
  have hhigh : (move p)^[n] ((c >>> n) <<< n) = c >>> n := by
    refine iterate_move_shiftLeft p fun i hi => ?_
    rw [BitVec.getLsbD_ushiftRight]
    exact BitVec.getLsbD_of_ge _ _ (by omega)
  nth_rewrite 1 [hsplit]
  rw [iterate_move_xor, hhigh]

/-! ## Bytes -/

/-- Bytes side by side in the register, the first one lowest. -/
def word (w : Nat) : List UInt8 → BitVec w
  | [] => 0
  | b :: bs => b.toBitVec.setWidth w ^^^ (word w bs <<< 8)

/-- The bits of a word are those of its bytes. -/
theorem getLsbD_word (bs : List UInt8) (i : Nat) :
    (word w bs).getLsbD i = (decide (i < w) && (bs.getD (i / 8) 0).toBitVec.getLsbD (i % 8)) := by
  induction bs generalizing i with
  | nil => simp [word]
  | cons b bs ih =>
    rw [word, BitVec.getLsbD_xor, BitVec.getLsbD_setWidth, BitVec.getLsbD_shiftLeft, ih]
    by_cases hlow : i < 8
    · simp [hlow, Nat.div_eq_of_lt hlow, Nat.mod_eq_of_lt hlow]
    · have hbyte : b.toBitVec.getLsbD i = false := BitVec.getLsbD_of_ge _ _ (by omega)
      obtain ⟨j, rfl⟩ : ∃ j, i = j + 8 := ⟨i - 8, by omega⟩
      rw [hbyte, show (j + 8) / 8 = j / 8 + 1 by omega, show (j + 8) % 8 = j % 8 by omega]
      by_cases hin : j + 8 < w
      · simp [hin, show j < w by omega]
      · simp [hin]

/-- Bits above the bytes are clear. -/
theorem getLsbD_word_of_ge {bs : List UInt8} {i : Nat} (h : 8 * bs.length ≤ i) : (word w bs).getLsbD i = false := by
  have hnone : bs[i / 8]? = none := List.getElem?_eq_none (by omega)
  simp [getLsbD_word, hnone]

/-- Bytes that fit into the register can be read off it. -/
theorem word_injective {xs ys : List UInt8} (hlen : xs.length = ys.length) (hfit : 8 * xs.length ≤ w)
    (h : word w xs = word w ys) : xs = ys := by
  apply List.ext_getElem hlen
  intro j hx hy
  apply UInt8.toBitVec_inj.mp
  apply BitVec.eq_of_getLsbD_eq
  intro i hi
  have hbit := congrArg (fun x => x.getLsbD (8 * j + i)) h
  simp only [getLsbD_word, show (8 * j + i) / 8 = j by omega, show (8 * j + i) % 8 = i by omega] at hbit
  simpa [show 8 * j + i < w by omega, hx, hy] using hbit

/-- **Bytes that fit into the register** may be added one by one or all at once. -/
theorem remainder_eq_word {bs : List UInt8} (hfit : 8 * bs.length ≤ w) (c : BitVec w) :
    remainder p c bs = (move p)^[8 * bs.length] (c ^^^ word w bs) := by
  induction bs generalizing c with
  | nil => simp [remainder, word]
  | cons b bs ih =>
    rw [List.length_cons] at hfit
    have hshift : (move p)^[8] (word w bs <<< 8) = word w bs :=
      iterate_move_shiftLeft p fun i hi => getLsbD_word_of_ge (by omega)
    show remainder p (feed p c b) bs = _
    rw [ih (by omega), feed]
    nth_rewrite 1 [← hshift]
    rw [← iterate_move_xor, ← Function.iterate_add_apply, BitVec.xor_assoc, List.length_cons]
    rfl

theorem feed_injective (hp : p.msb = true) (b : UInt8) : Function.Injective fun c => feed p c b := by
  intro c c' h
  have hsame := (move_injective p hp).iterate 8 h
  exact (BitVec.xor_left_inj _).mp hsame

/-- Registers that differ go on to differ. -/
theorem remainder_injective (hp : p.msb = true) (bs : List UInt8) :
    Function.Injective fun c => remainder p c bs := by
  induction bs with
  | nil => exact fun _ _ h => h
  | cons b bs ih => exact fun c c' h => feed_injective p hp b (ih h)

/-- **Bursts.** -/
theorem remainder_burst (hp : p.msb = true) {xs ys : List UInt8} (hlen : xs.length = ys.length)
    (hfit : 8 * xs.length ≤ w) (hne : xs ≠ ys) (c : BitVec w) (front back : List UInt8) :
    remainder p c (front ++ (xs ++ back)) ≠ remainder p c (front ++ (ys ++ back)) := by
  intro h
  unfold remainder at h
  rw [List.foldl_append, List.foldl_append, List.foldl_append, List.foldl_append] at h
  -- undo what comes behind, and start with what comes in front
  generalize front.foldl (feed p) c = c' at h
  have hburst : remainder p c' xs = remainder p c' ys := remainder_injective p hp back h
  rw [remainder_eq_word p hfit, remainder_eq_word p (hlen ▸ hfit), hlen] at hburst
  have hword := (BitVec.xor_right_inj _).mp ((move_injective p hp).iterate _ hburst)
  exact hne (word_injective hlen hfit hword)

end Crc
