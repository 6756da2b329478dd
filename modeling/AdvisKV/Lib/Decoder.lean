import Mathlib.Data.List.Basic
import Mathlib.Tactic

/-!
# Decoders

A decoder takes a value off the front of a byte string, or fails. It decodes a string as a value when it takes
exactly that string off, whatever follows; decoders that run one after another then decode concatenations.

Main results:

* `leValue_leBytes` — numbers of a fixed width, least significant byte first.
* `Decoder.Decodes.bind` — one decoder after another.
* `Decoder.Decodes.times` — a decoder as often as a count says.
-/

/-! ## Numbers -/

/-- The `width` low bytes of a number, the lowest first. -/
def leBytes : Nat → Nat → List UInt8
  | 0, _ => []
  | width + 1, n => UInt8.ofNat n :: leBytes width (n / 256)

def leValue : List UInt8 → Nat
  | [] => 0
  | b :: bs => b.toNat + 256 * leValue bs

@[simp] theorem length_leBytes (width n : Nat) : (leBytes width n).length = width := by
  induction width generalizing n with
  | zero => rfl
  | succ width ih => simp [leBytes, ih]

/-- **Round trip** for a number that fits. -/
theorem leValue_leBytes {width n : Nat} (h : n < 256 ^ width) : leValue (leBytes width n) = n := by
  induction width generalizing n with
  | zero =>
    have : n = 0 := by simpa using h
    exact this.symm
  | succ width ih =>
    have hrest : n / 256 < 256 ^ width := Nat.div_lt_of_lt_mul (by rwa [Nat.pow_succ, Nat.mul_comm] at h)
    show (UInt8.ofNat n).toNat + 256 * leValue (leBytes width (n / 256)) = n
    rw [ih hrest, UInt8.toNat_ofNat']
    omega

/-! ## Decoders -/

/-- Takes a value off the front of the bytes that are left, or fails. -/
abbrev Decoder (ε : Type) := StateT (List UInt8) (Except ε)

namespace Decoder

variable {ε α β : Type}

/-- **The decoder takes exactly `bs` off**, as the value `v`. -/
def Decodes (d : Decoder ε α) (bs : List UInt8) (v : α) : Prop := ∀ rest, d (bs ++ rest) = .ok (v, rest)

variable {d : Decoder ε α} {data : List UInt8}

/-- A chain goes on with what the first decoder left. -/
theorem bind_ok {rest : List UInt8} {v : α} (h : d data = .ok (v, rest)) (f : α → Decoder ε β) :
    (d >>= f) data = f v rest := by
  show Except.bind (d data) _ = _
  rw [h]
  rfl

/-- A chain ends where a decoder fails. -/
theorem bind_error {e : ε} (h : d data = .error e) (f : α → Decoder ε β) : (d >>= f) data = .error e := by
  show Except.bind (d data) _ = _
  rw [h]
  rfl

theorem Decodes.pure (v : α) : Decodes (Pure.pure v : Decoder ε α) [] v := fun _ => rfl

/-- **One after another.** -/
theorem Decodes.bind {f : α → Decoder ε β} {bs cs : List UInt8} {v : α} {w : β} (hd : Decodes d bs v)
    (hf : Decodes (f v) cs w) : Decodes (d >>= f) (bs ++ cs) w := by
  intro rest
  rw [List.append_assoc, bind_ok (hd _)]
  exact hf rest

/-- The last decoder of a chain. -/
theorem Decodes.map {bs : List UInt8} {v : α} (hd : Decodes d bs v) (f : α → β) :
    Decodes (do let x ← d; Pure.pure (f x)) bs (f v) := by
  have hboth := hd.bind (f := fun x => Pure.pure (f x)) (Decodes.pure (f v))
  rwa [List.append_nil] at hboth

/-- The decoder, `n` times. -/
def times (d : Decoder ε α) : Nat → Decoder ε (List α)
  | 0 => Pure.pure []
  | n + 1 => do
    let x ← d
    let xs ← times d n
    Pure.pure (x :: xs)

/-- **Counted lists.** -/
theorem Decodes.times {enc : α → List UInt8} {xs : List α} (h : ∀ x ∈ xs, Decodes d (enc x) x) :
    Decodes (Decoder.times d xs.length) (xs.flatMap enc) xs := by
  induction xs with
  | nil => exact Decodes.pure []
  | cons x xs ih =>
    have hrest := ih fun y hy => h y (List.mem_cons_of_mem _ hy)
    exact (h x List.mem_cons_self).bind (hrest.map (x :: ·))

end Decoder
