import Mathlib.Algebra.Order.Group.Nat
import Mathlib.Data.Nat.Log
import Mathlib.Tactic.Ring

/-
  Numbers as octets, most significant octet first.

  Main results: `BigEndian.decode_encode`.
-/

---- Octets Of A Number ----

namespace BigEndian

/- The lowest octets of a number. -/
def encode (width v : Nat) : List UInt8 :=
  match width with
  | 0 => []
  | width + 1 => UInt8.ofNat (v >>> (8 * width)) :: encode width v

/- The number that octets stand for. -/
def decode (octets : List UInt8) : Nat := octets.foldl (fun v octet => v * 256 + octet.toNat) 0

@[simp] theorem length_encode : (encode width v).length = width := by
  induction width with
  | zero => rfl
  | succ width ih => simp [encode, ih]

theorem toNat_octet : (UInt8.ofNat (v >>> (8 * width))).toNat = v / 256 ^ width % 256 := by
  have hBase : (256 : Nat) = 2 ^ 8 := rfl
  rw [UInt8.toNat_ofNat', Nat.shiftRight_eq_div_pow, pow_mul, hBase]

/- The fold of `decode` from any starting number. -/
theorem foldl_encode :
    (encode width v).foldl (fun v octet => v * 256 + octet.toNat) start =
      start * 256 ^ width + v % 256 ^ width := by
  induction width generalizing start with
  | zero => simp [encode, Nat.mod_one]
  | succ width ih =>
    rw [encode, List.foldl_cons, ih, toNat_octet, Nat.mod_pow_succ]
    ring

/- Octets hold a number up to their width. -/
theorem decode_encode : decode (encode width v) = v % 256 ^ width := by
  rw [decode, foldl_encode, zero_mul, zero_add]

end BigEndian
