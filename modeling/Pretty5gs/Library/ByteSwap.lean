import Mathlib.Logic.Function.Basic

/-
  Words of four bytes in the other byte order.

  A sum of swapped words carries from the most significant byte downwards, and the carry of the
  least significant one is lost.

  Main results: `ByteSwap.swap_swap`, `ByteSwap.swap_add_of_disjoint`, `ByteSwap.swap_add_word`.
-/

---- Swapped Words ----

namespace ByteSwap

open BitVec

/- The bytes of a word in reverse order. -/
def swap (w : BitVec 32) : BitVec 32 := w.extractLsb' 0 8 ++ w.extractLsb' 8 8 ++
    w.extractLsb' 16 8 ++ w.extractLsb' 24 8

/- A bit keeps its place in its byte. -/
theorem getLsbD_swap (hBound : i < 32) :
    (swap w).getLsbD i = w.getLsbD ((3 - i / 8) * 8 + i % 8) := by
  unfold swap
  simp only [getLsbD_append, getLsbD_extractLsb']
  by_cases hFirst : i < 8
  · have hPlace : (3 - i / 8) * 8 + i % 8 = 24 + i := by omega
    simp [hFirst, hPlace]
  by_cases hSecond : i - 8 < 8
  · have hPlace : (3 - i / 8) * 8 + i % 8 = 16 + (i - 8) := by omega
    simp [hFirst, hSecond, hPlace]
  by_cases hThird : i - 8 - 8 < 8
  · have hPlace : (3 - i / 8) * 8 + i % 8 = 8 + (i - 8 - 8) := by omega
    simp [hFirst, hSecond, hThird, hPlace]
  · have hPlace : (3 - i / 8) * 8 + i % 8 = 0 + (i - 8 - 8 - 8) := by omega
    have hFourth : i - 8 - 8 - 8 < 8 := by omega
    simp [hFirst, hSecond, hThird, hFourth, hPlace]

theorem swap_swap (w : BitVec 32) : swap (swap w) = w := by
  apply eq_of_getLsbD_eq
  intro i hBound
  rw [getLsbD_swap hBound, getLsbD_swap (by omega)]
  congr 1
  omega

theorem swap_injective : Function.Injective swap := Function.LeftInverse.injective swap_swap

theorem swap_and : swap (a &&& b) = swap a &&& swap b := by
  apply eq_of_getLsbD_eq
  intro i hBound
  rw [getLsbD_swap hBound, getLsbD_and, getLsbD_and, getLsbD_swap hBound, getLsbD_swap hBound]

theorem swap_or : swap (a ||| b) = swap a ||| swap b := by
  apply eq_of_getLsbD_eq
  intro i hBound
  rw [getLsbD_swap hBound, getLsbD_or, getLsbD_or, getLsbD_swap hBound, getLsbD_swap hBound]

theorem swap_not : swap (~~~a) = ~~~swap a := by
  apply eq_of_getLsbD_eq
  intro i hBound
  have hPlace : (3 - i / 8) * 8 + i % 8 < 32 := by omega
  rw [getLsbD_swap hBound, getLsbD_not, getLsbD_not, getLsbD_swap hBound,
    decide_eq_true hBound, decide_eq_true hPlace]

theorem swap_zero : swap 0 = 0 := by decide

/- A swapped half word has nothing in the lower half. -/
theorem setWidth_swap_setWidth {x : BitVec 16} : (swap (x.setWidth 32)).setWidth 16 = 0 := by
  apply eq_of_getLsbD_eq
  intro i hBound
  have hPlace : 16 ≤ (3 - i / 8) * 8 + i % 8 := by omega
  rw [getLsbD_setWidth, getLsbD_swap (by omega), getLsbD_setWidth, getLsbD_of_ge x _ hPlace]
  simp

/- Words without a common bit are added without a carry. -/
theorem swap_add_of_disjoint (hDisjoint : a &&& b = 0) : swap a + swap b = swap (a + b) := by
  have hSwapped : swap a &&& swap b = 0#32 := by
    rw [← swap_and, hDisjoint]
    exact swap_zero
  rw [add_eq_or_of_and_eq_zero _ _ hSwapped, add_eq_or_of_and_eq_zero _ _ hDisjoint, swap_or]

---- Bytes ----

/- The word with these bytes, the most significant one first. -/
def word (a b c d : Nat) : BitVec 32 := BitVec.ofNat 32 (a * 16777216 + b * 65536 + c * 256 + d)

theorem toNat_swap :
    (swap w).toNat = w.toNat % 256 * 16777216 + w.toNat / 256 % 256 * 65536 +
        w.toNat / 65536 % 256 * 256 + w.toNat / 16777216 % 256 := by
  unfold swap
  rw [toNat_append, toNat_append, toNat_append, ← Nat.shiftLeft_add_eq_or_of_lt (BitVec.isLt _),
    ← Nat.shiftLeft_add_eq_or_of_lt (BitVec.isLt _),
    ← Nat.shiftLeft_add_eq_or_of_lt (BitVec.isLt _)]
  simp only [BitVec.extractLsb'_toNat, Nat.shiftRight_eq_div_pow, Nat.shiftLeft_eq, Nat.reducePow]
  omega

theorem toNat_word (hA : a < 256) (hB : b < 256) (hC : c < 256) (hD : d < 256) :
    (word a b c d).toNat = a * 16777216 + b * 65536 + c * 256 + d := by
  rw [word, toNat_ofNat]
  omega

theorem swap_word (hA : a < 256) (hB : b < 256) (hC : c < 256) (hD : d < 256) :
    swap (word a b c d) = word d c b a := by
  apply eq_of_toNat_eq
  rw [toNat_swap, toNat_word hA hB hC hD, toNat_word hD hC hB hA]
  omega

theorem word_bytes (w : BitVec 32) :
    word (w.toNat / 16777216) (w.toNat / 65536 % 256)
      (w.toNat / 256 % 256) (w.toNat % 256) = w := by
  apply eq_of_toNat_eq
  rw [toNat_word (by omega) (by omega) (by omega) (by omega)]
  omega

/-
  The sum of swapped words, byte by byte: each byte carries to the next less significant one, and
  the last carry is lost.
-/
theorem swap_add_word (hA : a < 256) (hB : b < 256) (hC : c < 256) (hD : d < 256) (hA' : a' < 256)
    (hB' : b' < 256) (hC' : c' < 256) (hD' : d' < 256) :
    swap (swap (word a b c d) + swap (word a' b' c' d')) = word ((a + a') % 256)
        ((b + b' + (a + a') / 256) % 256) ((c + c' + (b + b' + (a + a') / 256) / 256) % 256)
        ((d + d' + (c + c' + (b + b' + (a + a') / 256) / 256) / 256) % 256) := by
  rw [swap_word hA hB hC hD, swap_word hA' hB' hC' hD']
  have hSum : word d c b a + word d' c' b' a' = word ((d + d' +
    (c + c' + (b + b' + (a + a') / 256) / 256) / 256) % 256)
    ((c + c' + (b + b' + (a + a') / 256) / 256) % 256) ((b + b' + (a + a') / 256) % 256)
    ((a + a') % 256) := by
    apply eq_of_toNat_eq
    rw [toNat_add, toNat_word hD hC hB hA, toNat_word hD' hC' hB' hA',
      toNat_word (by omega) (by omega) (by omega) (by omega)]
    omega
  rw [hSum, swap_word (by omega) (by omega) (by omega) (by omega)]

end ByteSwap
