import Mathlib.Data.List.Basic
import Mathlib.Tactic.Common

/-
  Words as octets in network byte order.

  Main results: `NetOctets.high_append_low16`, `NetOctets.high_append_low32`.
-/

---- Words Of Two And Four Octets ----

namespace NetOctets

def high16 (w : BitVec 16) : BitVec 8 := w.extractLsb' 8 8

def low16 (w : BitVec 16) : BitVec 8 := w.extractLsb' 0 8

def high32 (w : BitVec 32) : BitVec 16 := w.extractLsb' 16 16

def low32 (w : BitVec 32) : BitVec 16 := w.extractLsb' 0 16

def be16 (w : BitVec 16) : List (BitVec 8) := [high16 w, low16 w]

def be32 (w : BitVec 32) : List (BitVec 8) := be16 (high32 w) ++ be16 (low32 w)

@[simp] theorem length_be16 : (be16 w).length = 2 := rfl

@[simp] theorem length_be32 : (be32 w).length = 4 := rfl

@[simp] theorem high_append_low16 : high16 w ++ low16 w = w := by
  unfold high16 low16
  grind

@[simp] theorem high_append_low32 : high32 w ++ low32 w = w := by
  unfold high32 low32
  grind

end NetOctets
