import Mathlib.Tactic.Common

/-
  Machine words, return codes and faults shared by the transaction layers.

  A field in network byte order is identified by the host value that `be16toh` or `be32toh` gives
  for it, so the two conversions are inverse to each other on every host.
-/

---- Words And Byte Order ----

namespace Pretty5gs

abbrev U8 := BitVec 8

abbrev U16 := BitVec 16

instance : LawfulBEq U16 := inferInstance

abbrev U32 := BitVec 32

/- A 16-bit field in network byte order. -/
structure Be16 where
  host : U16
deriving DecidableEq, Repr

/- A 32-bit field in network byte order. -/
structure Be32 where
  host : U32
deriving DecidableEq, Repr

def htobe16 (value : U16) : Be16 := ⟨value⟩

def be16toh (field : Be16) : U16 := field.host

def htobe32 (value : U32) : Be32 := ⟨value⟩

def be32toh (field : Be32) : U32 := field.host

@[simp] theorem be16toh_htobe16 : be16toh (htobe16 value) = value := rfl

@[simp] theorem be32toh_htobe32 : be32toh (htobe32 value) = value := rfl

---- Indices Of Small Arrays ----

instance neZeroThree : @NeZero Nat Zero.ofOfNat0 3 := ⟨by decide⟩

instance neZeroFour : @NeZero Nat Zero.ofOfNat0 4 := ⟨by decide⟩

theorem toNat_lt_three {index : Int} (hBound : 0 ≤ index ∧ index < 3) : index.toNat < 3 := by omega

---- Return Codes, Faults And Timers ----

/- `OGS_OK`, `OGS_ERROR` and `OGS_RETRY`. -/
inductive Rv where
  | ok
  | error
  | retry
deriving DecidableEq, Repr

/-
  Executions that do not return: `ogs_assert` aborts, an array is indexed outside its bounds, or a
  freed object is passed to the layer.
-/
inductive Fault where
  | assertion
  | outOfBounds (index : Int)
  | useAfterFree
deriving DecidableEq, Repr

/- A timer taken from the pool of the timer manager. -/
structure Timer where
  running : Bool
deriving DecidableEq, Repr

variable (timer : Option Timer)

/- `ogs_timer_start` on a timer pointer that may be NULL. -/
def ogsTimerStart : Option Timer := timer.map (fun _ => { running := true })

/- `ogs_timer_stop` on a timer pointer that may be NULL. -/
def ogsTimerStop : Option Timer := timer.map (fun _ => { running := false })

/- The timer exists and is in the manager's tree. -/
def isRunning : Bool := timer.any (fun running => running.running)

@[simp] theorem isRunning_ogsTimerStop : isRunning (ogsTimerStop timer) = false := by
  cases timer <;> rfl

@[simp] theorem isRunning_none : isRunning none = false := rfl

end Pretty5gs
