import Pretty5gs.Core.Pool
import Pretty5gs.Library.Transition
import Pretty5gs.Pfcp.SubnetPool

/-
  Allocation of IPv4 addresses to UEs.

  Each subnet has a pool of addresses that are handed out in turn, and serves the DNNs of its list,
  or any DNN if it has none. The configuration is refused where two subnets overlap, unless no DNN
  is in both lists.
-/

---- DNNs ----

namespace Pretty5gs.Pfcp.UeIp

/- The characters of a DNN or APN. -/
abbrev Dnn := List U8

def toLower (char : U8) : U8 :=
  if 0x41 ≤ char.toNat ∧ char.toNat ≤ 0x5a then char + 0x20
  else char

/- `ogs_strcasecmp(a, b) == 0` -/
def strcaseEq (a b : Dnn) : Bool := a.map toLower = b.map toLower

theorem strcaseEq_iff : strcaseEq a b = true ↔ a.map toLower = b.map toLower := decide_eq_true_iff

/- Two requests are for the same DNN. -/
def sameDnn : Option Dnn → Option Dnn → Bool
  | none, none => true
  | some a, some b => strcaseEq a b
  | _, _ => false

---- Configuration ----

inductive Family where
  | inet
  | inet6
deriving DecidableEq, Repr

/-
  A subnet of IPv4 addresses in `ogs_pfcp_subnet_t`. The family of the gateway is the one that the
  check looks at.
-/
structure Subnet where
  ip : Ipv4Subnet
  noRanges : ip.ranges = []
  gwFamily : Family
  dnn : List Dnn
  selectionOrder : Int
  selectionOrder_le : selectionOrder ≤ intMax

def subnetDnnSetsDisjoint (a b : Subnet) : Bool :=
  if a.dnn.isEmpty || b.dnn.isEmpty then false
  else a.dnn.all (fun x => b.dnn.all (fun y => !strcaseEq x y))

/- The error of one pair of subnets. -/
def overlaps (subnet next : Subnet) : Bool :=
  let mask := subnet.ip.mask &&& next.ip.mask
  decide (subnet.gwFamily = next.gwFamily) &&
    decide (subnet.ip.sub &&& mask = next.ip.sub &&& mask) && !subnetDnnSetsDisjoint subnet next

/- `ogs_pfcp_check_subnet_overlapping` returns `OGS_OK`. -/
def checkSubnetOverlapping : List Subnet → Bool
  | [] => true
  | subnet :: rest => rest.all (fun next => !overlaps subnet next) && checkSubnetOverlapping rest

def subnetMatchesUeDnn (dnn : Dnn) (subnet : Subnet) : Bool := subnet.dnn.isEmpty ||
    subnet.dnn.any (fun name => strcaseEq name dnn)

/- The subnets that a request may be served from. -/
def Subnet.serves (subnet : Subnet) (dnn : Option Dnn) : Bool :=
  match dnn with
  | none => subnet.dnn.isEmpty
  | some dnn => subnetMatchesUeDnn dnn subnet

/- `pool_size` in `subnet_add_with_dnns`, where `sess` is `ogs_app()->pool.sess`. -/
def poolSize (sess : BitVec 64) (subnet : Subnet) : Int :=
  let size := (sess.setWidth 32).toInt
  if 2 ≤ subnet.ip.prefixlen ∧ subnet.ip.capacity < (BitVec.ofInt 64 size).toNat then
    subnet.ip.capacity
  else size

---- Pools ----

/- A subnet whose pool was filled. A node of the pool is an index of its array. -/
structure ActiveSubnet where
  config : Subnet
  array : List Word
  pool : NodeRing Nat

/-
  The pool is made for `pool_size` nodes, filled, and cut to the nodes that were filled. There is no
  memory for a pool of a negative size.
-/
def activate (sess : BitVec 64) (subnet : Subnet) : Option ActiveSubnet :=
  if poolSize sess subnet < 0 then none
  else
    let size := (poolSize sess subnet).toNat
    (subnetPoolGenerate subnet.ip size).map (fun array =>
      { config := subnet
        array := array
        pool := (ogsPoolInit (List.range size)).shrink array.length })

/- A dynamic allocation that was not freed. -/
structure Allocation where
  dnn : Option Dnn
  subnet : Nat
  node : Nat
deriving DecidableEq, Repr

structure State where
  subnets : List ActiveSubnet
  live : List Allocation

def initialState (sess : BitVec 64) (config : List Subnet) : Option State :=
  (config.mapM (activate sess)).map (fun subnets => { subnets := subnets, live := [] })

/-
  The loop of `ogs_pfcp_find_subnet` and of `ogs_pfcp_find_subnet_by_dnn` over the rest of the list.
-/
def findBest (eligible : Subnet → Bool) : List ActiveSubnet → Nat → Option Nat → Int → Option Nat
  | [], _, best, _ => best
  | subnet :: rest, index, best, bestOrder =>
      if eligible subnet.config && subnet.pool.avail != 0 &&
          decide (subnet.config.selectionOrder < bestOrder) then
        findBest eligible rest (index + 1) (some index) subnet.config.selectionOrder
      else findBest eligible rest (index + 1) best bestOrder

variable (subnets : List ActiveSubnet)

def findSubnet : Option Nat := findBest (fun subnet => subnet.dnn.isEmpty) subnets 0 none intMax

def findSubnetByDnn (dnn : Dnn) : Option Nat :=
  findBest (subnetMatchesUeDnn dnn) subnets 0 none intMax

/- The branch on whether the request names a DNN. -/
def findSubnetFor : Option Dnn → Option Nat
  | some dnn => findSubnetByDnn subnets dnn
  | none => findSubnet subnets

/- The pool of a subnet and the live allocations change. -/
def State.update (s : State) (index : Nat) (subnet : ActiveSubnet) (pool : NodeRing Nat)
    (live : List Allocation) : State where
  subnets := s.subnets.set index { subnet with pool := pool }
  live := live

/- `ogs_pfcp_ue_ip_alloc` without a static address. A request that fails gives NULL. -/
def ueIpAlloc (s : State) (dnn : Option Dnn) : Except Fault (Option Allocation × State) :=
  match findSubnetFor s.subnets dnn with
  | none => .ok (none, s)
  | some index =>
      match s.subnets[index]? with
      | none => .error (.outOfBounds index)
      | some subnet =>
          match ogsPoolAlloc subnet.pool with
          | .error fault => .error fault
          | .ok (none, _) => .ok (none, s)
          | .ok (some node, pool) =>
              let allocation := { dnn := dnn, subnet := index, node := node }
              .ok (some allocation, s.update index subnet pool (s.live ++ [allocation]))

/- `ogs_pfcp_ue_ip_free` of a live allocation. -/
def ueIpFree (s : State) (index : Nat) : Except Fault State :=
  match s.live[index]? with
  | none => .ok s
  | some allocation =>
      match s.subnets[allocation.subnet]? with
      | none => .error .assertion
      | some subnet =>
          .ok (s.update allocation.subnet subnet (ogsPoolFree subnet.pool allocation.node)
            (s.live.eraseIdx index))

inductive Op where
  | alloc (dnn : Option Dnn)
  | free (index : Nat)
deriving DecidableEq, Repr

def exec (s : State) : Op → Except Fault State
  | .alloc dnn => (ueIpAlloc s dnn).map Prod.snd
  | .free index => ueIpFree s index

def ueIpSystem (sess : BitVec 64) (config : List Subnet) : Faulty.System State Op Fault where
  Init s := initialState sess config = some s
  exec := exec

/- No subnet for the DNN has the last selection order there is. -/
def Allowed (config : List Subnet) (_ : State) : Op → Prop
  | .alloc dnn => ∀ subnet ∈ config, subnet.serves dnn = true → subnet.selectionOrder < intMax
  | .free _ => True

/- The address of an allocation, as it is kept. -/
def State.address (s : State) (allocation : Allocation) : Option Word :=
  (s.subnets[allocation.subnet]?).bind (fun subnet => subnet.array[allocation.node]?)

end Pretty5gs.Pfcp.UeIp
