import Pretty5gs.Gtp.Xact

/-
  What the lookups of the GTP transaction layer read: the records of the transactions in use and,
  for every peer node, the lists, the index and the counters of the thread's shard.

  A transaction is named by its pool id, and ids are not reused. The links of the list nodes are
  kept apart from the records, so the list operations are those of the intrusive-list library.
-/

---- Nodes And Records ----

namespace Pretty5gs.Gtp

open Intrusive

/- The shard's slots of `ogs_gtp_node_t`. -/
structure Gnode where
  localList : Links Nat
  remoteList : Links Nat
  xactHash : Nat → Option Nat
  xactLocalCount : Int
  xactRemoteCount : Int

/- The transactions in use and the nodes they hang on. -/
structure Store where
  poolId : Nat
  xact : Nat → Option Xact
  lnode : Nat → Links Nat
  gnode : Nat → Gnode

/- `ogs_gtp_node_new` -/
def Gnode.empty : Gnode where
  localList := Links.null
  remoteList := Links.null
  xactHash := fun _ => none
  xactLocalCount := 0
  xactRemoteCount := 0

variable (gnode : Gnode) (org : Originator)

def Gnode.list : Links Nat :=
  match org with
  | .localOrg => gnode.localList
  | .remoteOrg => gnode.remoteList

def Gnode.setList (list : Links Nat) : Gnode :=
  match org with
  | .localOrg => { gnode with localList := list }
  | .remoteOrg => { gnode with remoteList := list }

def Gnode.count : Int :=
  match org with
  | .localOrg => gnode.xactLocalCount
  | .remoteOrg => gnode.xactRemoteCount

def Gnode.addCount (amount : Int) : Gnode :=
  match org with
  | .localOrg => { gnode with xactLocalCount := gnode.xactLocalCount + amount }
  | .remoteOrg => { gnode with xactRemoteCount := gnode.xactRemoteCount + amount }

def Store.setXact (s : Store) (x : Nat) (xact : Xact) : Store :=
  { s with xact := Function.update s.xact x (some xact) }

def Store.setGnode (s : Store) (n : Nat) (gnode : Gnode) : Store :=
  { s with gnode := Function.update s.gnode n gnode }

/- A new id with a zeroed list node. -/
def Store.alloc (s : Store) : Store :=
  { s with
    poolId := s.poolId + 1
    lnode := Function.update s.lnode (s.poolId + 1) Links.null }

def Store.free (s : Store) (x : Nat) : Store := { s with xact := Function.update s.xact x none }

---- The Index ----

/- `xact_index_key` -/
def xactIndexKey (org : Originator) (version : Version) (xid : U32) : Nat :=
  let org :=
    match org with
    | .localOrg => 0
    | .remoteOrg => 1
  let version :=
    match version with
    | .gtp1 => 1
    | .gtp2 => 2
  (org <<< 40) ||| (version <<< 32) ||| xid.toNat

variable (xact : Xact)

/- The key of a transaction. -/
def Xact.key : Nat := xactIndexKey xact.org xact.gtpVersion xact.xid

/- The record with its key entered. -/
def Xact.keyed : Xact := { xact with hashKey := xact.key }

@[simp] theorem Xact.keyed_gnode : xact.keyed.gnode = xact.gnode := rfl

@[simp] theorem Xact.keyed_org : xact.keyed.org = xact.org := rfl

@[simp] theorem Xact.keyed_hashKey : xact.keyed.hashKey = xact.key := rfl

@[simp] theorem Xact.keyed_key : xact.keyed.key = xact.key := rfl

variable (s : Store)

/- `xact_index_add` -/
def xactIndexAdd (x : Nat) (xact : Xact) : Store :=
  let gnode := s.gnode xact.gnode
  let gnode := { gnode with xactHash := FirstIndex.insert gnode.xactHash xact.key x }
  (s.setXact x xact.keyed).setGnode xact.gnode (gnode.addCount xact.org 1)

/- `xact_index_del` -/
def xactIndexDel (x : Nat) (xact : Xact) : Store :=
  let gnode := s.gnode xact.gnode
  let gnode := { gnode with xactHash := FirstIndex.erase gnode.xactHash xact.hashKey x }
  s.setGnode xact.gnode (gnode.addCount xact.org (-1))

/- `xact_index_get` -/
def xactIndexGet (n : Nat) (org : Originator) (version : Version)
    (xid : U32) : Option Nat := (s.gnode n).xactHash (xactIndexKey org version xid)

/- `ogs_gtp_xact_count` -/
def ogsGtpXactCount (n : Nat) (org : Originator) : Int := (s.gnode n).count org

---- The Lists ----

/- `ogs_list_add` on the transaction's list. -/
def xactListAdd (x : Nat) (xact : Xact) : Store :=
  let gnode := s.gnode xact.gnode
  let linked := add s.lnode (gnode.list xact.org) x
  { s with lnode := linked.1 }.setGnode xact.gnode (gnode.setList xact.org linked.2)

/- `ogs_list_remove` on the transaction's list. -/
def xactListRemove (x : Nat) (xact : Xact) : Store :=
  let gnode := s.gnode xact.gnode
  let unlinked := remove s.lnode (gnode.list xact.org) x
  { s with lnode := unlinked.1 }.setGnode xact.gnode (gnode.setList xact.org unlinked.2)

/- Append to the list and enter into the index. -/
def linkXact (x : Nat) (xact : Xact) : Store := xactIndexAdd (xactListAdd s x xact) x xact

/- Take out of the index and the list, and free. -/
def unlinkXact (x : Nat) (xact : Xact) : Store :=
  (xactListRemove (xactIndexDel s x xact) x xact).free x

/-
  The nodes that `ogs_list_for_each` visits. Links lead from older to newer ids, so the number of
  ids is enough fuel.
-/
def xactList (n : Nat) (org : Originator) : List Nat :=
  walk s.lnode s.poolId ((s.gnode n).list org).next

/- The test of the receive paths' fallback scan. -/
def matchesXid (version : Version) (xid : U32) (x : Nat) : Bool := (s.xact x).any
    (fun xact => xact.gtpVersion = version ∧ xact.xid = xid)

/- The fallback scan of a list by version and identifier. -/
def scanXid (n : Nat) (org : Originator) (version : Version) (xid : U32) : Option Nat :=
  (xactList s n org).find? (matchesXid s version xid)

end Pretty5gs.Gtp
