import Pretty5gs.Core.Types
import Pretty5gs.Mme.AccessControl

/-
  The list of tracking area identities that an MME sends to a UE.

  Served identities stand in three lists: tracking areas of one PLMN one by one, ranges of them, and
  single identities. The builder may first move the serving identity to the front, and then writes
  elements while there is room.
-/

---- Tracking Areas ----

namespace Pretty5gs.Nas.TaiList

open List
open Mme (PlmnId)

/- `ogs_plmn_id_t`: three digits of an MNC have no filler. -/
abbrev Plmn := { plmn : PlmnId // plmn.mnc1 = 0xf ∨ plmn.mnc3 ≠ 0xf }

/- `ogs_eps_tai_t` -/
structure Tai where
  plmn : Plmn
  tac : U16
deriving DecidableEq

def maxNumOfTai : Nat := 16

def maxNumOfPartialList : Nat := 20000

def maxTaiListLen : Nat := 96

/- An entry of `ogs_eps_tai0_list_t` that is in use. -/
structure Partial where
  plmn : Plmn
  tacs : List U16
  used : tacs ≠ []
  fits : tacs.length ≤ maxNumOfTai

/- An entry of `ogs_eps_tai1_list_t` that is in use. -/
structure Range where
  plmn : Plmn
  tac : U16
  num : Nat
  used : 0 < num
  fits : num ≤ maxNumOfTai

/- The entries of an array in front of the first one that is not in use. Those behind are zero. -/
abbrev Table (α : Type) (capacity : Nat) := { entries : List α // entries.length ≤ capacity }

/-
  The lists of one configuration. A list that is NULL has no entries; only for `list0` does the
  builder tell the two apart.
-/
structure Lists where
  list0 : Option (Table Partial maxNumOfPartialList)
  list1 : Table Range maxNumOfTai
  list2 : Table Tai maxNumOfTai

def Lists.partials (lists : Lists) : List Partial :=
  match lists.list0 with
  | none => []
  | some list0 => list0.1

/- Consecutive codes; they are numbers of 16 bits. -/
def consecutive (plmn : Plmn) (tac : U16) (num : Nat) : List Tai := (List.range num).map
    (fun i => { plmn, tac := tac + BitVec.ofNat 16 i })

def Partial.tais (part : Partial) : List Tai := part.tacs.map (Tai.mk part.plmn)

def Range.tais (range : Range) : List Tai := consecutive range.plmn range.tac range.num

/- The identities that are served. -/
def Lists.tais (lists : Lists) : List Tai := lists.partials.flatMap Partial.tais ++
    (lists.list1.1.flatMap Range.tais ++ lists.list2.1)

---- The Serving Identity In Front ----

/- The comparison that a range of codes is searched with. -/
def Range.Covers (range : Range) (serving : Tai) : Prop := range.plmn = serving.plmn ∧
    range.tac.toNat ≤ serving.tac.toNat ∧ serving.tac.toNat < range.tac.toNat + range.num

instance (range : Range) (serving : Tai) : Decidable (range.Covers serving) :=
  inferInstanceAs (Decidable (_ ∧ _))

def Partial.Holds (part : Partial) (serving : Tai) : Prop :=
  part.plmn = serving.plmn ∧ serving.tac ∈ part.tacs

instance (part : Partial) (serving : Tai) : Decidable (part.Holds serving) :=
  inferInstanceAs (Decidable (_ ∧ _))

/- `serving_tai_is_first` -/
def servingTaiIsFirst (serving : Tai) : List Partial → List Range → List Tai → Bool
  | part :: _, _, _ => part.plmn = serving.plmn && part.tacs.head? = some serving.tac
  | [], range :: _, _ => range.Covers serving
  | [], [], tai :: _ => tai = serving
  | [], [], [] => false

/-
  The search in `list1`, which ends only at an entry that is not in use: of a full list the one
  behind the array is read.
-/
def findRange (serving : Tai) : Nat → List Range → Except Fault (Option Nat)
  | index, [] =>
      if index < maxNumOfTai then .ok none
      else .error (.outOfBounds index)
  | index, range :: ranges =>
      if range.Covers serving then .ok (some index)
      else findRange serving (index + 1) ranges

/- The first code changes places with another one. -/
def swapFirst (tacs : List U16) (index : Nat) : List U16 :=
  if index = 0 then tacs
  else (tacs.set 0 (tacs.getD index 0)).set index (tacs.getD 0 0)

@[simp] theorem length_swapFirst : (swapFirst tacs index).length = tacs.length := by
  unfold swapFirst
  split
  · rfl
  · rw [length_set, length_set]

def Partial.servingFirst (part : Partial) (serving : Tai) : Partial where
  plmn := part.plmn
  tacs := swapFirst part.tacs (part.tacs.idxOf serving.tac)
  used := by
    have hUsed := length_pos_of_ne_nil part.used
    apply ne_nil_of_length_pos
    rwa [length_swapFirst]
  fits := by
    rw [length_swapFirst]
    exact part.fits

/- The entry that holds the serving identity is moved. -/
def moveToFront (serving : Tai) (list0 : Table Partial maxNumOfPartialList)
    (index : Fin list0.1.length) : Table Partial maxNumOfPartialList :=
  ⟨(list0.1.get index).servingFirst serving :: list0.1.eraseIdx index, by
    have hIndex := index.isLt
    rw [length_cons, length_eraseIdx_of_lt hIndex]
    omega⟩

/- A new entry with nothing but the serving identity. -/
def servingPartial (serving : Tai) : Partial where
  plmn := serving.plmn
  tacs := [serving.tac]
  used := cons_ne_nil _ _
  fits := show 1 ≤ 16 by decide

def insertServing (serving : Tai) (list0 : Table Partial maxNumOfPartialList)
    (hRoom : list0.1.length < maxNumOfPartialList) : Table Partial maxNumOfPartialList :=
  ⟨servingPartial serving :: list0.1, hRoom⟩

/-
  What is left of a range without the serving identity. One in the middle of the range stays in it.
-/
def Range.without (range : Range) (serving : Tai) : Option Range :=
  if hOne : range.num = 1 then none
  else
    have hUsed : 0 < range.num - 1 := by
      have hNum := range.used
      omega
    have hFits : range.num - 1 ≤ maxNumOfTai := Nat.le_trans (Nat.sub_le _ _) range.fits
    if serving.tac = range.tac then
      some {
        plmn := range.plmn
        tac := range.tac + 1
        num := range.num - 1
        used := hUsed
        fits := hFits }
    else if serving.tac.toNat = range.tac.toNat + range.num - 1 then
      some {
        plmn := range.plmn
        tac := range.tac
        num := range.num - 1
        used := hUsed
        fits := hFits }
    else some range

/- `eps_tai1_remove_entry`, or the entry is made smaller. -/
def removeFromRange (serving : Tai) (list1 : Table Range maxNumOfTai)
    (index : Nat) : Table Range maxNumOfTai :=
  match list1.1[index]? with
  | none => list1
  | some range =>
      match range.without serving with
      | none => ⟨list1.1.eraseIdx index, Nat.le_trans (length_eraseIdx_le _ _) list1.2⟩
      | some rest =>
          ⟨list1.1.set index rest, by
            rw [length_set]
            exact list1.2⟩

/- `eps_tai2_remove_entry` -/
def removeSingle (list2 : Table Tai maxNumOfTai) (index : Nat) : Table Tai maxNumOfTai :=
  ⟨list2.1.eraseIdx index, Nat.le_trans (length_eraseIdx_le _ _) list2.2⟩

variable (lists : Lists) (serving : Tai)

/- The serving identity leaves the list it was found in. -/
def insertFound (list0 : Table Partial maxNumOfPartialList)
    (hRoom : list0.1.length < maxNumOfPartialList) (range single : Option Nat) : Lists :=
  match range, single with
  | none, none => lists
  | some index, _ =>
      { list0 := some (insertServing serving list0 hRoom)
        list1 := removeFromRange serving lists.list1 index
        list2 := lists.list2 }
  | none, some index =>
      { list0 := some (insertServing serving list0 hRoom)
        list1 := lists.list1
        list2 := removeSingle lists.list2 index }

/- The lists once the serving identity was searched in all. -/
def rearrange (list0 : Table Partial maxNumOfPartialList) (range : Option Nat) : Lists :=
  match list0.1.findFinIdx? (·.Holds serving) with
  | some index => { lists with list0 := some (moveToFront serving list0 index) }
  | none =>
      if hRoom : list0.1.length < maxNumOfPartialList then
        insertFound lists serving list0 hRoom range (lists.list2.1.findIdx? (· = serving))
      else lists

/- `ogs_nas_tai_list_prioritize_serving` -/
def prioritizeServing : Except Fault Lists :=
  match lists.list0 with
  | none => .ok lists
  | some list0 =>
      if servingTaiIsFirst serving list0.1 lists.list1.1 lists.list2.1 then .ok lists
      else do
        let range ← findRange serving 0 lists.list1.1
        return rearrange lists serving list0 range

---- Elements ----

/- `ogs_nas_from_plmn_id` -/
def nasPlmn (plmn : Plmn) : List U8 :=
  if plmn.1.mnc1 = 0xf then
    [plmn.1.mcc2 ++ plmn.1.mcc1, plmn.1.mnc1 ++ plmn.1.mcc3, plmn.1.mnc3 ++ plmn.1.mnc2]
  else [plmn.1.mcc2 ++ plmn.1.mcc1, plmn.1.mnc3 ++ plmn.1.mcc3, plmn.1.mnc2 ++ plmn.1.mnc1]

/- A code in network order. -/
def nasTac (tac : U16) : List U8 := [tac.extractLsb' 8 8, tac.extractLsb' 0 8]

/- Type of an element and its number of entries less one. -/
def header (type num : Nat) : U8 := BitVec.ofNat 8 (type * 32 + (num - 1))

def encodeTacs (plmn : Plmn) (tacs : List U16) : List U8 :=
  header 0 tacs.length :: (nasPlmn plmn ++ tacs.flatMap nasTac)

def encodeRange (range : Range) : List U8 :=
  header 1 range.num :: (nasPlmn range.plmn ++ nasTac range.tac)

def encodeTais (tais : List Tai) : List U8 := header 2 tais.length ::
    tais.flatMap (fun tai => nasPlmn tai.plmn ++ nasTac tai.tac)

---- Building ----

/- The octets so far, and whether there was no room for more. -/
structure Target where
  octets : List U8
  truncated : Bool

/-
  How many of the codes that are left go into the next element: as many as there is room for, if for
  any.
-/
def nTac (octets : List U8) (tacs : List U16) : Option Nat :=
  if octets.length + (1 + 3 + 2 * tacs.length) ≤ maxTaiListLen then some tacs.length
  else
    let room := maxTaiListLen - octets.length
    if room < 1 + 3 + 2 * 1 then none
    else some ((room - 1 - 3) / 2)

theorem nTac_pos (hTacs : tacs ≠ []) (hNum : nTac octets tacs = some num) : 0 < num := by
  have hSome := length_pos_of_ne_nil hTacs
  unfold nTac at hNum
  split at hNum
  · cases hNum
    exact hSome
  · dsimp only at hNum
    split at hNum
    · cases hNum
    · cases hNum
      omega

/- The loop over the codes of one entry of `list0`. -/
def appendTacs (plmn : Plmn) (tacs : List U16) (octets : List U8) : Target :=
  if _hTacs : tacs = [] then ⟨octets, false⟩
  else
    match _hNum : nTac octets tacs with
    | none => ⟨octets, true⟩
    | some num => appendTacs plmn (tacs.drop num) (octets ++ encodeTacs plmn (tacs.take num))
termination_by tacs.length
decreasing_by
  have hPositive := nTac_pos _hTacs _hNum
  have hSome := length_pos_of_ne_nil _hTacs
  rw [length_drop]
  omega

def appendPartials (octets : List U8) : List Partial → Target
  | [] => ⟨octets, false⟩
  | part :: parts =>
      let target := appendTacs part.plmn part.tacs octets
      if target.truncated then target
      else appendPartials target.octets parts

/-
  The loop over `list1`, which ends only at an entry that is not in use or where there is no more
  room.
-/
def appendRanges : Nat → List U8 → List Range → Except Fault Target
  | index, octets, [] =>
      if index < maxNumOfTai then .ok ⟨octets, false⟩
      else .error (.outOfBounds index)
  | index, octets, range :: ranges =>
      if maxTaiListLen < octets.length + (1 + 3 + 2) then .ok ⟨octets, true⟩
      else appendRanges (index + 1) (octets ++ encodeRange range) ranges

def appendTais (octets : List U8) (tais : List Tai) : Target :=
  if tais.length = 0 then ⟨octets, false⟩
  else if maxTaiListLen < octets.length + (1 + (3 + 2) * tais.length) then ⟨octets, true⟩
  else ⟨octets ++ encodeTais tais, false⟩

/- The three lists in order, up to `tai_list_done`. -/
def buildLists (lists : Lists) : Except Fault Target :=
  let first := appendPartials [] lists.partials
  if first.truncated then .ok first
  else do
    let second ← appendRanges 0 first.octets lists.list1.1
    if second.truncated then .ok second
    else .ok (appendTais second.octets lists.list2.1)

/- `ogs_nas_tai_list_build_serving_only` -/
def ogsNasTaiListBuildServingOnly (serving : Tai) : List U8 := encodeTais [serving]

/- A list that is empty gets the serving identity. -/
def orServing (serving : Option Tai) (target : Target) : Target :=
  match serving with
  | none => target
  | some serving =>
      if target.octets.length = 0 then
        { target with octets := ogsNasTaiListBuildServingOnly serving }
      else target

/- The copies that the list is built from. -/
def prioritized (lists : Lists) : Option Tai → Except Fault Lists
  | none => .ok lists
  | some serving => prioritizeServing lists serving

/- `ogs_nas_tai_list_build` -/
def ogsNasTaiListBuild (lists : Lists) (serving : Option Tai) : Except Fault Target := do
  let copies ← prioritized lists serving
  let target ← buildLists copies
  return orServing serving target

---- Decoding ----

/-
  The decoder of TS 24.301 9.9.3.33, as the UE applies it. An MNC with a filler for its third digit
  has two digits.
-/
def plmnOf (first second third : U8) : Plmn :=
  let mcc1 := first.extractLsb' 0 4
  let mcc2 := first.extractLsb' 4 4
  let mcc3 := second.extractLsb' 0 4
  let digit1 := third.extractLsb' 0 4
  let digit2 := third.extractLsb' 4 4
  let digit3 := second.extractLsb' 4 4
  if hFiller : digit3 = 0xf then
    ⟨{ mcc1, mcc2, mcc3
       mnc1 := 0xf, mnc2 := digit1, mnc3 := digit2 }, .inl rfl⟩
  else
    ⟨{ mcc1, mcc2, mcc3
       mnc1 := digit1, mnc2 := digit2, mnc3 := digit3 }, .inr hFiller⟩

def takePlmn : List U8 → Option (Plmn × List U8)
  | first :: second :: third :: rest => some (plmnOf first second third, rest)
  | _ => none

def takeTac : List U8 → Option (U16 × List U8)
  | high :: low :: rest => some (high ++ low, rest)
  | _ => none

def takeTai (octets : List U8) : Option (Tai × List U8) := do
  let plmn ← takePlmn octets
  let tac ← takeTac plmn.2
  return ({ plmn := plmn.1, tac := tac.1 }, tac.2)

def takeMany {α : Type} (takeOne : List U8 → Option (α × List U8)) :
    Nat → List U8 → Option (List α × List U8)
  | 0, octets => some ([], octets)
  | num + 1, octets => do
      let item ← takeOne octets
      let items ← takeMany takeOne num item.2
      return (item.1 :: items.1, items.2)

/- The content of an element by its type. -/
def decodeContent (type num : Nat) (octets : List U8) : Option (List Tai × List U8) :=
  match type with
  | 0 => do
      let plmn ← takePlmn octets
      let tacs ← takeMany takeTac num plmn.2
      return (tacs.1.map (Tai.mk plmn.1), tacs.2)
  | 1 => do
      let tai ← takeTai octets
      return (consecutive tai.1.plmn tai.1.tac num, tai.2)
  | 2 => takeMany takeTai num octets
  | _ => none

/- A number above the largest one counts as that. -/
def decodeElement : List U8 → Option (List Tai × List U8)
  | [] => none
  | octet :: octets =>
      decodeContent (octet.toNat / 32 % 4) (min (octet.toNat % 32 + 1) maxNumOfTai) octets

def decodeElements : Nat → List U8 → Option (List Tai)
  | _, [] => some []
  | 0, _ :: _ => none
  | fuel + 1, octet :: octets => do
      let tais ← decodeElement (octet :: octets)
      let rest ← decodeElements fuel tais.2
      return tais.1 ++ rest

/- The identities in a list; an element has an octet at least. -/
def decodeTaiList (octets : List U8) : Option (List Tai) := decodeElements octets.length octets

end Pretty5gs.Nas.TaiList
