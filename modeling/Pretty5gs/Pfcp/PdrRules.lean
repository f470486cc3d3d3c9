import Mathlib.Data.List.Induction
import Mathlib.Logic.Function.Basic
import Pretty5gs.Core.Types

/-
  Packet detection rules and their SDF filters, from the CP function to the UP function
  (`lib/pfcp/build.c`, `lib/pfcp/handler.c` and `smf_bearer_tft_update`).

  The flow slots of a PDR at the CP function are written over and never cleared; a message carries
  the filters of the first of them, and the UP function compiles its rules from these. A rule
  without a flow description is the swapped rule of the same filter in another PDR.

  An SDF filter in a message stands for what it is parsed to, and the compiler of flow descriptions
  is a parameter.

  Main results: `update_pdr_keeps_fields`.
-/

---- Packet Detection Rules ----

namespace Pretty5gs.Pfcp.PdrRules

open Function Option

/- A local F-TEID, with its identifier in either byte order. -/
structure FTeid (τ : Type) where
  ipv4 : Bool
  ipv6 : Bool
  teid : τ
  addr : List U8
deriving DecidableEq

/- The fields of a PDR that both functions hold, an absent one empty. -/
structure Fields where
  precedence : U32
  srcIf : U8
  srcIfType : Option U8
  networkInstance : Option (List U8)
  ueIpAddr : List U8
  fTeid : Option (FTeid U32)
  qfi : U8
  outerHeaderRemoval : List U8
  far : U32
  urrs : List U32
  qer : Option U32
deriving DecidableEq

/-
  What a flow slot and an SDF filter hold: the description when the flag `fd` is set, the filter's
  identifier when `bid` is.
-/
structure Flow (δ : Type) where
  fd : Option δ
  bid : Option U32
deriving DecidableEq

/- A PDR at the CP function. -/
structure CpPdr (δ : Type) extends Fields where
  flow : Nat → Flow δ
  numOfFlow : Nat

/- A rule of a PDR at the UP function. -/
structure Rule (ι : Type) where
  bid : Option U32
  ipfw : ι
deriving DecidableEq

structure UpPdr (ι : Type) extends Fields where
  rules : List (Rule ι)

/- The PDRs of a session in the order of their list, by identifier. -/
structure Session (ι : Type) where
  pdrs : List U16
  pdr : U16 → UpPdr ι

/- `ogs_ipfw_compile_rule` and `ogs_ipfw_rule_swap`. -/
structure Ipfw (δ ι : Type) where
  compile : δ → Option ι
  swap : ι → ι

variable {δ ι : Type}

---- The Flows Of A Bearer ----

inductive Direction where
  | downlinkOnly
  | uplinkOnly
  | bidirectional
deriving DecidableEq

/- A packet filter of a bearer. -/
structure Pf (δ : Type) where
  direction : Direction
  flowDescription : δ
  sdfFilterId : U32
deriving DecidableEq

/- Only a bidirectional filter is known by its identifier. -/
def Pf.bid (pf : Pf δ) : Option U32 :=
  if pf.direction = .bidirectional then some pf.sdfFilterId else none

/- What a packet filter writes to a slot of the downlink PDR. -/
def Pf.downlinkFlow (pf : Pf δ) : Flow δ := ⟨some pf.flowDescription, pf.bid⟩

/- What it writes to one of the uplink PDR. -/
def Pf.uplinkFlow (pf : Pf δ) : Flow δ :=
  ⟨if pf.direction = .bidirectional then none else some pf.flowDescription, pf.bid⟩

def Pf.isDownlink (pf : Pf δ) : Bool := pf.direction != .uplinkOnly

def Pf.isUplink (pf : Pf δ) : Bool := pf.direction != .downlinkOnly

/- The members that a filter does not write stay in the slot. -/
def Flow.write (slot new : Flow δ) : Flow δ := ⟨new.fd.or slot.fd, new.bid.or slot.bid⟩

def CpPdr.addFlow (pdr : CpPdr δ) (new : Flow δ) : CpPdr δ :=
  { pdr with
    flow := Function.update pdr.flow pdr.numOfFlow ((pdr.flow pdr.numOfFlow).write new)
    numOfFlow := pdr.numOfFlow + 1 }

/- The slots of one PDR after `smf_bearer_tft_update`. -/
def CpPdr.setFlows (pdr : CpPdr δ) (flows : List (Flow δ)) : CpPdr δ :=
  flows.foldl CpPdr.addFlow { pdr with numOfFlow := 0 }

/- `smf_bearer_tft_update`, which writes to two PDRs in one loop. -/
def smfBearerTftUpdate (pdrs : CpPdr δ × CpPdr δ) (pfList : List (Pf δ)) : CpPdr δ × CpPdr δ :=
  (pdrs.1.setFlows ((pfList.filter Pf.isDownlink).map Pf.downlinkFlow),
    pdrs.2.setFlows ((pfList.filter Pf.isUplink).map Pf.uplinkFlow))

---- Building ----

/- `OGS_MAX_NUM_OF_FLOW_IN_PDR` -/
def maxNumOfFlowInPdr : Nat := 15

/- The size of the array `sdf_filter` of a PDI. -/
def numOfSdfFilter : Nat := 8

/-
  The filters that are put in a message. The loop does not stop at the end of the array, and a slot
  without flags is asserted against.
-/
def CpPdr.sdfFilters (pdr : CpPdr δ) : Option (List (Flow δ)) :=
  let flows := (List.range (min pdr.numOfFlow maxNumOfFlowInPdr)).map pdr.flow
  if flows.length ≤ numOfSdfFilter ∧ flows.all (fun flow => flow.fd.isSome || flow.bid.isSome) then
    some flows
  else none

structure Pdi (δ : Type) where
  sourceInterface : Option U8
  sourceInterfaceType : Option U8
  -- the name in it, if it is one
  networkInstance : Option (Option (List U8))
  sdfFilter : List (Flow δ)
  ueIpAddress : Option (List U8)
  localFTeid : Option (FTeid Be32)
  qfi : Option U8

structure UpdatePdr (δ : Type) where
  pdrId : Option U16
  pdi : Option (Pdi δ)
  outerHeaderRemoval : Option (List U8)

def bit (n : Nat) : BitVec 64 := 1 <<< n

/- The five flags of a changed TFT. -/
def modifyTft : BitVec 64 := bit 10 ||| bit 11 ||| bit 12 ||| bit 13 ||| bit 8

def modifyOuterHeaderRemoval : BitVec 64 := bit 17

/- A member that is sent when it has a length. -/
def present (octets : List U8) : Option (List U8) := if octets = [] then none else some octets

def updatePdi (pdr : CpPdr δ) (filters : List (Flow δ)) : Pdi δ where
  sourceInterface := some pdr.srcIf
  sourceInterfaceType := pdr.srcIfType
  networkInstance := none
  sdfFilter := filters
  ueIpAddress := present pdr.ueIpAddr
  localFTeid := pdr.fTeid.map fun fTeid => { fTeid with teid := htobe32 fTeid.teid }
  qfi := none

def updateRemoval (pdr : CpPdr δ) (modifyFlags : BitVec 64) : Option (List U8) :=
  if modifyFlags &&& modifyOuterHeaderRemoval = 0 then none
  else present pdr.outerHeaderRemoval

def ogsPfcpBuildUpdatePdr (id : U16) (pdr : CpPdr δ) (modifyFlags : BitVec 64) :
    Option (UpdatePdr δ) :=
  if modifyFlags &&& (modifyTft ||| modifyOuterHeaderRemoval) = 0 then none
  else
    (if modifyFlags &&& modifyTft = 0 then some [] else pdr.sdfFilters).map fun filters =>
      { pdrId := some id
        pdi := some (updatePdi pdr filters)
        outerHeaderRemoval := updateRemoval pdr modifyFlags }

---- Handling ----

/- `OGS_PFCP_INTERFACE_ACCESS` -/
def interfaceAccess : U8 := 0

/- `ogs_pfcp_rule_find_by_sdf_filter_id` -/
def Session.findRule (s : Session ι) (sdfFilterId : U32) : Option (Rule ι) :=
  (s.pdrs.flatMap fun id => (s.pdr id).rules).find? fun rule => rule.bid == some sdfFilterId

def Session.setPdr (s : Session ι) (id : U16) (pdr : UpPdr ι) : Session ι :=
  { s with pdr := Function.update s.pdr id pdr }

def Session.setRules (s : Session ι) (id : U16) (rules : List (Rule ι)) : Session ι :=
  s.setPdr id { s.pdr id with rules := rules }

/-
  The rule of a filter. A description replaces what is copied from the rule of the opposite
  direction.
-/
def ruleOf (ipfw : Ipfw δ ι) (access : Bool) (opposite : Option (Rule ι)) (filter : Flow δ) :
    Option (Rule ι) :=
  match filter.fd with
  | some description =>
      (ipfw.compile description).map fun rule =>
        ⟨filter.bid, if access then ipfw.swap rule else rule⟩
  | none => opposite.map fun rule => ⟨filter.bid, ipfw.swap rule.ipfw⟩

/- A filter that gives no rule is passed over. -/
def addFilter (ipfw : Ipfw δ ι) (id : U16) (s : Session ι) (filter : Flow δ) : Session ι :=
  let access := (s.pdr id).srcIf == interfaceAccess
  match ruleOf ipfw access (filter.bid.bind s.findRule) filter with
  | some rule => s.setRules id ((s.pdr id).rules ++ [rule])
  | none => s

/- The loop over the filters of a PDI, after all rules are removed. -/
def handleFilters (ipfw : Ipfw δ ι) (s : Session ι) (id : U16) (filters : List (Flow δ)) :
    Session ι :=
  (filters.take numOfSdfFilter).foldl (addFilter ipfw id) (s.setRules id [])

inductive Cause where
  | mandatoryIeMissing
  | mandatoryIeIncorrect
  | noResourcesAvailable

inductive OffendingIe where
  | pdrId
  | sourceInterface
  | fTeid
  | urrId

abbrev Handled := Except (Cause × OffendingIe)

def FTeid.noFamily (fTeid : FTeid τ) : Bool := !fTeid.ipv4 && !fTeid.ipv6

/- The checks on a PDI, before anything of it is taken. -/
def checkPdi (pdi : Pdi δ) : Option (Cause × OffendingIe) :=
  if pdi.sourceInterface.isNone then some (.mandatoryIeMissing, .sourceInterface)
  else if pdi.localFTeid.any FTeid.noFamily then some (.mandatoryIeIncorrect, .fTeid)
  else none

/- What an update takes from a PDI that passes them. -/
def applyPdi (ipfw : Ipfw δ ι) (id : U16) (s : Session ι) (pdi : Pdi δ) : Session ι :=
  let s := s.setPdr id { s.pdr id with
    srcIf := pdi.sourceInterface.getD (s.pdr id).srcIf
    srcIfType := pdi.sourceInterfaceType.or (s.pdr id).srcIfType }
  let s := handleFilters ipfw s id pdi.sdfFilter
  s.setPdr id { s.pdr id with
    networkInstance := pdi.networkInstance.join.or (s.pdr id).networkInstance
    fTeid := (pdi.localFTeid.map fun fTeid => { fTeid with teid := be32toh fTeid.teid }).or
      (s.pdr id).fTeid
    qfi := pdi.qfi.getD (s.pdr id).qfi }

/- The octets of the outer header removal are cut to its two members. -/
def setRemoval (id : U16) (octets : Option (List U8)) (s : Session ι) : Session ι :=
  s.setPdr id { s.pdr id with
    outerHeaderRemoval := (octets.map (List.take 2)).getD (s.pdr id).outerHeaderRemoval }

def ogsPfcpHandleUpdatePdr (ipfw : Ipfw δ ι) (s : Session ι) (message : UpdatePdr δ) :
    Handled (Session ι) :=
  match message.pdrId with
  | none => .error (.mandatoryIeMissing, .pdrId)
  | some id =>
      if id ∉ s.pdrs then .error (.mandatoryIeIncorrect, .pdrId)
      else
        match message.pdi.bind checkPdi with
        | some failure => .error failure
        | none =>
            .ok (setRemoval id message.outerHeaderRemoval (message.pdi.elim s (applyPdi ipfw id s)))

/- The fields that a Create PDR carries, and its filters. -/
structure CreatePdr (δ : Type) where
  pdrId : U16
  fields : Fields
  sdfFilter : List (Flow δ)

/- `ogs_pfcp_build_create_pdr`, which sends a default for no precedence. -/
def ogsPfcpBuildCreatePdr (id : U16) (pdr : CpPdr δ) : Option (CreatePdr δ) :=
  if 8 < pdr.urrs.length then none
  else pdr.sdfFilters.map fun filters =>
    { pdrId := id
      fields :=
        { pdr.toFields with precedence := if pdr.precedence = 0 then 65535 else pdr.precedence }
      sdfFilter := filters }

/- `OGS_MAX_NUM_OF_URR` -/
def maxNumOfUrr : Nat := 16

/- `ogs_pfcp_pdr_find_or_add` and `ogs_pfcp_pdr_reorder_by_precedence` -/
def Session.place (s : Session ι) (id : U16) (precedence : U32) : List U16 :=
  let others := s.pdrs.erase id
  let before := fun other => (s.pdr other).precedence ≤ precedence
  others.takeWhile before ++ id :: others.dropWhile before

/-
  The FAR, the URRs and the QER are found or added by their identifiers. Only the interface type
  stays when it is not sent.
-/
def ogsPfcpHandleCreatePdr (ipfw : Ipfw δ ι) (s : Session ι) (message : CreatePdr δ) :
    Handled (Session ι) :=
  let id := message.pdrId
  if message.fields.fTeid.any FTeid.noFamily then .error (.mandatoryIeIncorrect, .fTeid)
  else if message.fields.urrs.any (fun urr => urr = 0 || maxNumOfUrr < urr.toNat) then
    .error (.noResourcesAvailable, .urrId)
  else
    let s := { s with pdrs := s.place id message.fields.precedence }
    let s := s.setPdr id { message.fields with
        srcIfType := message.fields.srcIfType.or (s.pdr id).srcIfType
        rules := [] }
    .ok (handleFilters ipfw s id message.sdfFilter)

---- Rules From Filters ----

section Rules

variable {ipfw : Ipfw δ ι} {s : Session ι} {id : U16}

@[simp] theorem setPdr_same {pdr : UpPdr ι} : (s.setPdr id pdr).pdr id = pdr := update_self ..

theorem setPdr_of_ne {pdr : UpPdr ι} (hOther : other ≠ id) :
    (s.setPdr id pdr).pdr other = s.pdr other :=
  update_of_ne hOther ..

/- Only the rules of one PDR differ. -/
def Session.SameButRules (s t : Session ι) (id : U16) : Prop :=
  (t.pdr id).toFields = (s.pdr id).toFields ∧ ∀ other ≠ id, t.pdr other = s.pdr other

theorem setRules_same : s.SameButRules (s.setRules id rules) id :=
  ⟨by rw [Session.setRules, setPdr_same], fun _ hOther => setPdr_of_ne hOther⟩

theorem addFilter_same : s.SameButRules (addFilter ipfw id s filter) id := by
  unfold addFilter
  dsimp only
  split
  · exact setRules_same
  · exact ⟨rfl, fun _ _ => rfl⟩

theorem handleFilters_same : s.SameButRules (handleFilters ipfw s id filters) id := by
  refine List.foldlRecOn (motive := fun t => s.SameButRules t id) _ _ setRules_same ?_
  intro t hSame filter _
  exact ⟨addFilter_same.1.trans hSame.1,
    fun other hOther => (addFilter_same.2 other hOther).trans (hSame.2 other hOther)⟩

---- What An Update Changes ----

/- What is built and handled, with the filters of a changed TFT. -/
theorem updated_eq (hBuilt : ogsPfcpBuildUpdatePdr id pdr modifyFlags = some message)
    (hHandled : ogsPfcpHandleUpdatePdr ipfw s message = .ok after) :
    ∃ filters, (modifyFlags &&& modifyTft = 0 → filters = []) ∧
      after = setRemoval id (updateRemoval pdr modifyFlags)
        (applyPdi ipfw id s (updatePdi pdr filters)) := by
  unfold ogsPfcpBuildUpdatePdr at hBuilt
  split at hBuilt
  · cases hBuilt
  · rcases map_eq_some_iff.mp hBuilt with ⟨filters, hFilters, rfl⟩
    refine ⟨filters, fun hTft => ?_, ?_⟩
    · rw [if_pos hTft] at hFilters
      exact (Option.some.inj hFilters).symm
    · simp only [ogsPfcpHandleUpdatePdr] at hHandled
      split at hHandled
      · cases hHandled
      · split at hHandled
        · cases hHandled
        · exact (Except.ok.inj hHandled).symm

/-
  An update changes no field but the outer header removal, and that only with its flag. Without a
  flag of the TFT all rules are removed, which leaves them the same iff there are none.
-/
theorem update_pdr_keeps_fields (ipfw : Ipfw δ ι) (s after : Session ι) (id : U16) (pdr : CpPdr δ)
    (modifyFlags : BitVec 64) (message : UpdatePdr δ) (hAlike : (s.pdr id).toFields =
      { pdr.toFields with outerHeaderRemoval := (s.pdr id).outerHeaderRemoval })
    (hBuilt : ogsPfcpBuildUpdatePdr id pdr modifyFlags = some message)
    (hHandled : ogsPfcpHandleUpdatePdr ipfw s message = .ok after) :
    (∀ other ≠ id, after.pdr other = s.pdr other) ∧ (after.pdr id).toFields =
      { (s.pdr id).toFields with outerHeaderRemoval := (after.pdr id).outerHeaderRemoval } ∧
    (modifyFlags &&& modifyOuterHeaderRemoval = 0 →
      (after.pdr id).outerHeaderRemoval = (s.pdr id).outerHeaderRemoval) ∧
    (modifyFlags &&& modifyTft = 0 →
      ((after.pdr id).rules = (s.pdr id).rules ↔ (s.pdr id).rules = [])) := by
  rcases updated_eq hBuilt hHandled with ⟨filters, hFilters, rfl⟩
  have hSrcIf : (s.pdr id).srcIf = pdr.srcIf := (congrArg Fields.srcIf hAlike :)
  have hType : (s.pdr id).srcIfType = pdr.srcIfType := (congrArg Fields.srcIfType hAlike :)
  have hTeid : (s.pdr id).fTeid = pdr.fTeid := (congrArg Fields.fTeid hAlike :)
  have hSame := @handleFilters_same δ ι ipfw s id filters
  have hKept : ((handleFilters ipfw s id filters).pdr id).fTeid = pdr.fTeid :=
    (congrArg Fields.fTeid hSame.1).trans hTeid
  -- what the PDI carries is what the PDR has
  have hApplied : applyPdi ipfw id s (updatePdi pdr filters) = handleFilters ipfw s id filters := by
    have hWritten : (s.setPdr id { s.pdr id with
      srcIf := pdr.srcIf
      srcIfType := pdr.srcIfType.or (s.pdr id).srcIfType }) = s := by
      simp [Session.setPdr, ← hSrcIf, ← hType]
    simp only [applyPdi, updatePdi, getD_some, hWritten]
    simp [Session.setPdr, ← hKept, comp_def]
  rw [hApplied]
  refine ⟨?_, ?_, ?_, ?_⟩
  · intro other hOther
    rw [setRemoval, setPdr_of_ne hOther, hSame.2 other hOther]
  · simp only [setRemoval, setPdr_same]
    rw [← hSame.1]
  · intro hFlag
    simp only [setRemoval, setPdr_same, updateRemoval, if_pos hFlag]
    exact congrArg Fields.outerHeaderRemoval hSame.1
  · intro hTft
    have hNone : ((handleFilters ipfw s id []).pdr id).rules = [] := congrArg UpPdr.rules setPdr_same
    simp only [hFilters hTft, setRemoval, setPdr_same, hNone]
    exact eq_comm

/- A PDR of the core interface with one rule. -/
def exampleFields : Fields where
  precedence := 255
  srcIf := 1
  srcIfType := none
  networkInstance := none
  ueIpAddr := []
  fTeid := none
  qfi := 0
  outerHeaderRemoval := [0]
  far := 1
  urrs := []
  qer := none

def exampleCp : CpPdr Nat where
  toFields := exampleFields
  flow := fun _ => ⟨some 5, none⟩
  numOfFlow := 1

def exampleUp : Session Nat where
  pdrs := [1]
  pdr := fun _ =>
    { toFields := exampleFields
      rules := [⟨none, 5⟩] }

/- A compiler under which a description is its own rule. -/
def exampleIpfw : Ipfw Nat Nat where
  compile := some
  swap := (· + 100)

theorem update_pdr_keeps_fields_example : ∃ after : Session Nat,
    (after.pdr 1).toFields = { exampleFields with outerHeaderRemoval := (after.pdr 1).outerHeaderRemoval } :=
  ⟨_, (update_pdr_keeps_fields exampleIpfw exampleUp _ 1 exampleCp modifyOuterHeaderRemoval _ rfl rfl rfl).2.1⟩

/- The outer header removal alone is to be changed, and the rule is lost. -/
theorem update_pdr_loses_rules :
    ¬ ∀ (message : UpdatePdr Nat) (after : Session Nat),
    ogsPfcpBuildUpdatePdr 1 exampleCp modifyOuterHeaderRemoval = some message →
      ogsPfcpHandleUpdatePdr exampleIpfw exampleUp message = .ok after →
        (after.pdr 1).rules = (exampleUp.pdr 1).rules := by
  intro hKept
  have hRules := hKept _ _ rfl rfl
  cases hRules

end Rules

end Pretty5gs.Pfcp.PdrRules
