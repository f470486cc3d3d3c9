import Pretty5gs.Gtp.Identifier

/-
  Received GTPv2 messages and the transactions they meet.

  A copy of the request that opened a remote transaction is never delivered again. A reply to a
  local request reaches its transaction only if the spare octet after the sequence number is zero,
  because the compared key contains it.

  Main results: `duplicate_request_not_delivered`, `reply_reaches_transaction`.
-/

---- Copies Of A Request ----

namespace Pretty5gs.Gtp

open Faulty

variable {cfg : Config} {r : Xact} {t : Thread}

/- A request with a known identifier finds its transaction. -/
theorem receive_of_remote (hSound : Sound t.toStore) (hLive : t.xact x = some r)
    (hRemote : r.org = .remoteOrg) (hVersion : r.gtpVersion = .gtp2)
    (hXid : ogsGtp2SqnToXid h.sqn = r.xid) (hStage : ogsGtp2XactGetStage h.type r.xid = .initial) :
    ogsGtpXactReceive cfg t r.gnode h = receiveRx t x false h.type := by
  have hSlot : xactIndexGet t.toStore r.gnode .remoteOrg .gtp2 r.xid = some x := by
    have hOwned := hSound.remote hLive hRemote
    rw [Xact.key, hRemote, hVersion] at hOwned
    exact hOwned
  have hFind := hSound.findXid_of_slot hSlot
  simp only [ogsGtpXactReceive, hXid, hStage, gtp2RxOrg, reduceCtorEq, false_and, ↓reduceIte, hFind]

/- The verdict on a copy depends only on the step. -/
theorem rxGuard_duplicate (hValid : r.Valid) (hRemote : r.org = .remoteOrg) :
    rxGuard r (r.seq 0).type =
      if r.step = 3 then .reject
      else .resend (r.seq 1).pkbuf := by
  have hPos := hValid.step_pos
  have hLe := hValid.step_le
  simp only [rxGuard, hRemote, hValid.opened, ↓reduceIte]
  by_cases hThree : r.step = 3
  · rw [if_pos (by omega), if_pos hThree]
  · rw [if_neg (by omega), if_neg hThree]

/-
  While a remote transaction is in use, a copy of its request is not delivered, changes neither step
  nor history, and is answered with the stored reply, if there is one, until the triggered reply has
  arrived.
-/
theorem duplicate_request_not_delivered {cfg : Config} {t : Thread} {x : Nat} {r : Xact}
    {h : Gtp2Header} (hReach : (layer cfg).Reachable t) (hLive : t.xact x = some r)
    (hRemote : r.org = .remoteOrg) (hVersion : r.gtpVersion = .gtp2)
    (hType : h.type = (r.seq 0).type) (hXid : ogsGtp2SqnToXid h.sqn = r.xid) : ∃ t' r',
      ogsGtpXactReceive cfg t r.gnode h = .ok (if r.step = 3 then .error else .retry, none, t') ∧
      t'.sent = (if r.step = 3 then []
          else (r.seq 1).pkbuf.toList.map (fun pkbuf => (r.gnode, pkbuf))) ++ t.sent ∧
      t'.xact = Function.update t.xact x (some r') ∧
      r'.step = r.step ∧ r'.seq = r.seq := by
  have hSound := sound_of_reachable hReach
  have hValid := valid_of_reachable hReach x r hLive
  have hStage : ogsGtp2XactGetStage h.type r.xid = .initial := by
    have hOpened := hValid.opened
    rw [hVersion] at hOpened
    rw [hType]
    exact hOpened
  rw [receive_of_remote hSound hLive hRemote hVersion hXid hStage]
  have hGuard := rxGuard_duplicate hValid hRemote
  rw [← hType] at hGuard
  by_cases hThree : r.step = 3
  · rw [if_pos hThree] at hGuard
    have hRx : ogsGtpXactUpdateRx r h.type = .ok (.error, r, []) := by
      simp only [ogsGtpXactUpdateRx, hGuard]
    rw [receiveRx_eq hLive hRx]
    simp only [if_pos hThree]
    exact ⟨_, r, rfl, rfl, rfl, rfl, rfl⟩
  · rw [if_neg hThree] at hGuard
    simp only [if_neg hThree]
    cases hReply : (r.seq 1).pkbuf with
    | none =>
      rw [hReply] at hGuard
      have hRx : ogsGtpXactUpdateRx r h.type = .ok (.retry, r, []) := by
        simp only [ogsGtpXactUpdateRx, hGuard]
      rw [receiveRx_eq hLive hRx]
      exact ⟨_, r, rfl, rfl, rfl, rfl, rfl⟩
    | some pkbuf =>
      rw [hReply] at hGuard
      have hRx : ogsGtpXactUpdateRx r h.type = .ok (.retry, r.hold, [pkbuf]) := by
        simp only [ogsGtpXactUpdateRx, hGuard]
      rw [receiveRx_eq hLive hRx]
      exact ⟨_, r.hold, rfl, rfl, rfl, rfl, rfl⟩

/- A Modify Bearer Command with sequence number 0x800001. -/
def modifyBearerCommand : Gtp2Header :=
  ⟨2, true, ogsGtp2ModifyBearerCommandType, 8, ⟨0⟩, ⟨0x80000100⟩⟩

/-
  The command is answered by an Update Bearer Request, whose response arrives; then a copy of the
  command is an error.
-/
theorem duplicate_after_triggered_reply :
    ∃ t r, (layer mainThread).Reachable t ∧ t.xact 1 = some r ∧ r.org = .remoteOrg ∧
      (r.seq 0).type = modifyBearerCommand.type ∧ r.xid = ogsGtp2SqnToXid modifyBearerCommand.sqn ∧
      (r.seq 1).pkbuf.isSome ∧ ∃ t', ogsGtpXactReceive mainThread t 0
          modifyBearerCommand = .ok (.error, none, t') ∧ t'.sent = t.sent := by
  obtain ⟨t, hRun, r, hRecord⟩ : ∃ t, (layer mainThread).run (initial 0 1 3)
    [ .receive2 0 modifyBearerCommand, .updateTx2 1 ⟨97, 0⟩ [], .commit 1 true, .receive2 0
      { modifyBearerCommand with type := 98 } ] = .ok t ∧
    ∃ r, t.xact 1 = some r ∧ r.org = .remoteOrg ∧ (r.seq 0).type = modifyBearerCommand.type ∧
      r.xid = ogsGtp2SqnToXid modifyBearerCommand.sqn ∧ (r.seq 1).pkbuf.isSome ∧
      ∃ t', ogsGtpXactReceive mainThread t 0 modifyBearerCommand = .ok (.error, none, t') ∧
        t'.sent = t.sent := ⟨_, rfl, _, rfl, rfl, rfl, rfl, rfl, _, rfl, rfl⟩
  exact ⟨t, r, (reachable_initial (by decide)).run hRun, hRecord⟩

/- A copy of the command before it was answered. -/
theorem duplicate_request_not_delivered_command :
    ∃ t t', (layer mainThread).Reachable t ∧ ogsGtpXactReceive mainThread t 0 modifyBearerCommand =
        .ok (.retry, none, t') ∧ t'.sent = t.sent := by
  obtain ⟨t, r, hRun, hLive, hRemote, hVersion, hType, hXid, hNode, hStep, hNone⟩ :
    ∃ t r, (layer mainThread).run (initial 0 1 3) [ .receive2 0 modifyBearerCommand ] = .ok t ∧
      t.xact 1 = some r ∧ r.org = .remoteOrg ∧ r.gtpVersion = .gtp2 ∧
      modifyBearerCommand.type = (r.seq 0).type ∧ ogsGtp2SqnToXid modifyBearerCommand.sqn = r.xid ∧
      r.gnode = 0 ∧ r.step = 1 ∧ (r.seq 1).pkbuf = none :=
    ⟨_, _, rfl, rfl, rfl, rfl, rfl, rfl, rfl, rfl, rfl⟩
  have hReach := (reachable_initial (by decide)).run hRun
  rcases duplicate_request_not_delivered hReach hLive hRemote
    hVersion hType hXid with ⟨t', r', hCopy, hSent, -⟩
  simp only [hStep, hNode, hNone, OfNat.one_ne_ofNat, ↓reduceIte] at hCopy hSent
  exact ⟨t, t', hReach, hCopy, hSent⟩

---- Replies To Local Requests ----

/- The octet after the sequence number. -/
def spareOctet (sqn : Be32) : U8 := (be32toh sqn).setWidth 8

/- A local request with the identifier waits for its reply. -/
def awaitsReply (t : Thread) (xid : U32) (x : Nat) : Bool :=
  (t.xact x).any (fun r => r.gtpVersion = .gtp2 ∧ r.org = .localOrg ∧ r.xid = xid ∧ r.step = 1)

/-
  The messages that reach the transaction. A failure indication is looked up by its identifier
  alone, any other reply by the key that contains the spare octet.
-/
def ReplyReaches (t : Thread) (n : Nat) (h : Gtp2Header) (x : Nat) : Prop :=
  let xid := ogsGtp2SqnToXid h.sqn
  let slot := xactIndexGet t.toStore n .localOrg .gtp2 xid
  if ogsGtp2XactIsLocalReply (ogsGtp2XactGetStage h.type xid) xid then
    spareOctet h.sqn = 0 ∧ xid ≠ 0 ∧ (slot = some x ∨
        (∀ y, slot = some y → awaitsReply t xid y = false) ∧ (xactList t.toStore n .localOrg).find?
            (awaitsReply t xid) = some x)
  else
    isGtp2FailureIndication h.type = true ∧ (slot = some x ∨ slot = none ∧
          scanXid t.toStore n .localOrg .gtp2 xid = some x)

variable {sqn : Be32} {xid : U32}

/- The stored key equals the received one without a spare. -/
theorem ogsGtp2SqnKey_eq_iff (hXid : ogsGtp2SqnToXid sqn = xid) :
    (be32toh (ogsGtp2XidToSqn xid) ≠ 0 ∧ ogsGtp2SqnKey (ogsGtp2XidToSqn xid) = ogsGtp2SqnKey sqn) ↔
      spareOctet sqn = 0 ∧ xid ≠ 0 := by
  subst hXid
  have hZero : be32toh (ogsGtp2XidToSqn (ogsGtp2SqnToXid sqn)) = 0 ↔ ogsGtp2SqnToXid sqn = 0 := by
    rw [BitVec.toNat_eq, BitVec.toNat_eq, be32toh, ogsGtp2XidToSqn_toNat, ogsGtp2SqnToXid_toNat]
    change _ = 0 ↔ _ = 0
    omega
  have hKey : ogsGtp2SqnKey (ogsGtp2XidToSqn (ogsGtp2SqnToXid sqn)) = ogsGtp2SqnKey sqn ↔
    spareOctet sqn = 0 := by
    rw [BitVec.toNat_eq, BitVec.toNat_eq, spareOctet, be32toh,
      BitVec.toNat_setWidth, ogsGtp2SqnKey_toNat, ogsGtp2SqnKey_toNat, ogsGtp2XidToSqn_toNat,
      ogsGtp2SqnToXid_toNat]
    change _ ↔ _ = 0
    omega
  rw [hKey, Ne, hZero]
  exact And.comm

/- The match test on the records of a reachable state. -/
theorem localMatch_iff (hValid : t.All Xact.Valid) (hXid : ogsGtp2SqnToXid sqn = xid) (y : Nat) :
    ogsGtp2XactLocalMatch t xid (ogsGtp2SqnKey sqn) 1 y = true ↔ awaitsReply t xid y = true ∧
        spareOctet sqn = 0 ∧ xid ≠ 0 := by
  rw [← ogsGtp2SqnKey_eq_iff hXid]
  cases hLive : t.xact y with
  | none => simp [ogsGtp2XactLocalMatch, awaitsReply, hLive]
  | some r =>
    simp only [ogsGtp2XactLocalMatch, awaitsReply, hLive, Option.any_some, decide_eq_true_eq]
    constructor
    · rintro ⟨hVersion, hId, hOrg, hSqn, hKey, hStep⟩
      have hStored := (hValid y r hLive).sqn hOrg hVersion
      rw [hStored, hId] at hSqn hKey
      exact ⟨⟨hVersion, hOrg, hId, by omega⟩, hSqn, hKey⟩
    · rintro ⟨⟨hVersion, hOrg, hId, hStep⟩, hSqn, hKey⟩
      have hStored := (hValid y r hLive).sqn hOrg hVersion
      rw [hStored, hId]
      exact ⟨hVersion, rfl, hOrg, hSqn, hKey, fun _ => by omega⟩

variable {n x : Nat}

/- What the lookup of a reply finds. -/
theorem findLocalReply_iff (hValid : t.All Xact.Valid) (hXid : ogsGtp2SqnToXid sqn = xid)
    (hWaits : awaitsReply t xid x = true) :
    let slot := xactIndexGet t.toStore n .localOrg .gtp2 xid
    findLocalReply t n xid sqn = some x ↔ spareOctet sqn = 0 ∧ xid ≠ 0 ∧ (slot = some x ∨
          (∀ y, slot = some y → awaitsReply t xid y = false) ∧
          (xactList t.toStore n .localOrg).find? (awaitsReply t xid) = some x) := by
  have hMatch := localMatch_iff hValid hXid
  by_cases hPlain : spareOctet sqn = 0 ∧ xid ≠ 0
  · have hSame : ogsGtp2XactLocalMatch t xid (ogsGtp2SqnKey sqn) 1 = awaitsReply t xid := by
      funext y
      apply Bool.eq_iff_iff.mpr
      rw [hMatch]
      exact and_iff_left hPlain
    simp only [findLocalReply, ogsGtp2XactFindLocal, hSame,
      hPlain.1, hPlain.2, ne_eq, not_false_eq_true, true_and]
    cases hSlot : xactIndexGet t.toStore n .localOrg .gtp2 xid with
    | none => simp
    | some y =>
        cases hAwaits : awaitsReply t xid y with
        | false =>
            have hNe : y ≠ x := by
              rintro rfl
              rw [hWaits] at hAwaits
              cases hAwaits
            simp [Option.filter_some, hAwaits, hNe]
        | true => simp [Option.filter_some, hAwaits]
  · -- With a spare octet nothing matches the key.
    have hNever : ogsGtp2XactLocalMatch t xid (ogsGtp2SqnKey sqn) 1 = fun _ => false := by
      funext y
      apply Bool.eq_false_iff.mpr
      rw [Ne, hMatch]
      exact fun h => hPlain h.2
    have hNone : findLocalReply t n xid sqn = none := by
      simp only [findLocalReply, ogsGtp2XactFindLocal, hNever]
      simp
    rw [hNone]
    constructor
    · intro h
      cases h
    · rintro ⟨hSpare, hNonzero, -⟩
      exact absurd ⟨hSpare, hNonzero⟩ hPlain

variable {version : Version}

/- A lookup by identifier: the slot, or else the scan. -/
theorem Sound.findXid_iff (hSound : Sound t.toStore) :
    let slot := xactIndexGet t.toStore n org version xid
    findXid t n org version xid = some x ↔ slot = some x ∨ slot = none ∧
          scanXid t.toStore n org version xid = some x := by
  intro slot
  cases hSlot : slot with
  | none =>
    have hScan : findXid t n org version xid = scanXid t.toStore n org version xid := by
      unfold findXid
      dsimp only
      rw [show xactIndexGet t.toStore n org version xid = none from hSlot, Option.filter_none]
    rw [hScan]
    simp
  | some y =>
    rw [hSound.findXid_of_slot hSlot]
    simp

/- What a lookup by identifier finds is on the side asked. -/
theorem Sound.org_of_findXid (hSound : Sound t.toStore)
    (hFind : findXid t n org version xid = some x) : ∃ r, t.xact x = some r ∧ r.org = org := by
  rcases hSound.findXid_iff.mp hFind with hSlot | ⟨-, hScan⟩
  · rcases hSound.owner hSlot with ⟨r, hLive, -, hKey⟩
    exact ⟨r, hLive, (key_eq_xactIndexKey.mp hKey).1⟩
  · rcases hSound.mem_xactList (List.mem_of_find?_eq_some hScan) with ⟨r, hLive, -, hOrg⟩
    exact ⟨r, hLive, hOrg⟩

/- A receive reports the transaction it worked on. -/
theorem receiveRx_result (hExec : receiveRx t x created type = .ok (rv, some y, t')) : y = x := by
  cases hLive : t.xact x with
  | none => simp [receiveRx, hLive] at hExec
  | some r =>
    rcases ogsGtpXactUpdateRx_cases with ⟨-, hRx⟩ | ⟨pkbuf, r', -, hRx, -⟩ | ⟨_, r', -, hRx, -⟩
    · rw [receiveRx_eq hLive hRx] at hExec
      cases created with
      | false => cases hExec
      | true =>
        rcases map_eq_ok hExec with ⟨u, -, hEq⟩
        cases hEq
    · rw [receiveRx_eq hLive hRx] at hExec
      cases hExec
    · rw [receiveRx_eq hLive hRx] at hExec
      cases hExec
      rfl

theorem receiveNew_result (hSound : Sound t.toStore)
    (hExec : receiveNew cfg t n version xid type = .ok (rv, some y, t')) : y = t.poolId + 1 := by
  rcases bind_eq_ok.mp hExec with ⟨⟨created, u⟩, hCreate, hRest⟩
  unfold ogsGtpXactRemoteCreate at hCreate
  cases hCalloc : ogsPoolIdCalloc t with
  | none =>
    rw [hCalloc] at hCreate
    cases hCreate
    cases hRest
  | some pair =>
    rcases pair with ⟨x, v⟩
    simp only [hCalloc] at hCreate
    rcases ogsPoolIdCalloc_some hCalloc with ⟨rfl, hAlloc, -⟩
    rcases setupXact_spec hSound hAlloc blank_calloc with ⟨w, -, -, -, -, hSetup⟩
    split at hSetup
    · rw [hSetup.1] at hCreate
      cases hCreate
      exact receiveRx_result hRest
    · rw [hSetup.1] at hCreate
      cases hCreate
      cases hRest

/- A transaction that waits for a reply accepts it. -/
theorem receiveRx_reply (hLive : t.xact x = some r) (hValid : r.Valid) (hLocal : r.org = .localOrg)
    (hStep : r.step = 1)
    (hStage : getStage r.gtpVersion type r.xid = .intermediate ∨
        getStage r.gtpVersion type r.xid = .final) :
    ∃ t', receiveRx t x false type = .ok (.ok, some x, t') := by
  have hGuard : ∃ hold, rxGuard r type = .accept hold := by
    rcases hStage with hStage | hStage
    · -- The second slot is still empty, with type 0.
      have hLater := hValid.later 1 (by simp [hStep])
      have hOther : (r.seq 1).type ≠ type := by
        rintro rfl
        rw [hLater] at hStage
        change getStage r.gtpVersion 0 r.xid = _ at hStage
        rw [getStage_zero] at hStage
        cases hStage
      exact ⟨true, by
        simp [rxGuard, hLocal, hStage, hOther, hStep]⟩
    · exact ⟨false, by
      simp [rxGuard, hLocal, hStage, hStep]⟩
  rcases hGuard with ⟨hold, hGuard⟩
  rcases ogsGtpXactUpdateRx_accept hGuard with ⟨r', hRx, -⟩
  rw [receiveRx_eq hLive hRx]
  exact ⟨_, rfl⟩

/- A local reply is delivered to what its lookup finds. -/
theorem receive_localReply_iff (hXid : ogsGtp2SqnToXid h.sqn = xid)
    (hReply : ogsGtp2XactIsLocalReply (ogsGtp2XactGetStage h.type xid) xid = true)
    (hAccept : ∃ t', receiveRx t x false h.type = .ok (.ok, some x, t')) :
    (∃ t', ogsGtpXactReceive cfg t n h = .ok (.ok, some x, t')) ↔
      findLocalReply t n xid h.sqn = some x := by
  have hOrg : gtp2RxOrg (ogsGtp2XactGetStage h.type xid) xid h.type = some .localOrg := by
    unfold ogsGtp2XactIsLocalReply at hReply
    split at hReply
    · rename_i hStage
      rw [hStage]
      rfl
    · split at hReply
      · rename_i hFinal
        simp [gtp2RxOrg, hFinal.1, hFinal.2]
      · cases hReply
  simp only [ogsGtpXactReceive, hXid, hOrg, hReply, true_and, ↓reduceIte]
  cases hFind : findLocalReply t n xid h.sqn with
  | none => simp
  | some y =>
    constructor
    · rintro ⟨t', hExec⟩
      rw [receiveRx_result hExec]
    · intro hEq
      cases hEq
      exact hAccept

/- Other final messages are looked up by identifier alone. -/
theorem receive_commandFinal_iff (hSound : Sound t.toStore) (hLive : t.xact x = some r)
    (hLocal : r.org = .localOrg) (hXid : ogsGtp2SqnToXid h.sqn = xid)
    (hStage : ogsGtp2XactGetStage h.type xid = .final) (hCommand : isCommandXid xid = true)
    (hAccept : ∃ t', receiveRx t x false h.type = .ok (.ok, some x, t')) :
    (∃ t', ogsGtpXactReceive cfg t n h = .ok (.ok, some x, t')) ↔
      isGtp2FailureIndication h.type = true ∧ findXid t n .localOrg .gtp2 xid = some x := by
  have hNew : ∀ t', receiveNew cfg t n .gtp2 xid h.type ≠ .ok (.ok, some x, t') := by
    intro t' hExec
    have hFresh := receiveNew_result hSound hExec
    have hBound := hSound.bound hLive
    omega
  have hReply : ogsGtp2XactIsLocalReply .final xid = false := by
    simp [ogsGtp2XactIsLocalReply, hCommand]
  simp only [ogsGtpXactReceive, hXid, hStage, gtp2RxOrg,
    hCommand, hReply, Bool.false_eq_true, and_false, ↓reduceIte]
  cases hFailure : isGtp2FailureIndication h.type with
  | true =>
    simp only [↓reduceIte, true_and]
    cases hFind : findXid t n .localOrg .gtp2 xid with
    | none => simp [hNew]
    | some y =>
      constructor
      · rintro ⟨t', hExec⟩
        rw [receiveRx_result hExec]
      · intro hEq
        cases hEq
        exact hAccept
  | false =>
    -- The remote list is searched, and x is not on it.
    simp only [Bool.false_eq_true, ↓reduceIte, false_and, iff_false]
    rintro ⟨t', hExec⟩
    cases hFind : findXid t n .remoteOrg .gtp2 xid with
    | none =>
      rw [hFind] at hExec
      exact hNew t' hExec
    | some y =>
      rw [hFind] at hExec
      cases receiveRx_result hExec
      rcases hSound.org_of_findXid hFind with ⟨q, hq, hRemote⟩
      rw [hLive] at hq
      cases hq
      rw [hLocal] at hRemote
      cases hRemote

---- Routing Replies To Shards ----

/- The shard that an identifier was allocated by. -/
def shardOfXid (xid : U32) : U32 := (xid >>> (23 - ogsWorkerIdBits)) &&& 15

/- The command bit does not change the shard. -/
theorem shardOfXid_command : shardOfXid (xid ||| ogsGtpCmdXactId) = shardOfXid xid := by
  have hBit : (15 : U32) &&& ogsGtpCmdXactId >>> (23 - ogsWorkerIdBits) = 0#32 := by decide
  rw [shardOfXid, BitVec.ushiftRight_or_distrib, BitVec.and_comm, BitVec.and_or_distrib_left, hBit,
    BitVec.or_zero, BitVec.and_comm]
  rfl

theorem shardOfXid_toNat : (shardOfXid xid).toNat = xid.toNat / 2 ^ 19 % 2 ^ 4 := by
  rw [shardOfXid, BitVec.toNat_and, BitVec.toNat_ushiftRight, Nat.shiftRight_eq_div_pow]
  exact Nat.and_two_pow_sub_one_eq_mod _ 4

/- The next GTPv2 identifier names the shard of its thread. -/
theorem shardOfXid_gtp2NextXid (hActive : cfg.worker.shardsActive = true) : (shardOfXid (gtp2NextXid cfg t hdesc)).toNat = cfg.worker.selfId := by
  have hId : (cfg.worker.selfId : Nat) < 16 := cfg.worker.selfId.isLt
  have hWindow := gtp2_window hActive t.xactId
  have hPlain : (shardOfXid (xactNextXid cfg.worker t.xactId
    ogsGtpMinXactId ogsGtpCmdXactId).1).toNat = cfg.worker.selfId := by
    rw [shardOfXid_toNat]
    omega
  unfold gtp2NextXid gtp2LocalXid
  split
  · rw [shardOfXid_command]
    exact hPlain
  · exact hPlain

theorem shardOfXid_of_reachable (hReach : (layer cfg).Reachable t)
    (hActive : cfg.worker.shardsActive = true) :
    t.All (fun r => r.org = .localOrg → r.gtpVersion = .gtp2 →
        (shardOfXid r.xid).toNat = cfg.worker.selfId) := by
  refine records_of_reachableBy ?_ ?_ hReach
  · intro r r' hShard hStep hLocal hVersion
    rw [hStep.same.xid]
    rw [hStep.same.org] at hLocal
    rw [hStep.same.gtpVersion] at hVersion
    exact hShard hLocal hVersion
  · intro t op r _ hCreates _ _ hLocal hVersion
    change r.org = .localOrg at hLocal
    change r.gtpVersion = .gtp2 at hVersion
    change (shardOfXid r.xid).toNat = _
    cases op with
    | localCreate1 n hdesc payload =>
      rw [hCreates.1] at hVersion
      cases hVersion
    | localCreate2 n hdesc payload =>
      rw [hCreates.2.2.1]
      exact shardOfXid_gtp2NextXid hActive
    | receive1 n h =>
      rw [hCreates.2.1] at hLocal
      cases hLocal
    | receive2 n h =>
      rw [hCreates.2.1] at hLocal
      cases hLocal
    | _ => exact hCreates.elim

/- A reply is routed by its identifier or not at all. -/
theorem ogsGtp2RxReplyShard_eq
    (hActive : router.shardsActive = true) (hLen : 8 ≤ len) (hVersion : h.version = 2) :
    ogsGtp2RxReplyShard router h len =
      if ogsGtp2XactIsLocalReply (ogsGtp2XactGetStage h.type (ogsGtp2SqnToXid h.sqn))
          (ogsGtp2SqnToXid h.sqn) then
        ((shardOfXid (ogsGtp2SqnToXid h.sqn)).toNat : Int)
      else -1 := by
  have hLong : ¬ len < 8 := by omega
  simp only [ogsGtp2RxReplyShard, hActive, hLong, hVersion,
    shardOfXid, not_true_eq_false, ne_eq, ↓reduceIte, ite_not]

---- Replies And Their Transactions ----

/-
  A reply is matched to the waiting transaction exactly under the condition above, and it is routed
  to the transaction's shard exactly if it is not the final message of a command.
-/
theorem reply_reaches_transaction {cfg : Config} {t : Thread} {x : Nat} {r : Xact} {h : Gtp2Header}
    (hReach : (layer cfg).Reachable t) (hLive : t.xact x = some r) (hLocal : r.org = .localOrg)
    (hVersion : r.gtpVersion = .gtp2) (hStep : r.step = 1) (hXid : ogsGtp2SqnToXid h.sqn = r.xid)
    (hStage : ogsGtp2XactGetStage h.type r.xid = .intermediate ∨
        ogsGtp2XactGetStage h.type r.xid = .final) :
    ((∃ t', ogsGtpXactReceive cfg t r.gnode h = .ok (.ok, some x, t')) ↔
      ReplyReaches t r.gnode h x) ∧ ∀ (router : Worker) (len : Nat),
      cfg.worker.shardsActive = true → router.shardsActive = true → h.version = 2 → 8 ≤ len →
        (ogsGtp2RxReplyShard router h len = cfg.worker.selfId ↔
          ¬ (ogsGtp2XactGetStage h.type r.xid = .final ∧ isCommandXid r.xid = true)) := by
  have hSound := sound_of_reachable hReach
  have hAll := valid_of_reachable hReach
  have hValid := hAll x r hLive
  have hReply : ogsGtp2XactIsLocalReply (ogsGtp2XactGetStage h.type r.xid) r.xid = true ↔
        ¬ (ogsGtp2XactGetStage h.type r.xid = .final ∧ isCommandXid r.xid = true) := by
    rcases hStage with hStage | hStage
    · simp [ogsGtp2XactIsLocalReply, hStage]
    · simp [ogsGtp2XactIsLocalReply, hStage]
  refine ⟨?_, ?_⟩
  · have hAccept : ∃ t', receiveRx t x false h.type = .ok (.ok, some x, t') := by
      apply receiveRx_reply hLive hValid hLocal hStep
      rw [hVersion]
      exact hStage
    rw [ReplyReaches, hXid]
    cases hIs : ogsGtp2XactIsLocalReply (ogsGtp2XactGetStage h.type r.xid) r.xid with
    | true =>
        have hWaits : awaitsReply t r.xid x = true := by
          simp [awaitsReply, hLive, hVersion, hLocal, hStep]
        rw [receive_localReply_iff hXid hIs hAccept]
        exact findLocalReply_iff hAll hXid hWaits
    | false =>
        have hFinal := not_not.mp (mt hReply.mpr (by simp [hIs]))
        rw [receive_commandFinal_iff hSound hLive hLocal hXid hFinal.1 hFinal.2 hAccept]
        apply and_congr_right
        intro _
        exact hSound.findXid_iff
  · intro router len hShards hActive hTwo hLen
    have hShard := shardOfXid_of_reachable hReach hShards x r hLive hLocal hVersion
    rw [ogsGtp2RxReplyShard_eq hActive hLen hTwo, hXid, ← hReply]
    cases hIs : ogsGtp2XactIsLocalReply (ogsGtp2XactGetStage h.type r.xid) r.xid with
    | false =>
        simp only [Bool.false_eq_true, ↓reduceIte, iff_false]
        omega
    | true =>
        simp only [↓reduceIte, iff_true]
        rw [hShard]

/- A Create Session Response with sequence number 1. -/
def createSessionResponse (spare : U32) : Gtp2Header := ⟨2, true, 33, 8, ⟨0⟩, ⟨0x100 + spare⟩⟩

/- An indication that the command 0x800001 has failed. -/
def modifyBearerFailureIndication : Gtp2Header :=
  ⟨2, true, ogsGtp2ModifyBearerFailureIndicationType, 8, ⟨0⟩, ⟨0x80000100⟩⟩

/-
  A response with message priority in its spare octet is dropped, and the failure of a command is
  not routed to the shard that sent the command.
-/
theorem reply_misses_transaction :
    (∃ t r, (layer mainThread).Reachable t ∧ t.xact 1 = some r ∧ r.org = .localOrg ∧ r.step = 1 ∧
      r.gnode = 0 ∧ r.xid = ogsGtp2SqnToXid (createSessionResponse 1).sqn ∧
      ∃ t', ogsGtpXactReceive mainThread t 0 (createSessionResponse 1) = .ok (.error, none, t')) ∧
    ∃ t r, (layer shardThread).Reachable t ∧ t.xact 1 = some r ∧ r.org = .localOrg ∧ r.step = 1 ∧
      r.xid = ogsGtp2SqnToXid modifyBearerFailureIndication.sqn ∧
      ogsGtp2RxReplyShard shardThread.worker modifyBearerFailureIndication 12 = -1 := by
  refine ⟨?_, ?_⟩
  · obtain ⟨t, hRun, r, hRecord⟩ : ∃ t, (layer mainThread).run (initial 0 1 3)
            [ .localCreate2 0 ⟨32, 0⟩ [], .commit 1 true ] = .ok t ∧
          ∃ r, t.xact 1 = some r ∧ r.org = .localOrg ∧ r.step = 1 ∧ r.gnode = 0 ∧ r.xid =
              ogsGtp2SqnToXid (createSessionResponse 1).sqn ∧ ∃ t', ogsGtpXactReceive mainThread t 0
              (createSessionResponse 1) = .ok (.error, none, t') :=
      ⟨_, rfl, _, rfl, rfl, rfl, rfl, rfl, _, rfl⟩
    exact ⟨t, r, (reachable_initial (by decide)).run hRun, hRecord⟩
  · obtain ⟨t, hRun, r, hRecord⟩ : ∃ t, (layer shardThread).run (initial 0 1 3) [ .localCreate2 0
                ⟨ogsGtp2ModifyBearerCommandType, 0⟩ [], .commit 1 true ] = .ok t ∧
          ∃ r, t.xact 1 = some r ∧ r.org = .localOrg ∧ r.step = 1 ∧ r.xid = ogsGtp2SqnToXid
              modifyBearerFailureIndication.sqn := ⟨_, rfl, _, rfl, rfl, rfl, rfl⟩
    exact ⟨t, r, (reachable_initial (by decide)).run hRun, hRecord.1, hRecord.2.1,
      hRecord.2.2.1, hRecord.2.2.2, rfl⟩

/- The response without a spare octet arrives. -/
theorem reply_reaches_transaction_response :
    ∃ t t', (layer shardThread).Reachable t ∧ ogsGtpXactReceive shardThread t 0
        (createSessionResponse 0) = .ok (.ok, some 1, t') ∧ ogsGtp2RxReplyShard shardThread.worker
        (createSessionResponse 0) 12 = 0 := by
  obtain ⟨t, r, hRun, hLive, hLocal, hVersion, hStep, hNode, hXid, hSlot⟩ :
    ∃ t r, (layer shardThread).run (initial 0 1 3)
      [ .localCreate2 0 ⟨32, 0⟩ [], .commit 1 true ] = .ok t ∧
      t.xact 1 = some r ∧ r.org = .localOrg ∧ r.gtpVersion = .gtp2 ∧ r.step = 1 ∧ r.gnode = 0 ∧
      r.xid = 1 ∧ xactIndexGet t.toStore 0 .localOrg .gtp2 1 = some 1 :=
    ⟨_, _, rfl, rfl, rfl, rfl, rfl, rfl, rfl, rfl⟩
  have hReach := (reachable_initial (by decide)).run hRun
  have hStage : ogsGtp2XactGetStage (createSessionResponse 0).type r.xid = .final := by rfl
  have hBoth := reply_reaches_transaction (h := createSessionResponse 0) hReach hLive
    hLocal hVersion hStep (by rw [hXid]; rfl) (Or.inr hStage)
  rw [hNode] at hBoth
  have hReaches : ReplyReaches t 0 (createSessionResponse 0) 1 := ⟨rfl, by decide, Or.inl hSlot⟩
  rcases hBoth.1.mpr hReaches with ⟨t', hReceive⟩
  refine ⟨t, t', hReach, hReceive, ?_⟩
  apply (hBoth.2 shardThread.worker 12 rfl rfl rfl (by decide)).mpr
  rw [hXid]
  decide

---- Lookups ----

/-
  A lookup by identifier finds a transaction in use that has it, and finds every remote one, even if
  the head of its list was overwritten.
-/
theorem lookups_find_live_transactions {cfg : Config} {t : Thread}
    (hReach : (layer cfg).Reachable t) :
    (∀ n org version xid x, findXid t n org version xid = some x → ∃ r, t.xact x = some r ∧
        r.gnode = n ∧ r.org = org ∧ r.gtpVersion = version ∧ r.xid = xid) ∧
      ∀ x r, t.xact x = some r → r.org = .remoteOrg →
        findXid t r.gnode .remoteOrg r.gtpVersion r.xid = some x := by
  have hSound := sound_of_reachable hReach
  refine ⟨?_, ?_⟩
  · intro n org version xid x hFind
    rcases hSound.findXid_iff.mp hFind with hSlot | ⟨-, hScan⟩
    · rcases hSound.owner hSlot with ⟨r, hLive, hNode, hKey⟩
      exact ⟨r, hLive, hNode, key_eq_xactIndexKey.mp hKey⟩
    · rcases hSound.mem_xactList (List.mem_of_find?_eq_some hScan) with ⟨r, hLive, hNode, hOrg⟩
      have hMatch := List.find?_some hScan
      simp only [matchesXid, hLive, Option.any_some, decide_eq_true_eq] at hMatch
      exact ⟨r, hLive, hNode, hOrg, hMatch⟩
  · intro x r hLive hRemote
    have hSlot := hSound.remote hLive hRemote
    rw [Xact.key, hRemote] at hSlot
    exact hSound.findXid_of_slot hSlot

theorem lookup_finds_command :
    ∃ t r, (layer mainThread).Reachable t ∧ t.xact 1 = some r ∧
      findXid t r.gnode .remoteOrg r.gtpVersion r.xid = some 1 := by
  obtain ⟨t, r, hRun, hLive, hRemote⟩ : ∃ t r,
    (layer mainThread).run (initial 0 1 3) [.receive2 0 modifyBearerCommand] = .ok t ∧
    t.xact 1 = some r ∧ r.org = .remoteOrg := ⟨_, _, rfl, rfl, rfl⟩
  have hReach := (reachable_initial (by decide)).run hRun
  exact ⟨t, r, hReach, hLive, (lookups_find_live_transactions hReach).2 1 r hLive hRemote⟩

end Pretty5gs.Gtp
