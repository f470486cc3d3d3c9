import Mathlib.Data.Nat.Bitwise
import Pretty5gs.Gtp.Outcome

/-
  The identifiers of local transactions.

  The two protocols advance one counter, each over its own range and wrapping only on equality with
  its own maximum. Without protocol shards a create can therefore leave the range of its protocol,
  and the sequence number on the wire is then not the identifier of the transaction. With shards
  every identifier lies in the window of its shard.

  Main results: `xactNextXid_window`, `local_xid_in_range`.
-/

---- Sequence Numbers ----

namespace Pretty5gs.Gtp

theorem ogsGtp2SqnToXid_toNat {sqn : Be32} :
    (ogsGtp2SqnToXid sqn).toNat = sqn.host.toNat / 2 ^ 8 := by
  rw [ogsGtp2SqnToXid, be32toh, BitVec.toNat_ushiftRight, Nat.shiftRight_eq_div_pow]

theorem ogsGtp2XidToSqn_toNat {xid : U32} :
    (ogsGtp2XidToSqn xid).host.toNat = xid.toNat * 2 ^ 8 % 2 ^ 32 := by
  rw [ogsGtp2XidToSqn, htobe32, BitVec.toNat_shiftLeft, Nat.shiftLeft_eq]

theorem ogsGtp2SqnKey_toNat {sqn : Be32} : (ogsGtp2SqnKey sqn).toNat = sqn.host.toNat % 2 ^ 24 := by
  exact Nat.and_two_pow_sub_one_eq_mod _ 24

/- A 16-bit identifier survives the GTPv1 header. -/
theorem ogsGtp1SqnToXid_ogsGtp1XidToSqn (hRange : xid ≤ ogsGtp1MaxXactId) :
    ogsGtp1SqnToXid (ogsGtp1XidToSqn xid) = xid := by
  apply BitVec.eq_of_toNat_eq
  have hLe : xid.toNat ≤ 65535 := hRange
  simp only [ogsGtp1SqnToXid, ogsGtp1XidToSqn, be16toh_htobe16, BitVec.toNat_setWidth]
  omega

/- A 24-bit identifier survives the GTPv2 header. -/
theorem ogsGtp2SqnToXid_ogsGtp2XidToSqn (hRange : xid.toNat < 2 ^ 24) :
    ogsGtp2SqnToXid (ogsGtp2XidToSqn xid) = xid := by
  apply BitVec.eq_of_toNat_eq
  rw [ogsGtp2SqnToXid_toNat, ogsGtp2XidToSqn_toNat]
  omega

/- An identifier below the command bit has it clear. -/
theorem isCommandXid_of_lt (hLt : xid.toNat < 2 ^ 23) : isCommandXid xid = false := by
  have hZero : xid &&& ogsGtpCmdXactId = 0 := by
    apply BitVec.eq_of_toNat_eq
    change xid.toNat &&& 2 ^ 23 = 0
    rw [Nat.and_two_pow, Nat.testBit_lt_two_pow hLt]
    rfl
  rw [isCommandXid, hZero]
  rfl

/- The identifier that a receiver reads from a packet. -/
def Pkbuf.xid (pkbuf : Pkbuf) : U32 :=
  match pkbuf with
  | .gtp1 h _ => ogsGtp1SqnToXid h.sqn
  | .gtp2 h _ => ogsGtp2SqnToXid h.sqn

theorem buildGtp1_xid {xid : U32} {hdesc : HeaderDesc} {payload : List UInt8} :
    (buildGtp1 xid hdesc payload).xid = ogsGtp1SqnToXid (ogsGtp1XidToSqn xid) := rfl

/- The sequence number is where `teid_presence` says it is. -/
theorem buildGtp2_xid {xid : U32} {hdesc : HeaderDesc} {payload : List UInt8} :
    (buildGtp2 xid hdesc payload).xid = ogsGtp2SqnToXid (ogsGtp2XidToSqn xid) := by
  unfold buildGtp2
  split
  · rfl
  · rfl

---- Windows Of Shards ----

variable {worker : Worker}

/- With shards, an identifier lies in its shard's window. -/
theorem xactNextXid_window (min max : U32) (span : Nat)
    (hActive : worker.shardsActive = true) (hSpan :
      ((max - min + 1) >>> ogsWorkerIdBits).toNat = span) (hMin : min.toNat < span)
    (hFit : ogsMaxWorkers * span ≤ 2 ^ 32) (counter : U32) :
    let xid := (xactNextXid worker counter min max).1.toNat
    min.toNat ≤ xid ∧ worker.selfId * span ≤ xid ∧ xid < worker.selfId * span + span := by
  have hLast : worker.selfId * span + span ≤ ogsMaxWorkers * span := by
    rw [← Nat.succ_mul]
    exact Nat.mul_le_mul_right span worker.selfId.isLt
  have hBase : (BitVec.ofNat 32 worker.selfId * ((max - min + 1) >>> ogsWorkerIdBits)).toNat =
    worker.selfId * span := by
    have hId : (worker.selfId : Nat) < 16 := worker.selfId.isLt
    have hWord : (worker.selfId : Nat) % 2 ^ 32 = worker.selfId := Nat.mod_eq_of_lt (by omega)
    rw [BitVec.toNat_mul, BitVec.toNat_ofNat, hSpan, hWord]
    apply Nat.mod_eq_of_lt
    omega
  have hNext : ((counter + 1) % ((max - min + 1) >>> ogsWorkerIdBits)).toNat < span := by
    rw [BitVec.toNat_umod, hSpan]
    exact Nat.mod_lt _ (by omega)
  generalize hSpanWord : (max - min + 1) >>> ogsWorkerIdBits = word at hBase hNext
  generalize hBaseWord : BitVec.ofNat 32 worker.selfId * word = base at hBase
  generalize hNextWord : (counter + 1) % word = next at hNext
  simp only [xactNextXid, hActive, ↓reduceIte, hSpanWord, hBaseWord, hNextWord]
  have hSum : (base + next).toNat = base.toNat + next.toNat := by exact Nat.mod_eq_of_lt (by omega)
  by_cases hBelow : base + next < min
  · -- Only the window of shard 0 starts below the minimum.
    rw [if_pos hBelow]
    rw [BitVec.lt_def] at hBelow
    have hMinSum : base + (min - base) = min := by rw [BitVec.add_comm, BitVec.sub_add_cancel]
    rw [hMinSum]
    omega
  · rw [if_neg hBelow]
    rw [BitVec.lt_def] at hBelow
    omega

/- The window of a shard in the GTPv1 identifiers. -/
theorem gtp1_window (hActive : worker.shardsActive = true) (counter : U32) :
    let xid := (xactNextXid worker counter
      ogsGtp1MinXactId ogsGtp1MaxXactId).1.toNat
    worker.selfId * 2 ^ 12 ≤ xid ∧ xid < worker.selfId * 2 ^ 12 + 2 ^ 12 := by
  intro xid
  have hWindow := xactNextXid_window ogsGtp1MinXactId ogsGtp1MaxXactId
    (2 ^ 12) hActive rfl (by decide) (by decide) counter
  exact hWindow.2

/- The window of a shard in the GTPv2 identifiers. -/
theorem gtp2_window (hActive : worker.shardsActive = true) (counter : U32) :
    let xid := (xactNextXid worker counter
      ogsGtpMinXactId ogsGtpCmdXactId).1.toNat
    1 ≤ xid ∧ worker.selfId * 2 ^ 19 ≤ xid ∧ xid < worker.selfId * 2 ^ 19 + 2 ^ 19 := by
  intro xid
  exact xactNextXid_window ogsGtpMinXactId ogsGtpCmdXactId
    (2 ^ 19) hActive rfl (by decide) (by decide) counter

---- Ranges ----

/-
  The identifiers that the two protocols reserve for their requests; those of GTPv2 commands are not
  restricted.
-/
def XidInRange (version : Version) (type : Nat) (xid : U32) : Prop :=
  match version with
  | .gtp1 => xid ≤ ogsGtp1MaxXactId
  | .gtp2 =>
      isGtp2Command type = false → ogsGtpMinXactId ≤ xid ∧ xid < ogsGtpCmdXactId ∧
          isCommandXid xid = false

variable (cfg : Config) (t : Thread)

/- The values of the counter from which a create stays inside the range of its protocol. -/
def Op.XidSafe (op : Op) : Prop :=
  match op with
  | .localCreate1 _ _ _ =>
      0 < t.poolAvail → cfg.worker.shardsActive ∨ t.xactId ≤ 65535 ∨ t.xactId = 0xffffffff
  | .localCreate2 _ hdesc _ =>
      0 < t.poolAvail → cfg.worker.shardsActive ∨ t.xactId < 0x7fffff ∨ t.xactId = 0x800000 ∨
        isGtp2Command hdesc.type
  | _ => True

theorem gtp1NextXid_inRange :
    gtp1NextXid cfg t ≤ ogsGtp1MaxXactId ↔ (cfg.worker.shardsActive ∨
        t.xactId ≤ 65535 ∨ t.xactId = 0xffffffff) := by
  cases hActive : cfg.worker.shardsActive with
  | true =>
    have hWindow := gtp1_window hActive t.xactId
    have hId : (cfg.worker.selfId : Nat) < 16 := cfg.worker.selfId.isLt
    simp only [true_or, iff_true]
    change (gtp1NextXid cfg t).toNat ≤ 65535
    rw [gtp1NextXid]
    omega
  | false =>
    simp only [gtp1NextXid, xactNextXid, hActive,
      Bool.false_eq_true, ↓reduceIte, false_or, ogsNextId]
    by_cases hMax : t.xactId = 65535
    · simp [hMax]
    · rw [if_neg hMax]
      bv_omega

theorem gtp2NextXid_inRange (hPlain : isGtp2Command hdesc.type = false) :
    (ogsGtpMinXactId ≤ gtp2NextXid cfg t hdesc ∧ gtp2NextXid cfg t hdesc < ogsGtpCmdXactId) ↔
      (cfg.worker.shardsActive ∨ t.xactId < 0x7fffff ∨ t.xactId = 0x800000) := by
  have hXid : gtp2NextXid cfg t hdesc = (xactNextXid cfg.worker t.xactId
    ogsGtpMinXactId ogsGtpCmdXactId).1 := by
    simp [gtp2NextXid, gtp2LocalXid, hPlain]
  rw [hXid]
  cases hActive : cfg.worker.shardsActive with
  | true =>
    have hWindow := gtp2_window hActive t.xactId
    have hId : (cfg.worker.selfId : Nat) < 16 := cfg.worker.selfId.isLt
    simp only [true_or, iff_true]
    rw [BitVec.le_def, BitVec.lt_def]
    change 1 ≤ _ ∧ _ < 0x800000
    omega
  | false =>
    simp only [xactNextXid, hActive, Bool.false_eq_true, ↓reduceIte, false_or, ogsNextId]
    by_cases hMax : t.xactId = 0x800000
    · simp [hMax]
    · rw [if_neg hMax]
      bv_omega

/- A create is safe exactly if its identifier is in range. -/
def Op.XidFits (op : Op) : Prop :=
  match op with
  | .localCreate1 _ hdesc _ => 0 < t.poolAvail → XidInRange .gtp1 hdesc.type (gtp1NextXid cfg t)
  | .localCreate2 _ hdesc _ =>
      0 < t.poolAvail → XidInRange .gtp2 hdesc.type (gtp2NextXid cfg t hdesc)
  | _ => True

theorem Op.xidSafe_iff (op : Op) : op.XidSafe cfg t ↔ op.XidFits cfg t := by
  cases op with
  | localCreate1 n hdesc payload =>
    exact imp_congr_right (fun _ => (gtp1NextXid_inRange cfg t).symm)
  | localCreate2 n hdesc payload =>
    apply imp_congr_right
    intro _
    cases hCommand : isGtp2Command hdesc.type with
    | true => simp [XidInRange, hCommand]
    | false =>
      have hRange := gtp2NextXid_inRange cfg t hCommand
      constructor
      · intro hSafe _
        have hBounds := hRange.mpr (by simpa using hSafe)
        exact ⟨hBounds.1, hBounds.2, isCommandXid_of_lt hBounds.2⟩
      · intro hFits
        have hBounds := hFits hCommand
        simpa using hRange.mp ⟨hBounds.1, hBounds.2.1⟩
  | _ => exact Iff.rfl

---- Identifiers On The Wire ----

/- The first packet carries the identifier of the record. -/
def Xact.OnWire (r : Xact) : Prop := ∃ pkbuf, (r.seq 0).pkbuf = some pkbuf ∧ pkbuf.xid = r.xid

/- The identifier read back from a header of the version. -/
def wireXid (version : Version) (xid : U32) : U32 :=
  match version with
  | .gtp1 => ogsGtp1SqnToXid (ogsGtp1XidToSqn xid)
  | .gtp2 => ogsGtp2SqnToXid (ogsGtp2XidToSqn xid)

/- A local transaction with an identifier in range. -/
structure Xact.Numbered (r : Xact) : Prop where
  valid : r.Valid
  range : r.org = .localOrg → XidInRange r.gtpVersion (r.seq 0).type r.xid
  packet : r.org = .localOrg → ∃ pkbuf, (r.seq 0).pkbuf = some pkbuf ∧
        pkbuf.xid = wireXid r.gtpVersion r.xid

theorem Xact.Numbered.step {r r' : Xact} (hNumbered : r.Numbered) (hStep : r.Step r') :
    r'.Numbered where
  valid := hNumbered.valid.step hStep
  range := by
    rw [hNumbered.valid.step_first hStep, hStep.same.org, hStep.same.gtpVersion, hStep.same.xid]
    exact hNumbered.range
  packet := by
    rw [hNumbered.valid.step_first hStep, hStep.same.org, hStep.same.gtpVersion, hStep.same.xid]
    exact hNumbered.packet

/- What a safe create leaves behind is in range. -/
theorem Op.XidSafe.numbered {cfg : Config} {t : Thread} {op : Op} (hSafe : op.XidSafe cfg t)
    (hCreates : op.Creates cfg t r) (hPool : r.org = .localOrg → 0 < t.poolAvail)
    (hValid : r.Valid) : r.Numbered := by
  have hFits := (Op.xidSafe_iff cfg t op).mp hSafe
  have hRemote : r.org = .remoteOrg → r.Numbered := by
    intro hOrg
    have hNot : r.org ≠ .localOrg := by simp [hOrg]
    exact ⟨hValid, fun h => absurd h hNot, fun h => absurd h hNot⟩
  cases op with
  | localCreate1 n hdesc payload =>
    rcases hCreates with ⟨hVersion, -, hXid, -, hFirst⟩
    refine ⟨hValid, ?_, ?_⟩
    · intro hLocal
      rw [hVersion, hXid]
      exact hFits (hPool hLocal)
    · intro _
      rw [hVersion, hFirst]
      exact ⟨_, rfl, buildGtp1_xid⟩
  | localCreate2 n hdesc payload =>
    rcases hCreates with ⟨hVersion, -, hXid, -, hFirst⟩
    refine ⟨hValid, ?_, ?_⟩
    · intro hLocal
      rw [hVersion, hFirst, hXid]
      exact hFits (hPool hLocal)
    · intro _
      rw [hVersion, hFirst]
      exact ⟨_, rfl, buildGtp2_xid⟩
  | receive1 n h => exact hRemote hCreates.2.1
  | receive2 n h => exact hRemote hCreates.2.1
  | _ => exact hCreates.elim

theorem numbered_of_reachableBy {cfg : Config} {t : Thread}
    (hReach : (layer cfg).ReachableBy (fun t op => op.XidSafe cfg t) t) : t.All Xact.Numbered := by
  refine records_of_reachableBy ?_ ?_ hReach
  · intro r r' hNumbered hStep
    exact hNumbered.step hStep
  · intro t op r hSafe hCreates hPool hValid
    have hNumbered := hSafe.numbered hCreates hPool hValid
    exact ⟨⟨hValid.step_pos, hValid.step_le, hValid.later, hValid.opened, hValid.sqn⟩,
      hNumbered.range, hNumbered.packet⟩

/-
  In every run of safe creates the identifiers are in range and survive the wire, and no other
  create has an identifier in range.
-/
theorem local_xid_in_range {cfg : Config} {t : Thread}
    (hReach : (layer cfg).ReachableBy (fun t op => op.XidSafe cfg t) t) :
    (∀ x r, t.xact x = some r → r.org = .localOrg → (r.gtpVersion = .gtp1 →
        r.xid ≤ ogsGtp1MaxXactId ∧ r.OnWire) ∧ (r.gtpVersion = .gtp2 →
        isGtp2Command (r.seq 0).type = false → ogsGtpMinXactId ≤ r.xid ∧ r.xid < ogsGtpCmdXactId ∧
            isCommandXid r.xid = false ∧ r.OnWire)) ∧
    ∀ op : Op, op.XidSafe cfg t ↔ op.XidFits cfg t := by
  refine ⟨?_, Op.xidSafe_iff cfg t⟩
  intro x r hLive hLocal
  have hNumbered := numbered_of_reachableBy hReach x r hLive
  have hRange := hNumbered.range hLocal
  rcases hNumbered.packet hLocal with ⟨pkbuf, hSome, hXid⟩
  constructor
  · intro hVersion
    rw [hVersion] at hRange hXid
    refine ⟨hRange, pkbuf, hSome, ?_⟩
    rw [hXid]
    exact ogsGtp1SqnToXid_ogsGtp1XidToSqn hRange
  · intro hVersion hPlain
    rw [hVersion] at hRange hXid
    rcases hRange hPlain with ⟨hMin, hMax, hClear⟩
    refine ⟨hMin, hMax, hClear, pkbuf, hSome, ?_⟩
    rw [hXid]
    apply ogsGtp2SqnToXid_ogsGtp2XidToSqn
    have hLt : r.xid.toNat < 0x800000 := hMax
    omega

/-
  A GTPv2 create moves the counter past the GTPv1 maximum, and the next GTPv1 request has sequence
  number 1 on the wire but identifier 65537.
-/
theorem shared_counter_leaves_range :
    ∃ t r, (layer mainThread).Reachable t ∧ t.xact 2 = some r ∧ r.gtpVersion = .gtp1 ∧
      r.org = .localOrg ∧ r.xid = 65537 ∧ ∃ pkbuf, (r.seq 0).pkbuf = some pkbuf ∧
        pkbuf.xid = 1 := by
  obtain ⟨t, hRun, hRecord⟩ : ∃ t, (layer mainThread).run (initial 65535 2 5)
    [ .localCreate2 0 ⟨1, 0⟩ [], .localCreate1 0 ⟨1, 0⟩ [] ] = .ok t ∧
    ∃ r, t.xact 2 = some r ∧ r.gtpVersion = .gtp1 ∧ r.org = .localOrg ∧ r.xid = 65537 ∧
      ∃ pkbuf, (r.seq 0).pkbuf = some pkbuf ∧ pkbuf.xid = 1 :=
    ⟨_, rfl, _, rfl, rfl, rfl, rfl, _, rfl, rfl⟩
  rcases hRecord with ⟨r, hRecord⟩
  exact ⟨t, r, (reachable_initial (by decide)).run hRun, hRecord⟩

/- A GTPv2 and a GTPv1 request from a low counter. -/
theorem local_xid_in_range_requests :
    ∃ t, (layer mainThread).ReachableBy (fun t op => op.XidSafe mainThread t) t ∧
      (∃ r, t.xact 1 = some r ∧ r.xid = 8 ∧ r.OnWire) ∧
      ∃ r, t.xact 2 = some r ∧ r.xid = 9 ∧ r.OnWire := by
  let request : Op := .localCreate2 0 ⟨1, 0⟩ []
  let request' : Op := .localCreate1 0 ⟨1, 0⟩ []
  obtain ⟨u, t, hFirst, hSecond, hRecords⟩ : ∃ u t,
    (layer mainThread).exec (initial 7 2 5) request = .ok u ∧
    (layer mainThread).exec u request' = .ok t ∧ u.xactId = 8 ∧
    ∃ r r', t.xact 1 = some r ∧ t.xact 2 = some r' ∧ r.gtpVersion = .gtp2 ∧ r.org = .localOrg ∧
      (r.seq 0).type = 1 ∧ r.xid = 8 ∧ r'.gtpVersion = .gtp1 ∧ r'.org = .localOrg ∧
      r'.xid = 9 := ⟨_, _, rfl, rfl, rfl, _, _, rfl, rfl, rfl, rfl, rfl, rfl, rfl, rfl, rfl⟩
  rcases hRecords with ⟨hCounter, r, r', hLive, hLive', hVersion, hLocal, hType,
    hXid, hVersion', hLocal', hXid'⟩
  have hReach : (layer mainThread).ReachableBy (fun t op => op.XidSafe mainThread t) t := by
    refine .step (i := request') (.step (i := request) (.init ?_) ?_ hFirst) ?_ hSecond
    · exact ⟨7, 2, 5, by decide, rfl⟩
    · exact fun _ => Or.inr (Or.inl (by decide))
    · intro _
      rw [hCounter]
      exact Or.inr (Or.inl (by decide))
  have hRange := (local_xid_in_range hReach).1
  refine ⟨t, hReach, ⟨r, hLive, hXid, ?_⟩, ⟨r', hLive', hXid', ?_⟩⟩
  · apply And.right
    exact ((hRange 1 r hLive hLocal).2 hVersion (by rw [hType]; rfl)).2.2
  · exact ((hRange 2 r' hLive' hLocal').1 hVersion').2

end Pretty5gs.Gtp
