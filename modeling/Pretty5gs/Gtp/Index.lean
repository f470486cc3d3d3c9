import Pretty5gs.Gtp.Intact

/-
  The transaction index against the lists it stands for.

  Two kinds of local create make an index hit differ from what a scan of the list finds: one that
  runs out of timers, and one that fills the free slot of a key which an older transaction on the
  list still has. Every run without them keeps the index and the lists in agreement.

  Main results: `intact_of_reachableBy`, `index_agrees_with_scan`, `index_disagrees`.
-/

---- Runs That Keep Lists Intact ----

namespace Pretty5gs.Gtp

open Function BitVec Option

/- The slot of a local key is taken, or no local transaction of the node has the key. -/
def Covered (s : Store) (n : Nat) (version : Version) (xid : U32) : Prop :=
  (xactIndexGet s n .localOrg version xid).isSome ∨ ∀ y q, s.xact y = some q → q.gnode = n →
      q.key ≠ xactIndexKey .localOrg version xid

/-
  A local create that takes an id also gets its timers, and if its message opens a transaction, the
  key is covered.
-/
def Op.IndexSafe (cfg : Config) (t : Thread) (op : Op) : Prop :=
  match op with
  | .localCreate1 n hdesc _ =>
      0 < t.poolAvail → (gtp1LocalTimers hdesc).length ≤ t.timerAvail ∧
        (ogsGtp1XactGetStage hdesc.type (gtp1NextXid cfg t) = .initial →
          Covered t.toStore n .gtp1 (gtp1NextXid cfg t))
  | .localCreate2 n hdesc _ =>
      0 < t.poolAvail → 3 ≤ t.timerAvail ∧ (ogsGtp2XactGetStage hdesc.type
            (gtp2NextXid cfg t hdesc) = .initial →
          Covered t.toStore n .gtp2 (gtp2NextXid cfg t hdesc))
  | _ => True

theorem Quiet.intact (hSound : Sound t.toStore) (hIntact : Intact t.toStore) (hQuiet : Quiet t t') :
    Intact t'.toStore := by
  cases hQuiet with
  | frame hStore _ => exact hIntact.reframed hSound hStore
  | update hLive hStep hStore _ _ =>
    rw [hStore]
    exact hIntact.setXact hLive hStep.same
  | delete hLive hStore _ =>
    rw [hStore]
    exact hIntact.unlink hSound hLive

variable {cfg : Config} {t : Thread}

/- A safe operation does not run out of timers. -/
theorem Op.IndexSafe.not_fails {op : Op} (hSafe : op.IndexSafe cfg t) : ¬ op.Fails t n := by
  intro hFails
  cases op with
  | localCreate1 n' hdesc payload =>
    rcases hFails with ⟨-, hPool, hLacking⟩
    have hEnough := (hSafe hPool).1
    omega
  | localCreate2 n' hdesc payload =>
    rcases hFails with ⟨-, hPool, hLacking⟩
    have hEnough := (hSafe hPool).1
    omega
  | _ => exact hFails

/- The key of what a safe operation creates is covered. -/
theorem Op.IndexSafe.covered {op : Op} (hSafe : op.IndexSafe cfg t) (hSound : Sound t.toStore)
    (hPool : r.org = .localOrg → 0 < t.poolAvail) (hCreates : op.Creates cfg t r) (hValid : r.Valid)
    (hFree : r.org = .remoteOrg → (t.gnode r.gnode).xactHash r.key = none) :
    ((t.gnode r.gnode).xactHash r.key).isSome ∨ ∀ y q, t.xact y = some q → q.gnode = r.gnode →
        q.key ≠ r.key := by
  have hRemote : r.org = .remoteOrg → ∀ y q, t.xact y = some q → q.gnode = r.gnode →
    q.key ≠ r.key := by
    intro hOrg y q hq hNode hKey
    -- A remote transaction with the key would own the slot.
    have hSame : q.org = r.org := (xactIndexKey_injective hKey).1
    have hSlot := hSound.remote hq (hSame.trans hOrg)
    rw [hNode, hKey, hFree hOrg] at hSlot
    cases hSlot
  have hOpened := hValid.opened
  cases op with
  | localCreate1 n hdesc payload =>
    rcases hCreates with ⟨hVersion, hOrg, hXid, hNode, hFirst⟩
    rw [hVersion, hFirst] at hOpened
    have hCovered := (hSafe (hPool hOrg)).2 hOpened
    rw [Xact.key, hVersion, hOrg, hXid, hNode]
    exact hCovered
  | localCreate2 n hdesc payload =>
    rcases hCreates with ⟨hVersion, hOrg, hXid, hNode, hFirst⟩
    rw [hVersion, hFirst, hXid] at hOpened
    have hCovered := (hSafe (hPool hOrg)).2 hOpened
    rw [Xact.key, hVersion, hOrg, hXid, hNode]
    exact hCovered
  | receive1 n h => exact Or.inr (hRemote hCreates.2.1)
  | receive2 n h => exact Or.inr (hRemote hCreates.2.1)
  | _ => exact hCreates.elim

/- Runs of safe operations keep every list intact. -/
theorem intact_of_reachableBy
    (hReach : (layer cfg).ReachableBy (fun t op => op.IndexSafe cfg t) t) : Intact t.toStore := by
  refine Faulty.System.ReachableBy.invariant (P := fun t => Intact t.toStore) ?_ ?_ hReach
  · rintro t ⟨counter, poolAvail, timerAvail, -, rfl⟩
    exact intact_empty
  · intro t op t' hPrior hIntact hSafe hExec
    have hSound := sound_of_reachable hPrior.reachable
    cases exec_outcome hSound hExec with
    | quiet hRun =>
      exact (QuietRun.induct (P := fun t => Intact t.toStore) (fun _ _ hSound hIntact hQuiet =>
        hQuiet.intact hSound hIntact)
        hRun hSound hIntact).2
    | created hCreates hPool hValid _ _ hFree hStore _ =>
      rw [hStore]
      exact hIntact.link hSound (hSafe.covered hSound hPool hCreates hValid hFree)
    | failed hFails _ _ => exact absurd hFails hSafe.not_fails

---- A Key That Comes Back ----

/- Reached on shard 0 by safe operations. -/
abbrev SafelyReached (t : Thread) : Prop :=
  (layer shardThread).ReachableBy (fun t op => op.IndexSafe shardThread t) t

/- The counter of shard 0 cycles through 4096 identifiers. -/
theorem shard_xactNextXid (counter : U32) :
    let next := xactNextXid shardThread.worker counter
      ogsGtp1MinXactId ogsGtp1MaxXactId
    next.1 = next.2 ∧
      next.2.toNat = (counter.toNat + 1) % 4096 := by
  have hNext : xactNextXid shardThread.worker counter ogsGtp1MinXactId ogsGtp1MaxXactId =
    ((counter + 1) % 4096, (counter + 1) % 4096) := by
    simp [xactNextXid, shardThread, ogsWorkerIdBits]
  rw [hNext]
  refine ⟨rfl, ?_⟩
  change (counter.toNat + 1) % 2 ^ 32 % 4096 = _
  omega

/- The thread after a GTPv1 create has taken id and xid. -/
def Thread.takeXid1 (cfg : Config) (t : Thread) : Thread :=
  { t with
    toStore := t.toStore.alloc
    poolAvail := t.poolAvail - 1
    xactId := (xactNextXid cfg.worker t.xactId ogsGtp1MinXactId ogsGtp1MaxXactId).2 }

theorem exec_localCreate1 (hPool : 0 < t.poolAvail)
    (hCreate : (setupXact cfg (t.takeXid1 cfg) (t.poolId + 1)
          (Xact.calloc .gtp1 .localOrg (gtp1NextXid cfg t) n) (gtp1LocalTimers hdesc) >>=
        firstTx (fun xact => ogsGtp1XactUpdateTx xact hdesc payload)) = .ok (res, t')) :
    (layer cfg).exec t (.localCreate1 n hdesc payload) = .ok t' := by
  have hCalloc : ogsPoolIdCalloc t = some (t.poolId + 1,
    { t with
      toStore := t.toStore.alloc
      poolAvail := t.poolAvail - 1 }) := if_neg (Nat.ne_of_gt hPool)
  simp only [layer, exec, ogsGtp1XactLocalCreate, hCalloc]
  exact congrArg (Except.map Prod.snd) hCreate

/- A GTPv1 create of an answer is rejected and only advances the counter. -/
theorem advance_one (hReach : SafelyReached t) (hPool : 0 < t.poolAvail) :
    ∃ t', SafelyReached t' ∧ SameRecords t.toStore t'.toStore ∧ t'.poolAvail = t.poolAvail ∧
      t'.xactId.toNat = (t.xactId.toNat + 1) % 4096 := by
  let hdesc : HeaderDesc := ⟨2, 0⟩
  let ready : Thread := { t with timerAvail := 2 }
  have hReady : SafelyReached ready := .step (i := .timers 2) hReach trivial rfl
  have hSound : Sound ready.toStore := sound_of_reachable hReady.reachable
  have hReject : ∀ q : Xact, q.org = .localOrg → q.step = 0 →
    ogsGtp1XactUpdateTx q hdesc [] = .ok (.error, q) := by
    intro q hOrg hStep
    have hGuard : gtp1TxGuard q hdesc.type = .reject := by
      simp [gtp1TxGuard, hOrg, hStep, hdesc, ogsGtp1XactGetStage, gtp1InitialTypes,
        gtp1IntermediateTypes, gtp1FinalTypes]
    simp only [ogsGtp1XactUpdateTx, hGuard]
  rcases localCreate_rejected shardThread
    (gtp1LocalTimers hdesc) (t := ready) (u := ready.takeXid1 shardThread)
    (r := Xact.calloc .gtp1 .localOrg (gtp1NextXid shardThread ready) 0)
    hReject hSound blank_calloc le_rfl rfl with ⟨t', hCreate, hReturned, hCounter⟩
  refine ⟨t', .step (i := .localCreate1 0 hdesc []) hReady ?_
    (exec_localCreate1 hPool hCreate), ?_, ?_, ?_⟩
  · intro _
    refine ⟨le_rfl, ?_⟩
    intro hStage
    cases hStage
  · rcases (localCreate_spec gtp1_txOpens hSound hCreate rfl).2 with
    ⟨-, hFrame⟩ | ⟨-, hLacking, -⟩ | ⟨hRes, -⟩
    · exact hFrame.toSameRecords
    · exact absurd hLacking (Nat.lt_irrefl 2)
    · cases hRes
  · rw [hReturned]
    exact Nat.sub_add_cancel hPool
  · rw [hCounter]
    exact (shard_xactNextXid t.xactId).2

/- Any number of rejected creates, one after the other. -/
theorem advance_many (k : Nat) (hReach : SafelyReached t) (hPool : 0 < t.poolAvail)
    (hCounter : t.xactId.toNat < 4096) :
    ∃ t', SafelyReached t' ∧ SameRecords t.toStore t'.toStore ∧ t'.poolAvail = t.poolAvail ∧
      t'.xactId.toNat = (t.xactId.toNat + k) % 4096 := by
  induction k with
  | zero =>
    refine ⟨t, hReach, ?_, rfl, ?_⟩
    · exact Reframed.refl.toSameRecords
    · exact (Nat.mod_eq_of_lt hCounter).symm
  | succ k ih =>
    rcases ih with ⟨u, hMid, hSame, hSize, hAt⟩
    rcases advance_one hMid (by omega) with ⟨t', hReach', hSame', hSize', hAt'⟩
    refine ⟨t', hReach', hSame.trans hSame', hSize'.trans hSize, ?_⟩
    omega

/- A GTPv1 Echo Request opens a transaction on the next xid. -/
theorem open_echo (hReach : SafelyReached t) (hPool : 0 < t.poolAvail) :
    let ready : Thread := { t with timerAvail := 2 }
    SafelyReached ready ∧ ∃ t' r, (layer shardThread).exec ready
          (.localCreate1 0 ⟨1, 0⟩ []) = .ok t' ∧ t'.poolAvail = t.poolAvail - 1 ∧
        t'.xactId.toNat = (t.xactId.toNat + 1) % 4096 ∧ gtp1NextXid shardThread ready = t'.xactId ∧
        r.key = xactIndexKey .localOrg .gtp1 t'.xactId ∧ r.org = .localOrg ∧ r.gnode = 0 ∧
        t'.toStore = linkXact t.toStore.alloc (t.poolId + 1) r := by
  intro ready
  let hdesc : HeaderDesc := ⟨1, 0⟩
  have hReady : SafelyReached ready := .step (i := .timers 2) hReach trivial rfl
  have hSound : Sound ready.toStore := sound_of_reachable hReady.reachable
  have hAccept : ∀ q : Xact, q.org = .localOrg → q.step = 0 → ∃ q', ogsGtp1XactUpdateTx q hdesc [] =
    .ok (.ok, q') := by
    intro q hOrg hStep
    have hGuard : gtp1TxGuard q hdesc.type = .accept := by
      simp [gtp1TxGuard, hOrg, hStep, hdesc, ogsGtp1XactGetStage, gtp1InitialTypes]
    simp only [ogsGtp1XactUpdateTx, hGuard, Xact.saveTx, Xact.setSeq, hStep]
    exact ⟨_, rfl⟩
  rcases localCreate_opened shardThread
    (gtp1LocalTimers hdesc) (t := ready) (u := ready.takeXid1 shardThread)
    (r := Xact.calloc .gtp1 .localOrg (gtp1NextXid shardThread ready) 0)
    hAccept hSound blank_calloc le_rfl rfl with ⟨t', hCreate, hTaken, hCounter⟩
  have hNext := shard_xactNextXid t.xactId
  rcases (localCreate_spec gtp1_txOpens hSound hCreate rfl).2 with
    ⟨hRes, -⟩ | ⟨hRes, -⟩ | ⟨-, r, -, -, hFields, -, -, hStore⟩
  · cases hRes
  · cases hRes
  rcases hFields with ⟨hVersion, hOrg, hXid, hNode⟩
  have hSame : gtp1NextXid shardThread ready = t'.xactId := by
    rw [hCounter]
    exact hNext.1
  refine ⟨hReady, t', r, exec_localCreate1 hPool hCreate,
    hTaken, ?_, hSame, ?_, hOrg, hNode, hStore⟩
  · rw [hCounter]
    exact hNext.2
  · rw [Xact.key, hVersion, hOrg, hXid, hSame]

/- The key of the GTPv1 transaction 1 created here. -/
def firstKey : Nat := xactIndexKey .localOrg .gtp1 1

/-
  A transaction is opened on a key whose slot is taken, and then the owner of the slot is deleted.
-/
theorem orphaned_key :
    ∃ t b q, SafelyReached t ∧ 0 < t.poolAvail ∧ t.xactId.toNat = 1 ∧
      t.xact b = some q ∧ q.gnode = 0 ∧ q.key = firstKey ∧
      (t.gnode 0).xactHash firstKey = none := by
  have hInit : SafelyReached (initial 0 3 2) := .init ⟨0, 3, 2, by decide, rfl⟩
  obtain ⟨t₁, p, p', pkbuf, hFirst, hLive, hAction, hAssoc, hHash, hNode, hSlot, hSize, hCounter⟩ :
    ∃ t₁ p p' pkbuf, (layer shardThread).exec (initial 0 3 2)
      (.localCreate1 0 ⟨1, 0⟩ []) = .ok t₁ ∧ t₁.xact 1 = some p ∧
      p.commitAction = .ok (.send p' pkbuf) ∧ p'.assocXactId = none ∧ p'.hashKey = firstKey ∧
      p'.gnode = 0 ∧ (t₁.gnode 0).xactHash firstKey = some 1 ∧
      t₁.poolAvail = 2 ∧ t₁.xactId.toNat = 1 :=
    ⟨_, _, _, _, rfl, rfl, rfl, rfl, rfl, rfl, rfl, rfl, rfl⟩
  have hReach₁ : SafelyReached t₁ := by
    refine .step (i := .localCreate1 0 ⟨1, 0⟩ []) hInit ?_ hFirst
    intro _
    refine ⟨le_rfl, fun _ => Or.inr ?_⟩
    intro y q hq
    cases hq
  -- The counter goes once around, up to the first xid.
  rcases advance_many 4095 hReach₁ (by omega) (by omega) with
    ⟨t₂, hReach₂, hSame₂, hSize₂, hCounter₂⟩
  rcases open_echo hReach₂ (by omega) with ⟨hReady, t₃, q, hSecond, hSize₃, hCounter₃, hNext, hKey,
    -, hHome, hStore⟩
  have hXid : t₃.xactId = 1 := eq_of_toNat_eq (by
    rw [hCounter₃, hCounter₂, hCounter]
    rfl)
  have hSlot₂ : (t₂.gnode 0).xactHash firstKey = some 1 := by rw [hSame₂.hash, hSlot]
  have hReach₃ : SafelyReached t₃ := by
    refine .step (i := .localCreate1 0 ⟨1, 0⟩ []) hReady ?_ hSecond
    intro _
    refine ⟨le_rfl, fun _ => Or.inl ?_⟩
    rw [hNext, hXid]
    exact isSome_of_eq_some hSlot₂
  rw [hXid] at hKey
  -- The owner of the slot is deleted: its packet is not sent.
  have hSound₂ := sound_of_reachable hReach₂.reachable
  have hLive₂ : t₂.xact 1 = some p := by rw [hSame₂.xact, hLive]
  have hNe : 1 ≠ t₂.poolId + 1 := by
    have hBound := hSound₂.bound hLive₂
    omega
  have hLive₃ : t₃.xact 1 = some p := by
    rw [hStore, linkXact_xact, update_of_ne hNe]
    exact hLive₂
  let u := (t₃.setXact 1 p').sendto p'.gnode [pkbuf]
  have hUpdated : u.xact 1 = some p' := by simp [u, Thread.setXact, Store.setXact, Thread.sendto]
  obtain ⟨t₄, hDelete, hSize₄, hCounter₄, hStore₄⟩ : ∃ t₄, ogsGtpXactDelete u 1 = .ok t₄ ∧
    t₄.poolAvail = t₃.poolAvail + 1 ∧ t₄.xactId = t₃.xactId ∧
    t₄.toStore = unlinkXact u.toStore 1 p' :=
    ⟨_, delete_unassociated hUpdated hAssoc, rfl, rfl, rfl⟩
  have hCommit : (layer shardThread).exec t₃ (.commit 1 false) = .ok t₄ := by
    simp only [layer, exec, ogsGtpXactCommit, hLive₃, hAction]
    exact congrArg (fun e => Except.map Prod.snd (e >>= fun t => pure (Rv.error, t))) hDelete
  refine ⟨t₄, t₂.poolId + 1, q.keyed, .step (i := .commit 1 false) hReach₃ trivial hCommit,
    by omega, ?_, ?_, ?_, ?_, ?_⟩
  · rw [hCounter₄, hXid]
    rfl
  · rw [hStore₄, unlinkXact_xact, update_of_ne hNe.symm]
    change Function.update t₃.xact 1 _ _ = _
    rw [update_of_ne hNe.symm, hStore, linkXact_xact, update_self]
  · exact hHome
  · exact hKey
  · rw [hStore₄, unlinkXact_hash, hNode, if_pos rfl, hHash]
    have hSlot₃ : (u.gnode 0).xactHash firstKey = some 1 := by
      change (t₃.gnode 0).xactHash firstKey = some 1
      rw [hStore, linkXact_hash, if_pos hHome.symm]
      exact FirstIndex.insert_of_some hSlot₂
    simp [FirstIndex.erase, hSlot₃]

---- The Index And The Scan ----

/- A new transaction with an uncovered key takes the hits. -/
theorem hit_of_uncovered (hSound : Sound s) (hIntact : Intact s) (hNode : r.gnode = n)
    (hKey : r.key = xactIndexKey .localOrg version xid) (hOlder : s.xact b = some q)
    (hOlderNode : q.gnode = n) (hOlderKey : q.key = r.key)
    (hSlot : (s.gnode n).xactHash r.key = none) :
    let s' := linkXact s.alloc (s.poolId + 1) r
    xactIndexGet s' n .localOrg version xid = some (s.poolId + 1) ∧
      scanXid s' n .localOrg version xid ≠ some (s.poolId + 1) := by
  intro s'
  have hLocal : r.org = .localOrg := (xactIndexKey_injective hKey).1
  have hSound' : Sound s' := by
    refine hSound.link ?_
    intro hRemote
    rw [hLocal] at hRemote
    cases hRemote
  rcases hIntact n .localOrg with ⟨nodes, hNodes⟩
  have hListed := hNodes.toListed.link hSound r
  rw [if_pos (by rw [hNode, hLocal])] at hListed
  have hMem : b ∈ nodes := by
    have hOrg : q.org = r.org := (xactIndexKey_injective hOlderKey).1
    rw [hNodes.mem, home_of_xact hOlder, hOlderNode, hOrg, hLocal]
  have hKeyOf : keyOf s' b = xactIndexKey .localOrg version xid := by
    rw [keyOf_linkXact hSound r hOlder, keyOf_of_xact hOlder, hOlderKey, hKey]
  refine ⟨?_, ?_⟩
  · change ((linkXact s.alloc _ r).gnode n).xactHash _ = _
    rw [linkXact_hash, if_pos hNode.symm, ← hKey]
    exact FirstIndex.insert_self hSlot
  · -- The scan stops at the older transaction or before it.
    rw [hListed.scanXid hSound', List.find?_append]
    have hFound : (nodes.find? (fun y => keyOf s' y = xactIndexKey .localOrg version xid)).isSome :=
      List.find?_isSome.mpr ⟨b, hMem, decide_eq_true hKeyOf⟩
    rcases isSome_iff_exists.mp hFound with ⟨z, hz⟩
    rw [hz]
    rcases hNodes.live (List.mem_of_find?_eq_some hz) with ⟨p, hp, -⟩
    have hBound := hSound.bound hp
    intro hEq
    cases hEq
    omega

/-
  In every run of safe operations an index hit is the first transaction that a scan of the list
  finds, and the counters are the lengths of the lists.
-/
theorem index_agrees_with_scan {cfg : Config} {t : Thread}
    (hReach : (layer cfg).ReachableBy (fun t op => op.IndexSafe cfg t) t) :
    (∀ n org version xid x, xactIndexGet t.toStore n org version xid = some x →
        scanXid t.toStore n org version xid = some x) ∧ ∀ n org, ogsGtpXactCount t.toStore n org =
        (xactList t.toStore n org).length := by
  have hSound := sound_of_reachable hReach.reachable
  have hIntact := intact_of_reachableBy hReach
  refine ⟨?_, ?_⟩
  · intro n org version xid x hHit
    rcases hIntact n org with ⟨nodes, hNodes⟩
    rw [hNodes.scanXid hSound]
    exact hNodes.agrees _ x ⟨version, xid, rfl⟩ hHit
  · intro n org
    rcases hIntact n org with ⟨nodes, hNodes⟩
    rw [hNodes.xactList hSound]
    exact hNodes.count

/-
  The index and the list disagree: after the creates failed for want of timers, and after a key was
  reused.
-/
theorem index_disagrees :
    (∃ t, (layer mainThread).Reachable t ∧ xactIndexGet t.toStore 0 .localOrg .gtp2 1 = some 1 ∧
      scanXid t.toStore 0 .localOrg .gtp2 1 = none ∧ ogsGtpXactCount t.toStore 0 .localOrg = 1 ∧
      xactList t.toStore 0 .localOrg = []) ∧ ∃ t x, (layer shardThread).Reachable t ∧
      xactIndexGet t.toStore 0 .localOrg .gtp1 1 = some x ∧
      scanXid t.toStore 0 .localOrg .gtp1 1 ≠ some x := by
  refine ⟨?_, ?_⟩
  · obtain ⟨t, hRun, hHit, hScan, hCount, hList⟩ : ∃ t, (layer mainThread).run (initial 0 3 6)
            (List.replicate 3 (.localCreate2 0 ⟨32, 0⟩ [])) = .ok t ∧
          xactIndexGet t.toStore 0 .localOrg .gtp2 1 = some 1 ∧
          scanXid t.toStore 0 .localOrg .gtp2 1 = none ∧ ogsGtpXactCount t.toStore 0 .localOrg = 1 ∧
          xactList t.toStore 0 .localOrg = [] := ⟨_, rfl, rfl, rfl, rfl, rfl⟩
    exact ⟨t, (reachable_initial (by decide)).run hRun, hHit, hScan, hCount, hList⟩
  · rcases orphaned_key with ⟨t, b, q, hReach, hPool, hCounter, hOlder, hNode, hKey, hSlot⟩
    rcases advance_many 4095 hReach hPool (by omega) with ⟨u, hReach', hSame, hSize, hCounter'⟩
    rcases open_echo hReach' (by omega) with ⟨hReady, v, r, hOpen, -, hCounter'', -, hKey', hLocal,
        hHome, hStore⟩
    have hXid : v.xactId = 1 := eq_of_toNat_eq (by
        rw [hCounter'', hCounter', hCounter]
        rfl)
    rw [hXid] at hKey'
    have hHit := hit_of_uncovered (sound_of_reachable hReach'.reachable)
        (intact_of_reachableBy hReach') hHome hKey'
        (hSame.xact ▸ hOlder) hNode (hKey.trans hKey'.symm) (by rw [hSame.hash, hKey']; exact hSlot)
    rw [← hStore] at hHit
    exact ⟨v, u.poolId + 1, .step (i := .localCreate1 0 ⟨1, 0⟩ [])
        hReady.reachable trivial hOpen, hHit⟩

/- One local and one remote request, found by their keys. -/
theorem index_agrees_with_scan_requests :
    ∃ t : Thread, (xactIndexGet t.toStore 0 .localOrg .gtp2 1 = some 1 ∧
        scanXid t.toStore 0 .localOrg .gtp2 1 = some 1) ∧
      (xactIndexGet t.toStore 0 .remoteOrg .gtp2 1 = some 2 ∧
        scanXid t.toStore 0 .remoteOrg .gtp2 1 = some 2) ∧ ∀ n org,
        ogsGtpXactCount t.toStore n org = (xactList t.toStore n org).length := by
  let request : Op := .localCreate2 0 ⟨32, 0⟩ []
  let arrival : Op := .receive2 0 ⟨2, true, 32, 8, ⟨0⟩, ⟨0x100⟩⟩
  obtain ⟨t, u, hLocal, hRemote, hFirst, hSecond⟩ : ∃ t u,
    (layer mainThread).exec (initial 0 2 6) request = .ok t ∧
    (layer mainThread).exec t arrival = .ok u ∧ xactIndexGet u.toStore 0 .localOrg .gtp2 1 =
      some 1 ∧ xactIndexGet u.toStore 0 .remoteOrg .gtp2 1 = some 2 := ⟨_, _, rfl, rfl, rfl, rfl⟩
  have hReach : (layer mainThread).ReachableBy (fun t op => op.IndexSafe mainThread t) u := by
    refine .step (i := arrival) (.step (i := request) (.init ?_) ?_ hLocal) trivial hRemote
    · exact ⟨0, 2, 6, by decide, rfl⟩
    · intro _
      refine ⟨by decide, fun _ => Or.inr ?_⟩
      intro y q hq
      cases hq
  have hAgree := index_agrees_with_scan hReach
  exact ⟨u, ⟨hFirst, hAgree.1 _ _ _ _ _ hFirst⟩, ⟨hSecond, hAgree.1 _ _ _ _ _ hSecond⟩, hAgree.2⟩

end Pretty5gs.Gtp
