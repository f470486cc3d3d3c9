import Mathlib.Data.Rat.Defs
import Pretty5gs.Core.Types

/-
  Overload control of the S1AP interface.

  A tick every second derives a level for the whole MME from the lag of its event queue and signals
  each eNB its own level. Times are in microseconds, and a call reads the clock once.
-/

---- Settings ----

namespace Pretty5gs.Mme

/- `OGS_USEC_PER_SEC` -/
abbrev usecPerSec : Int := 1000000

/-
  The settings `mme.overload`, and the queue depth at which `s1ap_io_congest_depth` sees an
  association as congested.
-/
structure OverloadConfig where
  enabled : Bool
  signalEnb : Bool
  enbInitialUeRate : Int
  enbInitialUeBurst : Int
  congestLeaseSec : Int
  lagHighMs : Int
  lagCriticalMs : Int
  globalSustainSec : Int
  trafficReduction : Int
  resendIntervalSec : Int
  recoverySec : Int
  congestDepth : Int
deriving DecidableEq, Repr

/- Overload control is on and every number is a default. -/
def overloadDefaults : OverloadConfig where
  enabled := true
  signalEnb := true
  enbInitialUeRate := 0
  enbInitialUeBurst := 0
  congestLeaseSec := 0
  lagHighMs := 0
  lagCriticalMs := 0
  globalSustainSec := 0
  trafficReduction := 0
  resendIntervalSec := 0
  recoverySec := 0
  congestDepth := 100

/- `cfg_int` -/
def cfgInt (value default : Int) : Int := if value > 0 then value else default

namespace OverloadConfig

variable (config : OverloadConfig)

/- `congest_lease_sec`, in microseconds. -/
def leaseTime : Int := cfgInt config.congestLeaseSec 3 * usecPerSec

/- `recovery_sec`, in microseconds. -/
def recoveryTime : Int := cfgInt config.recoverySec 5 * usecPerSec

/- `resend_interval_sec`, in microseconds. -/
def resendTime : Int := cfgInt config.resendIntervalSec 10 * usecPerSec

/- The sustain interval, in microseconds. -/
def sustainTime : Int := cfgInt config.globalSustainSec 3 * usecPerSec

/- `traffic_reduction` -/
def reduction : Int :=
  let value := cfgInt config.trafficReduction 50
  if value > 99 then 99 else value

theorem cfgInt_pos (value default : Int) (hDefault : 0 < default) : 0 < cfgInt value default := by
  unfold cfgInt
  split <;> omega

theorem leaseTime_pos : 0 < config.leaseTime := by
  have hPos := cfgInt_pos config.congestLeaseSec 3 (by omega)
  unfold leaseTime usecPerSec
  omega

theorem recoveryTime_pos : 0 < config.recoveryTime := by
  have hPos := cfgInt_pos config.recoverySec 5 (by omega)
  unfold recoveryTime usecPerSec
  omega

end OverloadConfig

---- The Level Of The MME ----

/- `lag_level_raw` for a lag in microseconds. -/
def lagLevelRaw (config : OverloadConfig) (lag : Int) : Nat :=
  let high := cfgInt config.lagHighMs 1500
  let critical := cfgInt config.lagCriticalMs 4000
  let critical := if critical < high then high else critical
  if lag ≥ critical * 1000 then 2
  else if lag ≥ high * 1000 then 1
  else 0

/- The statics of `global_level_update`; a time is 0 if unset. -/
structure GlobalLevel where
  globalLevel : Nat
  highSince : Int
  criticalSince : Int
  downSince : Int
deriving DecidableEq, Repr

def GlobalLevel.initial : GlobalLevel where
  globalLevel := 0
  highSince := 0
  criticalSince := 0
  downSince := 0

/- Since when the raw level is at least `bound`. -/
def sinceAfter (now : Int) (raw bound : Nat) (since : Int) : Int :=
  if raw ≥ bound then if since = 0 then now else since
  else 0

variable (config : OverloadConfig)

/- A level that has been there for the sustain interval. -/
def heldSince (now since : Int) : Bool := since != 0 && decide (now - since ≥ config.sustainTime)

/- `target` of `global_level_update`. -/
def targetLevel (now highSince criticalSince : Int) : Nat :=
  if heldSince config now criticalSince then 2
  else if heldSince config now highSince then 1
  else 0

/- `global_level_update` -/
def globalLevelUpdate (lag now : Int) (global : GlobalLevel) : GlobalLevel :=
  let raw := lagLevelRaw config lag
  let highSince := sinceAfter now raw 1 global.highSince
  let criticalSince := sinceAfter now raw 2 global.criticalSince
  let target := targetLevel config now highSince criticalSince
  if target ≥ global.globalLevel then ⟨target, highSince, criticalSince, 0⟩
  else
    let downSince := if global.downSince = 0 then now else global.downSince
    if now - downSince ≥ config.recoveryTime then ⟨target, highSince, criticalSince, 0⟩
    else ⟨global.globalLevel, highSince, criticalSince, downSince⟩

/- `mme_overload_global_level` -/
def overloadGlobalLevel (global : GlobalLevel) : Nat :=
  if !config.enabled then 0 else global.globalLevel

---- The Level Of An eNB ----

/- The two messages that an eNB is sent. -/
inductive OverloadMessage where
  | start (level : Nat) (reduction : Int)
  | stop
deriving DecidableEq, Repr

/-
  `overload` of an eNB without its counters, whether it is through S1 Setup, and the messages sent,
  the last first.
-/
structure EnbOverload where
  s1SetupSuccess : Bool
  tokens : ℚ
  tokensAt : Int
  congestedAt : Int
  congestedDepth : Int
  level : Nat
  hotAt : Int
  signalledLevel : Nat
  signalledAt : Int
  rateShedAt : Int
  sent : List OverloadMessage
deriving DecidableEq

/- An eNB that has just connected. -/
def EnbOverload.initial : EnbOverload where
  s1SetupSuccess := false
  tokens := 0
  tokensAt := 0
  congestedAt := 0
  congestedDepth := 0
  level := 0
  hotAt := 0
  signalledLevel := 0
  signalledAt := 0
  rateShedAt := 0
  sent := []

variable (config : OverloadConfig)

/- `enb_tx_congestion_level` -/
def enbTxCongestionLevel (enb : EnbOverload) (now : Int) : Nat :=
  if enb.congestedAt = 0 then 0
  else if now - enb.congestedAt ≥ config.leaseTime then 0
  else if enb.congestedDepth ≤ 0 then 0
  else if enb.congestedDepth ≥ 2 * config.congestDepth then 2
  else 1

/- What `mme_overload_enb_level` returns. -/
def enbLevel (global : GlobalLevel) (enb : EnbOverload) (now : Int) : Nat :=
  if !config.enabled then 0
  else
    let level := overloadGlobalLevel config global
    let txLevel := enbTxCongestionLevel config enb now
    if txLevel > level then txLevel else level

/- What it leaves in the eNB. -/
def storeLevel (global : GlobalLevel) (now : Int) (enb : EnbOverload) : EnbOverload :=
  if !config.enabled then enb
  else
    let level := enbLevel config global enb now
    { enb with
      level := level
      hotAt := if level > 0 then now else enb.hotAt }

/- `overload_may_signal` -/
def overloadMaySignal (global : GlobalLevel) (enb : EnbOverload) (level : Nat) (now : Int) : Bool :=
  if !config.signalEnb then false
  else if !enb.s1SetupSuccess then false
  else if level = 0 then true
  else if enb.signalledLevel ≠ 0 then true
  else if enbTxCongestionLevel config enb now > 0 then true
  else if enb.rateShedAt ≠ 0 ∧ now - enb.rateShedAt < config.leaseTime then true
  else decide (overloadGlobalLevel config global ≥ 2)

/- A START that the transport takes. -/
def signalStart (level : Nat) (now : Int) (enb : EnbOverload) : EnbOverload :=
  { enb with
    signalledLevel := level
    signalledAt := now
    sent := .start level config.reduction :: enb.sent }

/- A STOP that the transport takes. -/
def signalStop (now : Int) (enb : EnbOverload) : EnbOverload :=
  { enb with
    signalledLevel := 0
    signalledAt := now
    sent := .stop :: enb.sent }

/- `overload_signal_enb`, with the result of sending. -/
def overloadSignalEnb (config : OverloadConfig) (global : GlobalLevel) (level : Nat) (now : Int)
    (sendOk : Bool) (enb : EnbOverload) : EnbOverload :=
  if !overloadMaySignal config global enb level now then enb
  else if level > 0 then
    if enb.signalledLevel = level ∧ now - enb.signalledAt < config.resendTime then enb
    else if sendOk then signalStart config level now enb
    else enb
  else if enb.signalledLevel = 0 then enb
  else if enb.hotAt ≠ 0 ∧ now - enb.hotAt < config.recoveryTime then enb
  else if sendOk then signalStop now enb
  else enb

/- `mme_overload_enb_congested` -/
def overloadEnbCongested (config : OverloadConfig) (global : GlobalLevel) (depth now : Int)
    (sendOk : Bool) (enb : EnbOverload) : EnbOverload :=
  let enb :=
    { enb with
      congestedAt := now
      congestedDepth := depth }
  overloadSignalEnb config global (enbLevel config global enb now)
    now sendOk (storeLevel config global now enb)

---- Admission ----

/- `S1AP_RRC_Establishment_Cause_t` -/
inductive RrcCause where
  | emergency
  | highPriorityAccess
  | mtAccess
  | moSignalling
  | moData
  | delayTolerantAccess
  | moVoiceCall
  | moExceptionData
deriving DecidableEq, Repr

variable (cause : Option RrcCause)

/- `rrc_cause_is_priority`; no cause when it is not present. -/
def rrcCauseIsPriority : Bool := cause == some .emergency || cause == some .highPriorityAccess

/- `rrc_cause_is_mt` -/
def rrcCauseIsMt : Bool := cause == some .mtAccess

/- `rrc_cause_shed` -/
def rrcCauseShed (level : Nat) : Bool :=
  if rrcCauseIsPriority cause then false
  else if rrcCauseIsMt cause then false
  else if level ≥ 2 then true
  else if cause == some .moVoiceCall then false
  else true

variable (config : OverloadConfig)

/- The burst of the token bucket. -/
def burstOf : Int :=
  let burst :=
    if config.enbInitialUeBurst ≤ 0 then config.enbInitialUeRate * 2
    else config.enbInitialUeBurst
  if burst < 20 then 20 else burst

/- The first half of `initial_ue_token_take`. -/
def refillTokens (now : Int) (enb : EnbOverload) : EnbOverload :=
  let burst : ℚ := burstOf config
  if enb.tokensAt = 0 then
    { enb with
      tokens := burst
      tokensAt := now }
  else
    let elapsedSec : ℚ := (now - enb.tokensAt : Int) / usecPerSec
    let tokens := enb.tokens + elapsedSec * config.enbInitialUeRate
    if elapsedSec > 0 then
      { enb with
        tokens := if tokens > burst then burst else tokens
        tokensAt := now }
    else enb

/- `initial_ue_token_take`, with exact fractions. -/
def initialUeTokenTake (now : Int) (enb : EnbOverload) : Bool × EnbOverload :=
  if config.enbInitialUeRate ≤ 0 then (true, enb)
  else
    let enb := refillTokens config now enb
    if enb.tokens < 1 then (false, enb)
    else (true, { enb with tokens := enb.tokens - 1 })

/- `shed_account` without its counters. -/
def shedAccount (now : Int) (enb : EnbOverload) : EnbOverload := { enb with hotAt := now }

variable (config : OverloadConfig) (global : GlobalLevel)

/- The part of `s1ap_admit_initial_ue` for other causes. -/
def admitOrdinary (cause : Option RrcCause)
    (level : Nat) (now : Int) (sendOk : Bool) (enb : EnbOverload) : Bool × EnbOverload :=
  let taken := initialUeTokenTake config now enb
  if !taken.1 then
    let enb := shedAccount now { taken.2 with rateShedAt := now }
    (false, overloadSignalEnb config global (if level > 0 then level else 1) now sendOk enb)
  else if level > 0 ∧ rrcCauseShed cause level = true then (false, shedAccount now taken.2)
  else (true, taken.2)

/- `s1ap_admit_initial_ue` -/
def admitInitialUe (cause : Option RrcCause)
    (now : Int) (sendOk : Bool) (enb : EnbOverload) : Bool × EnbOverload :=
  if !config.enabled then (true, enb)
  else
    let level := enbLevel config global enb now
    let enb := storeLevel config global now enb
    if rrcCauseIsPriority cause then (true, enb)
    else admitOrdinary config global cause level now sendOk enb

---- The Tick ----

/- The loops of `overload_tick`, for one eNB. -/
def tickEnb (now : Int) (sendOk : Bool) (enb : EnbOverload) : EnbOverload :=
  if !config.enabled then
    if enb.signalledLevel = 0 then enb
    else if sendOk then
      { enb with
        signalledLevel := 0
        sent := .stop :: enb.sent }
    else enb
  else
    overloadSignalEnb config global (enbLevel config global enb now) now sendOk
      (storeLevel config global now enb)

/- What `overload_tick` does to the level of the MME. -/
def tickGlobal (config : OverloadConfig) (lag now : Int) (global : GlobalLevel) : GlobalLevel :=
  if !config.enabled then { global with globalLevel := 0 }
  else globalLevelUpdate config lag now global

end Pretty5gs.Mme
