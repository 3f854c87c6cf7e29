import Mathlib.Algebra.Group.Int.Defs
import Mathlib.Tactic.SplitIfs
import Rtl8821au.Lib.Run

/-!
# Leisure and inactive power save

The state of power saving (`rtw_pwrctrl.c`) under watchdog ticks and control requests
(`rtw_cmd.c`), changes of the mode by the user, entries to and exits from inactive power save and
changes of the link.

* `stepOk_iff`: when a step keeps the state in agreement with the firmware.
* `runs_agree_iff`: so for whole runs from the start of the driver.
* `wf_step`: what every step keeps.

`rtl8812au_set_fw_pwrmode_cmd` (`fw.c`, line 920) sends `PS_MODE_MIN` for every mode.
`LPS_RF_ON_check` only waits. `CONFIG_AUTOSUSPEND` and `CONFIG_LPS_RPWM_TIMER` are off.
-/

namespace Rtl8821au.Pwr

open Run

/-! ## State -/

/-- `enum rf_pwrstate`. -/
inductive RfPwrstate where
  | erfOn
  | erfSleep
  | erfOff
  deriving DecidableEq, Repr

/-- `enum Power_Mgnt` (`rtw_pwrctrl.h`, lines 45–59). -/
def psModeActive : ℕ := 0
def psModeMin : ℕ := 1
def psModeMax : ℕ := 2
def psModeDtim : ℕ := 3
def psModeUapsdWmm : ℕ := 5
def pmCardDisable : ℕ := 10
def psModeNum : ℕ := 11

/-- `PS_STATE_S2`, `PS_STATE_S3`, `PS_STATE_S4`. -/
def psStateS2 : UInt8 := 0x02
def psStateS3 : UInt8 := 0x04
def psStateS4 : UInt8 := 0x0c

/-- The link and what else the functions look at: bits of `fw_state`, then flags of the
    driver. -/
structure Link where
  linked : Bool := false
  underSurvey : Bool := false
  ap : Bool := false
  adhocMaster : Bool := false
  adhoc : Bool := false
  inSuspend : Bool := false
  auth8021X : Bool := false
  installGrpkey : Bool := false
  btcoexRfon : Bool := false
  surpriseRemoved : Bool := false
  hwInitCompleted : Bool := true
  driverStopped : Bool := false
  deriving DecidableEq, Repr

/-- The flags of `LinkDetectInfo`. -/
structure LinkDetect where
  busyTraffic : Bool := false
  txBusyTraffic : Bool := false
  rxBusyTraffic : Bool := false
  higherBusyTraffic : Bool := false
  higherBusyRxTraffic : Bool := false
  higherBusyTxTraffic : Bool := false
  deriving DecidableEq, Repr

/-- `struct pwrctrl_priv` with what it is used with: `sentMode` is the mode of the last command
    to the firmware, `regSmartPs` is `registrypriv.smart_ps`, `hz` is `HZ`. -/
structure PwrCtrl where
  hz : ℕ
  regSmartPs : ℕ
  pwrMode : ℕ
  smartPs : ℕ
  bcnAntMode : ℕ
  fwCurrentInpsmode : Bool
  bpowerSaving : Bool
  rfPwrstate : RfPwrstate
  changeRfpwrstate : RfPwrstate
  bipsProcessing : Bool
  bLeisurePs : Bool
  lpsIdleCount : ℕ
  powerMgnt : ℕ
  delayLpsLastTimeStamp : ℕ
  rpwm : UInt8
  cpwm : UInt8
  tog : UInt8
  sentMode : ℕ
  link : Link
  detect : LinkDetect
  deriving DecidableEq, Repr

/-- The switch in `rtl8812au_set_fw_pwrmode_cmd` (lines 925–952): `Mode`, `RLBM` and
    `PowerState`. -/
def pwrmodeParm (psMode : ℕ) : ℕ × ℕ × ℕ :=
  if psMode = psModeMin then (1, 0, 0x00)
  else if psMode = psModeMax then (1, 1, 0x00)
  else if psMode = psModeDtim then (1, 2, 0x00)
  else if psMode = psModeUapsdWmm then (2, 0, 0x00)
  else (0, 0, 0x0c)

/-- The firmware saves power in this mode. -/
def Saves (psMode : ℕ) : Prop := (pwrmodeParm psMode).1 ≠ 0

instance (psMode : ℕ) : Decidable (Saves psMode) := inferInstanceAs (Decidable (_ ≠ _))

/-- `rtw_init_pwrctrl_priv` (`rtw_pwrctrl.c`, lines 471–520) with the module parameters; the rest
    of the structure is zero, and the firmware starts active. -/
def rtwInitPwrctrlPriv (hz : ℕ) (powerMgnt smartPs : UInt8) (link : Link) : PwrCtrl where
  hz := hz
  regSmartPs := smartPs.toNat
  pwrMode := psModeActive
  smartPs := smartPs.toNat
  bcnAntMode := 0
  fwCurrentInpsmode := false
  bpowerSaving := false
  rfPwrstate := .erfOn
  changeRfpwrstate := .erfOn
  bipsProcessing := false
  bLeisurePs := powerMgnt.toNat ≠ psModeActive
  lpsIdleCount := 0
  powerMgnt := powerMgnt.toNat
  delayLpsLastTimeStamp := 0
  rpwm := 0
  cpwm := psStateS4
  tog := 0x80
  sentMode := psModeActive
  link := link
  detect := {}

/-! ## Leisure power save -/

/-- `rtw_set_rpwm` (lines 200–254). -/
def rtwSetRpwm (s : PwrCtrl) (pslv : UInt8) : PwrCtrl :=
  let pslv := pslv &&& 0x0f
  let pslv := if s.link.btcoexRfon ∧ pslv < psStateS4 then psStateS3 else pslv
  if s.rpwm = pslv then s
  else if s.link.surpriseRemoved || !s.link.hwInitCompleted then { s with cpwm := psStateS4 }
  else if s.link.driverStopped ∧ pslv < psStateS2 then s
  else { s with rpwm := pslv, tog := s.tog + 0x80, cpwm := pslv }

/-- `PS_RDY_CHECK` (lines 256–287) at time `now`; `LPS_DELAY_TIME` is `HZ`. -/
def psRdyCheck (s : PwrCtrl) (now : ℕ) : Bool :=
  let deltaTime := ((now : Int) - s.delayLpsLastTimeStamp) % (2 ^ 32 : Int)
  if deltaTime < (s.hz : Int) then false
  else if !s.link.linked || s.link.underSurvey || s.link.ap || s.link.adhocMaster || s.link.adhoc
  then false
  else if s.link.inSuspend then false
  else if s.link.auth8021X && !s.link.installGrpkey then false
  else true

/-- `rtl8812au_set_fw_pwrmode_cmd` (`fw.c`, lines 914–976), by way of `set_hw_reg`: the mode is
    overwritten before the switch. -/
def setFwPwrmodeCmd (s : PwrCtrl) (_psMode : ℕ) : PwrCtrl := { s with sentMode := psModeMin }

/-- `rtw_set_ps_mode` (lines 289–335). -/
def rtwSetPsMode (s : PwrCtrl) (now psMode smartPs bcnAntMode : ℕ) : PwrCtrl :=
  if pmCardDisable < psMode then s
  else if s.pwrMode = psMode ∧
      (psMode = psModeActive ∨ s.smartPs = smartPs ∧ s.bcnAntMode = bcnAntMode) then s
  else if psMode = psModeActive then
    let s := rtwSetRpwm { s with pwrMode := psMode } psStateS4
    { setFwPwrmodeCmd s psMode with fwCurrentInpsmode := false }
  else if psRdyCheck s now then
    let s := { s with fwCurrentInpsmode := true, pwrMode := psMode, smartPs, bcnAntMode }
    rtwSetRpwm (setFwPwrmodeCmd s psMode) psStateS2
  else s

/-- `LPS_Enter` (lines 380–407). -/
def lpsEnter (s : PwrCtrl) (now : ℕ) : PwrCtrl :=
  if !psRdyCheck s now then s
  else if s.bLeisurePs then
    if 2 ≤ s.lpsIdleCount then
      if s.pwrMode = psModeActive then
        rtwSetPsMode { s with bpowerSaving := true } now s.powerMgnt s.regSmartPs 0
      else s
    else { s with lpsIdleCount := s.lpsIdleCount + 1 }
  else s

/-- `LPS_Leave` (lines 410–437). -/
def lpsLeave (s : PwrCtrl) (now : ℕ) : PwrCtrl :=
  let s :=
    if s.bLeisurePs ∧ s.pwrMode ≠ psModeActive then rtwSetPsMode s now psModeActive 0 0 else s
  { s with bpowerSaving := false }

/-- The packets counted since the last tick. -/
structure Traffic where
  numRxOk : ℕ
  numTxOk : ℕ
  numRxUnicastOk : ℕ
  deriving DecidableEq, Repr

/-- `bEnterPS` (`rtw_cmd.c`, lines 1197–1207). -/
def Traffic.enterPs (t : Traffic) : Bool :=
  !(8 < t.numRxUnicastOk + t.numTxOk || 2 < t.numRxUnicastOk)

/-- The flags for the next tick (lines 1170–1194, 1228–1233). -/
def linkDetect (s : PwrCtrl) (t : Traffic) : LinkDetect :=
  if !s.link.linked then {}
  else
    let busyThreshold := if s.detect.busyTraffic then 75 else 100
    let busy := busyThreshold < t.numRxOk || busyThreshold < t.numTxOk
    let higher := 4000 < t.numRxOk || 4000 < t.numTxOk
    let rx := t.numTxOk < t.numRxOk
    { busyTraffic := busy, rxBusyTraffic := busy && rx, txBusyTraffic := busy && !rx
      higherBusyTraffic := higher, higherBusyRxTraffic := higher && rx
      higherBusyTxTraffic := higher && !rx }

/-- `traffic_status_watchdog` (lines 1155–1234). -/
def trafficStatusWatchdog (s : PwrCtrl) (now : ℕ) (t : Traffic) : PwrCtrl :=
  let detect := linkDetect s t
  let s := if s.link.linked ∧ t.enterPs then lpsEnter s now else lpsLeave s now
  { s with detect }

/-- `enum LPS_CTRL_TYPE`, and the values it does not name. -/
inductive LpsCtrl where
  | scan
  | joinbss
  | connect
  | disconnect
  | specialPacket
  | leave
  | other
  deriving DecidableEq, Repr

/-- `lps_ctrl_wk_hdl` (lines 1258–1320). -/
def lpsCtrlWkHdl (s : PwrCtrl) (now : ℕ) (lpsCtrlType : LpsCtrl) : PwrCtrl :=
  if s.link.adhocMaster || s.link.adhoc then s
  else
    match lpsCtrlType with
    | .scan => if s.link.linked then lpsLeave s now else s
    | .joinbss => lpsLeave s now
    | .connect => { s with lpsIdleCount := 0 }
    | .disconnect => lpsLeave s now
    | .specialPacket => lpsLeave { s with delayLpsLastTimeStamp := now } now
    | .leave => lpsLeave s now
    | .other => s

/-- `LeaveAllPowerSaveMode` (`rtw_pwrctrl.c`, lines 443–469). -/
def leaveAllPowerSaveMode (s : PwrCtrl) (now : ℕ) : PwrCtrl :=
  if s.link.linked then lpsCtrlWkHdl s now .leave else s

/-- `rtw_pm_set_lps` (lines 627–647). -/
def rtwPmSetLps (s : PwrCtrl) (now mode : ℕ) : PwrCtrl :=
  if mode < psModeNum ∧ s.powerMgnt ≠ mode then
    let s :=
      if mode = psModeActive then leaveAllPowerSaveMode s now else { s with lpsIdleCount := 2 }
    { s with powerMgnt := mode, bLeisurePs := mode ≠ psModeActive }
  else s

/-! ## Inactive power save -/

/-- `rtw_ips_enter` (lines 29–53) after the request that its caller stores in
    `change_rfpwrstate`. -/
def rtwIpsEnter (s : PwrCtrl) (request : RfPwrstate) : PwrCtrl :=
  let s := { s with changeRfpwrstate := request }
  if s.changeRfpwrstate = .erfOff then
    { s with bpowerSaving := true, rfPwrstate := .erfOff, bipsProcessing := false }
  else { s with bipsProcessing := false }

/-- How far `rtw_ips_pwr_up` comes: `InitializeFirmwareVars8812` clears `fw_current_inpsmode`, and
    `rtl8812au_hw_init` (`hw.c`, lines 2064–2227) can fail before and after that. -/
inductive PwrUp where
  | failsBefore
  | failsAfter
  | succeeds
  deriving DecidableEq, Repr

/-- The loop of `rtw_set_key` calls leaves the last of their results (lines 75–89); there are
    none without WEP. -/
def lastResult (result : Bool) (keys : List Bool) : Bool := keys.foldl (fun _ ok => ok) result

/-- `rtw_ips_leave` (lines 57–101), with its result. -/
def rtwIpsLeave (s : PwrCtrl) (up : PwrUp) (keys : List Bool) : PwrCtrl × Bool :=
  if s.rfPwrstate = .erfOff ∧ !s.bipsProcessing then
    let s := { s with changeRfpwrstate := .erfOn }
    let s := if up = .failsBefore then s else { s with fwCurrentInpsmode := false }
    let s := if up = .succeeds then { s with rfPwrstate := .erfOn } else s
    ({ s with bipsProcessing := false, bpowerSaving := false },
      lastResult (up = .succeeds) keys)
  else (s, true)

/-! ## Steps -/

/-- What happens; `now` is `jiffies`. -/
inductive PwrEvent where
  | watchdog (now : ℕ) (t : Traffic)
  | lpsCtrl (now : ℕ) (lpsCtrlType : LpsCtrl)
  | setLps (now : ℕ) (mode : UInt8)
  | ipsEnter (request : RfPwrstate)
  | ipsLeave (up : PwrUp) (keys : List Bool)
  | setLink (link : Link)
  deriving DecidableEq, Repr

def pwrStep (s : PwrCtrl) : PwrEvent → PwrCtrl
  | .watchdog now t => trafficStatusWatchdog s now t
  | .lpsCtrl now lpsCtrlType => lpsCtrlWkHdl s now lpsCtrlType
  | .setLps now mode => rtwPmSetLps s now mode.toNat
  | .ipsEnter request => rtwIpsEnter s request
  | .ipsLeave up keys => (rtwIpsLeave s up keys).1
  | .setLink link => { s with link }

/-- The state agrees with the firmware. -/
structure Agrees (s : PwrCtrl) : Prop where
  sent : s.pwrMode = s.sentMode
  inpsmode : s.fwCurrentInpsmode = true ↔ s.pwrMode ≠ psModeActive
  saving : s.bpowerSaving = true ↔ s.pwrMode ≠ psModeActive ∨ s.rfPwrstate = .erfOff
  allowed : Saves s.sentMode →
    s.bLeisurePs = true ∧ s.link.ap = false ∧ s.link.adhocMaster = false ∧ s.link.adhoc = false

/-- A failed power-up is reported, and the radio stays off. -/
def FailureReported (s : PwrCtrl) : PwrEvent → Prop
  | .ipsLeave up keys =>
    s.rfPwrstate = .erfOff → s.bipsProcessing = false → up ≠ .succeeds →
      (rtwIpsLeave s up keys).2 = false ∧ (rtwIpsLeave s up keys).1.rfPwrstate = .erfOff ∧
        (rtwIpsLeave s up keys).1.bpowerSaving = true
  | _ => True

/-- What is asked of a step. -/
def StepOk (s : PwrCtrl) (e : PwrEvent) : Prop := Agrees (pwrStep s e) ∧ FailureReported s e

/-! ## When the state stays in agreement -/

/-- What every step keeps. -/
structure Wf (s : PwrCtrl) : Prop where
  leisure : s.bLeisurePs = true ↔ s.powerMgnt ≠ psModeActive
  processing : s.bipsProcessing = false

/-- `LPS_Leave` has nothing to leave, and the radio is not off. -/
def LeaveKeeps (s : PwrCtrl) : Prop := s.pwrMode = psModeActive ∧ s.rfPwrstate ≠ .erfOff

/-- `LPS_Enter` comes to `rtw_set_ps_mode`. -/
def Enters (s : PwrCtrl) (now : ℕ) : Prop :=
  psRdyCheck s now = true ∧ s.bLeisurePs = true ∧ 2 ≤ s.lpsIdleCount ∧ s.pwrMode = psModeActive

/-- The mode to enter is the one that is sent; a mode that is refused is harmless when the radio
    is off. -/
def EnterKeeps (s : PwrCtrl) : Prop :=
  s.powerMgnt = psModeMin ∨ pmCardDisable < s.powerMgnt ∧ s.rfPwrstate = .erfOff

/-- The request calls `LPS_Leave`. -/
def LpsCtrl.leaves (s : PwrCtrl) : LpsCtrl → Bool
  | .scan => s.link.linked
  | .joinbss | .disconnect | .specialPacket | .leave => true
  | .connect | .other => false

/-- The condition on a step. -/
def Meets (s : PwrCtrl) : PwrEvent → Prop
  | .watchdog now t =>
    if s.link.linked ∧ t.enterPs then Enters s now → EnterKeeps s else LeaveKeeps s
  | .lpsCtrl _ lpsCtrlType =>
    s.link.adhocMaster = false → s.link.adhoc = false → lpsCtrlType.leaves s = true → LeaveKeeps s
  | .setLps _ mode =>
    mode.toNat = psModeActive → s.powerMgnt ≠ psModeActive →
      if s.link.linked ∧ !s.link.adhocMaster ∧ !s.link.adhoc then LeaveKeeps s
      else ¬ Saves s.pwrMode
  | .ipsEnter _ => True
  | .ipsLeave up _ => s.rfPwrstate = .erfOff → up = .succeeds ∧ s.pwrMode = psModeActive
  | .setLink link =>
    Saves s.pwrMode → link.ap = false ∧ link.adhocMaster = false ∧ link.adhoc = false

/-- The fields that `Agrees` is about. -/
def core (s : PwrCtrl) : ℕ × ℕ × Bool × Bool × RfPwrstate × Bool × Link :=
  (s.pwrMode, s.sentMode, s.fwCurrentInpsmode, s.bpowerSaving, s.rfPwrstate, s.bLeisurePs, s.link)

section steps

variable {s s' : PwrCtrl} {now : ℕ}

theorem agrees_congr (h : core s = core s') : Agrees s ↔ Agrees s' := by
  simp only [core, Prod.mk.injEq] at h
  obtain ⟨hmode, hsent, hfw, hsaving, hrf, hleisure, hlink⟩ := h
  constructor
  · rintro ⟨h1, h2, h3, h4⟩
    rw [hmode, hsent] at h1
    rw [hfw, hmode] at h2
    rw [hsaving, hmode, hrf] at h3
    rw [hsent, hleisure, hlink] at h4
    exact ⟨h1, h2, h3, h4⟩
  · rintro ⟨h1, h2, h3, h4⟩
    rw [← hmode, ← hsent] at h1
    rw [← hfw, ← hmode] at h2
    rw [← hsaving, ← hmode, ← hrf] at h3
    rw [← hsent, ← hleisure, ← hlink] at h4
    exact ⟨h1, h2, h3, h4⟩

/-- `rtw_set_rpwm` touches nothing but `rpwm`, `cpwm` and `tog`. -/
theorem rtwSetRpwm_eq (s : PwrCtrl) (pslv : UInt8) :
    ∃ rpwm cpwm tog, rtwSetRpwm s pslv = { s with rpwm, cpwm, tog } := by
  unfold rtwSetRpwm
  dsimp only
  split_ifs
  all_goals exact ⟨_, _, _, rfl⟩

theorem rtwSetPsMode_active (now : ℕ) (h : s.pwrMode ≠ psModeActive) :
    ∃ rpwm cpwm tog, rtwSetPsMode s now psModeActive 0 0 =
      { s with
        pwrMode := psModeActive, sentMode := psModeMin, fwCurrentInpsmode := false, rpwm, cpwm
        tog } := by
  obtain ⟨rpwm, cpwm, tog, hrpwm⟩ :=
    rtwSetRpwm_eq { s with pwrMode := psModeActive } psStateS4
  refine ⟨rpwm, cpwm, tog, ?_⟩
  rw [rtwSetPsMode, if_neg (by decide), if_neg fun hc => h hc.1, if_pos rfl]
  dsimp only
  rw [hrpwm]
  rfl

theorem rtwSetPsMode_enter (s : PwrCtrl) {now psMode : ℕ} (smartPs bcnAntMode : ℕ)
    (hpos : psMode ≠ psModeActive) (hle : psMode ≤ pmCardDisable) (hne : s.pwrMode ≠ psMode)
    (hrdy : psRdyCheck s now = true) :
    ∃ rpwm cpwm tog, rtwSetPsMode s now psMode smartPs bcnAntMode =
      { s with
        pwrMode := psMode, sentMode := psModeMin, fwCurrentInpsmode := true, smartPs, bcnAntMode
        rpwm, cpwm, tog } := by
  obtain ⟨rpwm, cpwm, tog, hrpwm⟩ :=
    rtwSetRpwm_eq
      { s with
        pwrMode := psMode, sentMode := psModeMin, fwCurrentInpsmode := true, smartPs, bcnAntMode }
      psStateS2
  refine ⟨rpwm, cpwm, tog, ?_⟩
  rw [rtwSetPsMode, if_neg (Nat.not_lt.mpr hle), if_neg fun hc => hne hc.1, if_neg hpos,
    if_pos hrdy]
  exact hrpwm

theorem psRdyCheck_link (h : psRdyCheck s now = true) :
    s.link.ap = false ∧ s.link.adhocMaster = false ∧ s.link.adhoc = false := by
  unfold psRdyCheck at h
  dsimp only at h
  split_ifs at h with h1 h2 h3 h4
  simp only [Bool.or_eq_true, Bool.not_eq_true', not_or, Bool.not_eq_true] at h2
  exact ⟨h2.1.1.2, h2.1.2, h2.2⟩

/-- Leaving leisure power save sends the wrong mode, and `bpower_saving` is cleared also for a
    radio that is off. -/
theorem lpsLeave_agrees (now : ℕ) (h : Agrees s) : Agrees (lpsLeave s now) ↔ LeaveKeeps s := by
  rw [lpsLeave]
  by_cases hl : s.bLeisurePs = true ∧ s.pwrMode ≠ psModeActive
  · obtain ⟨rpwm, cpwm, tog, heq⟩ := rtwSetPsMode_active now hl.2
    rw [if_pos hl, heq]
    exact iff_of_false (fun ha => absurd (show psModeActive = psModeMin from ha.sent) (by decide))
      fun hk => hl.2 hk.1
  · rw [if_neg hl]
    constructor
    · intro ha
      have hnot : ¬ (s.pwrMode ≠ psModeActive ∨ s.rfPwrstate = .erfOff) := fun hc =>
        Bool.false_ne_true (ha.saving.mpr hc)
      exact ⟨by_contra fun hm => hnot (Or.inl hm), fun hr => hnot (Or.inr hr)⟩
    · rintro ⟨hm, hr⟩
      refine ⟨h.sent, h.inpsmode, ?_, h.allowed⟩
      exact iff_of_false Bool.false_ne_true fun hc => hc.elim (fun hc => hc hm) hr

theorem lpsEnter_agrees (hw : Wf s) (h : Agrees s) :
    Agrees (lpsEnter s now) ↔ (Enters s now → EnterKeeps s) := by
  rw [lpsEnter]
  by_cases hrdy : psRdyCheck s now = true
  · rw [if_neg (by simp [hrdy])]
    by_cases hl : s.bLeisurePs = true
    · rw [if_pos hl]
      by_cases hidle : 2 ≤ s.lpsIdleCount
      · rw [if_pos hidle]
        by_cases hmode : s.pwrMode = psModeActive
        · have henters : Enters s now := ⟨hrdy, hl, hidle, hmode⟩
          have hmgnt : s.powerMgnt ≠ psModeActive := hw.leisure.mp hl
          rw [if_pos hmode, forall_prop_of_true henters, EnterKeeps]
          by_cases hle : s.powerMgnt ≤ pmCardDisable
          · obtain ⟨rpwm, cpwm, tog, heq⟩ :=
              rtwSetPsMode_enter { s with bpowerSaving := true } s.regSmartPs 0 hmgnt hle
                (fun hc => hmgnt (hc.symm.trans hmode)) hrdy
            rw [heq]
            constructor
            · intro ha
              exact Or.inl ha.sent
            · rintro (hmin | ⟨hlt, -⟩)
              · refine ⟨hmin, iff_of_true rfl hmgnt, iff_of_true rfl (Or.inl hmgnt), fun _ => ?_⟩
                exact ⟨hl, psRdyCheck_link hrdy⟩
              · exact absurd hle (Nat.not_le.mpr hlt)
          · rw [rtwSetPsMode, if_pos (Nat.not_le.mp hle)]
            constructor
            · intro ha
              refine Or.inr ⟨Nat.not_le.mp hle, ?_⟩
              exact (ha.saving.mp rfl).elim (fun hc => absurd hmode hc) id
            · rintro (hmin | ⟨-, hrf⟩)
              · exact absurd (hmin ▸ by decide) hle
              · exact ⟨h.sent, h.inpsmode, iff_of_true rfl (Or.inr hrf), h.allowed⟩
        · rw [if_neg hmode]
          exact iff_of_true h fun hc => absurd hc.2.2.2 hmode
      · rw [if_neg hidle]
        exact iff_of_true ⟨h.sent, h.inpsmode, h.saving, h.allowed⟩ fun hc => absurd hc.2.2.1 hidle
    · rw [if_neg hl]
      exact iff_of_true h fun hc => absurd hc.2.1 hl
  · rw [if_pos (by simp [hrdy])]
    exact iff_of_true h fun hc => absurd hc.1 hrdy

/-! ## One step -/

/-- The step leaves agreement for the watchdog when the condition fails, and only then. -/
theorem watchdog_agrees (t : Traffic) (hw : Wf s) (h : Agrees s) :
    Agrees (trafficStatusWatchdog s now t) ↔ Meets s (.watchdog now t) := by
  rw [trafficStatusWatchdog, Meets]
  by_cases henter : s.link.linked = true ∧ t.enterPs = true
  · rw [if_pos henter, if_pos henter, ← lpsEnter_agrees hw h]
    apply agrees_congr
    rfl
  · rw [if_neg henter, if_neg henter, ← lpsLeave_agrees now h]
    apply agrees_congr
    rfl

theorem lpsCtrl_agrees (lpsCtrlType : LpsCtrl) (h : Agrees s) :
    Agrees (lpsCtrlWkHdl s now lpsCtrlType) ↔ Meets s (.lpsCtrl now lpsCtrlType) := by
  unfold lpsCtrlWkHdl
  rw [Meets]
  by_cases hm : s.link.adhocMaster = true
  · rw [if_pos (by simp [hm])]
    exact iff_of_true h fun hc => absurd (hm.symm.trans hc) (by decide)
  · by_cases ha : s.link.adhoc = true
    · rw [if_pos (by simp [ha])]
      exact iff_of_true h fun _ hc => absurd (ha.symm.trans hc) (by decide)
    · rw [Bool.not_eq_true] at hm ha
      rw [if_neg (by simp [hm, ha]), forall_prop_of_true hm, forall_prop_of_true ha]
      cases lpsCtrlType with
      | scan =>
        by_cases hl : s.link.linked = true
        · simp only [hl, LpsCtrl.leaves, if_true, forall_const]
          exact lpsLeave_agrees now h
        · refine iff_of_true ?_ fun hc => absurd hc hl
          show Agrees (if s.link.linked then lpsLeave s now else s)
          rw [if_neg hl]
          exact h
      | connect => exact iff_of_true ⟨h.sent, h.inpsmode, h.saving, h.allowed⟩ nofun
      | other => exact iff_of_true h nofun
      | specialPacket =>
        simp only [LpsCtrl.leaves, forall_const]
        exact lpsLeave_agrees now ⟨h.sent, h.inpsmode, h.saving, h.allowed⟩
      | joinbss | disconnect | leave =>
        simp only [LpsCtrl.leaves, forall_const]
        exact lpsLeave_agrees now h

/-- Leisure power save is switched off with the firmware awake. -/
theorem agrees_leisure_off (mode : ℕ) :
    Agrees { s with powerMgnt := mode, bLeisurePs := false } ↔ Agrees s ∧ ¬ Saves s.sentMode := by
  constructor
  · rintro ⟨h1, h2, h3, h4⟩
    have hnot : ¬ Saves s.sentMode := fun hc => Bool.false_ne_true (h4 hc).1
    exact ⟨⟨h1, h2, h3, fun hc => absurd hc hnot⟩, hnot⟩
  · rintro ⟨h, hnot⟩
    exact ⟨h.sent, h.inpsmode, h.saving, fun hc => absurd hc hnot⟩

theorem not_saves_active : ¬ Saves psModeActive := by decide

theorem leaveAll_agrees (now : ℕ) (h : Agrees s) :
    Agrees (leaveAllPowerSaveMode s now) ∧ ¬ Saves (leaveAllPowerSaveMode s now).sentMode ↔
      if s.link.linked ∧ !s.link.adhocMaster ∧ !s.link.adhoc then LeaveKeeps s
      else ¬ Saves s.pwrMode := by
  by_cases hl : s.link.linked ∧ !s.link.adhocMaster ∧ !s.link.adhoc
  · rw [if_pos hl]
    simp only [Bool.not_eq_true'] at hl
    obtain ⟨hlink, hm, ha⟩ := hl
    have heq : leaveAllPowerSaveMode s now = lpsLeave s now := by
      simp [leaveAllPowerSaveMode, lpsCtrlWkHdl, hlink, hm, ha]
    rw [heq, lpsLeave_agrees now h]
    refine and_iff_left_of_imp fun hk => ?_
    have hsent : (lpsLeave s now).sentMode = s.sentMode := by
      rw [lpsLeave, if_neg fun hc => hc.2 hk.1]
    rw [hsent, ← h.sent, hk.1]
    exact not_saves_active
  · rw [if_neg hl]
    have heq : leaveAllPowerSaveMode s now = s := by
      unfold leaveAllPowerSaveMode lpsCtrlWkHdl
      split_ifs with hlink hadhoc
      · rfl
      · simp_all
      · rfl
    rw [heq, h.sent]
    exact and_iff_right h

theorem setLps_agrees (mode : UInt8) (h : Agrees s) :
    Agrees (rtwPmSetLps s now mode.toNat) ↔ Meets s (.setLps now mode) := by
  rw [rtwPmSetLps, Meets]
  by_cases hmode : mode.toNat = psModeActive
  · rw [forall_prop_of_true hmode]
    by_cases hmgnt : s.powerMgnt = psModeActive
    · rw [if_neg fun hc => hc.2 (hmgnt.trans hmode.symm)]
      exact iff_of_true h fun hc => absurd hmgnt hc
    · rw [forall_prop_of_true hmgnt, ← leaveAll_agrees now h, hmode,
        if_pos ⟨by decide, hmgnt⟩, if_pos rfl]
      exact agrees_leisure_off psModeActive
  · refine iff_of_true ?_ fun hc => absurd hc hmode
    by_cases hset : mode.toNat < psModeNum ∧ s.powerMgnt ≠ mode.toNat
    · rw [if_pos hset, if_neg hmode]
      refine ⟨h.sent, h.inpsmode, h.saving, fun hc => ⟨decide_eq_true hmode, ?_⟩⟩
      exact (h.allowed hc).2
    · rw [if_neg hset]
      exact h

theorem ipsEnter_agrees (request : RfPwrstate) (h : Agrees s) :
    Agrees (rtwIpsEnter s request) := by
  rw [rtwIpsEnter]
  dsimp only
  split_ifs with hoff
  · exact ⟨h.sent, h.inpsmode, iff_of_true rfl (Or.inr rfl), h.allowed⟩
  · exact ⟨h.sent, h.inpsmode, h.saving, h.allowed⟩

theorem ipsLeave_ok (up : PwrUp) (keys : List Bool) (hw : Wf s) (h : Agrees s) :
    StepOk s (.ipsLeave up keys) ↔ Meets s (.ipsLeave up keys) := by
  rw [StepOk, Meets, pwrStep, FailureReported, rtwIpsLeave]
  by_cases hoff : s.rfPwrstate = .erfOff
  · rw [if_pos ⟨hoff, by simp [hw.processing]⟩, forall_prop_of_true hoff, forall_prop_of_true hoff,
      forall_prop_of_true hw.processing]
    by_cases hup : up = .succeeds
    · subst hup
      simp only [if_true]
      constructor
      · rintro ⟨ha, -⟩
        exact ⟨trivial, by_contra fun hm => Bool.false_ne_true (ha.inpsmode.mpr hm)⟩
      · rintro ⟨-, hm⟩
        refine ⟨⟨h.sent, ?_, ?_, h.allowed⟩, fun hc => absurd rfl hc⟩
        · exact iff_of_false Bool.false_ne_true fun hc => hc hm
        · exact iff_of_false Bool.false_ne_true fun hc => hc.elim (fun hc => hc hm) nofun
    · exact iff_of_false (fun hc => Bool.false_ne_true (hc.2 hup).2.2) fun hc => hup hc.1
  · rw [if_neg fun hc => hoff hc.1]
    exact iff_of_true ⟨h, fun hc => absurd hc hoff⟩ fun hc => absurd hc hoff

theorem setLink_agrees (link : Link) (h : Agrees s) :
    Agrees { s with link } ↔ Meets s (.setLink link) := by
  have hsent : s.pwrMode = s.sentMode := h.sent
  constructor
  · intro ha hs
    exact (ha.allowed (hsent ▸ hs)).2
  · intro hm
    exact ⟨h.sent, h.inpsmode, h.saving, fun hs => ⟨(h.allowed hs).1, hm (hsent ▸ hs)⟩⟩

/-- A step is as asked exactly when it meets the condition. -/
theorem stepOk_iff (e : PwrEvent) (hw : Wf s) (h : Agrees s) : StepOk s e ↔ Meets s e := by
  cases e with
  | watchdog now t => exact (and_iff_left trivial).trans (watchdog_agrees t hw h)
  | lpsCtrl now lpsCtrlType => exact (and_iff_left trivial).trans (lpsCtrl_agrees lpsCtrlType h)
  | setLps now mode => exact (and_iff_left trivial).trans (setLps_agrees mode h)
  | ipsEnter request => exact iff_of_true ⟨ipsEnter_agrees request h, trivial⟩ trivial
  | ipsLeave up keys => exact ipsLeave_ok up keys hw h
  | setLink link => exact (and_iff_left trivial).trans (setLink_agrees link h)

/-! ## Runs -/

/-- The fields that `Wf` is about. -/
def frame (s : PwrCtrl) : Bool × ℕ × Bool := (s.bLeisurePs, s.powerMgnt, s.bipsProcessing)

theorem wf_congr (h : frame s = frame s') (hw : Wf s') : Wf s := by
  simp only [frame, Prod.mk.injEq] at h
  obtain ⟨hleisure, hmgnt, hips⟩ := h
  exact ⟨by rw [hleisure, hmgnt]; exact hw.leisure, hips.trans hw.processing⟩

theorem rtwSetPsMode_frame (s : PwrCtrl) (now psMode smartPs bcnAntMode : ℕ) :
    frame (rtwSetPsMode s now psMode smartPs bcnAntMode) = frame s := by
  have hrpwm (s : PwrCtrl) (pslv : UInt8) : frame (rtwSetRpwm s pslv) = frame s := by
    obtain ⟨rpwm, cpwm, tog, heq⟩ := rtwSetRpwm_eq s pslv
    rw [heq]
    rfl
  unfold rtwSetPsMode
  split_ifs
  · rfl
  · rfl
  · exact hrpwm _ _
  · exact hrpwm _ _
  · rfl

theorem lpsEnter_frame (s : PwrCtrl) (now : ℕ) : frame (lpsEnter s now) = frame s := by
  unfold lpsEnter
  split_ifs
  · rfl
  · exact rtwSetPsMode_frame _ _ _ _ _
  · rfl
  · rfl
  · rfl

theorem lpsLeave_frame (s : PwrCtrl) (now : ℕ) : frame (lpsLeave s now) = frame s := by
  unfold lpsLeave
  dsimp only
  split_ifs
  · exact rtwSetPsMode_frame s now psModeActive 0 0
  · rfl

theorem lpsCtrlWkHdl_frame (s : PwrCtrl) (now : ℕ) (lpsCtrlType : LpsCtrl) :
    frame (lpsCtrlWkHdl s now lpsCtrlType) = frame s := by
  unfold lpsCtrlWkHdl
  by_cases hadhoc : (s.link.adhocMaster || s.link.adhoc) = true
  · rw [if_pos hadhoc]
  · rw [if_neg hadhoc]
    cases lpsCtrlType with
    | scan =>
      show frame (if s.link.linked then lpsLeave s now else s) = frame s
      split_ifs
      · exact lpsLeave_frame s now
      · rfl
    | connect | other => rfl
    | specialPacket => exact lpsLeave_frame { s with delayLpsLastTimeStamp := now } now
    | joinbss | disconnect | leave => exact lpsLeave_frame s now

theorem wf_step (e : PwrEvent) (hw : Wf s) : Wf (pwrStep s e) := by
  cases e with
  | watchdog now t =>
    refine wf_congr ?_ hw
    rw [pwrStep, trafficStatusWatchdog]
    split_ifs
    · exact lpsEnter_frame s now
    · exact lpsLeave_frame s now
  | lpsCtrl now lpsCtrlType => exact wf_congr (lpsCtrlWkHdl_frame s now lpsCtrlType) hw
  | setLps now mode =>
    rw [pwrStep, rtwPmSetLps]
    split_ifs with hset hmode
    · refine ⟨by simp, ?_⟩
      have hframe : frame (leaveAllPowerSaveMode s now) = frame s := by
        rw [leaveAllPowerSaveMode]
        split_ifs
        · exact lpsCtrlWkHdl_frame s now .leave
        · rfl
      exact (wf_congr hframe hw).processing
    · exact ⟨by simp, hw.processing⟩
    · exact hw
  | ipsEnter request =>
    rw [pwrStep, rtwIpsEnter]
    dsimp only
    split_ifs
    · exact ⟨hw.leisure, rfl⟩
    · exact ⟨hw.leisure, rfl⟩
  | ipsLeave up keys =>
    rw [pwrStep, rtwIpsLeave]
    dsimp only
    split_ifs
    all_goals exact ⟨hw.leisure, by first | rfl | exact hw.processing⟩
  | setLink link => exact ⟨hw.leisure, hw.processing⟩

end steps

theorem wf_init (hz : ℕ) (powerMgnt smartPs : UInt8) (link : Link) :
    Wf (rtwInitPwrctrlPriv hz powerMgnt smartPs link) :=
  ⟨decide_eq_true_iff, rfl⟩

theorem agrees_init (hz : ℕ) (powerMgnt smartPs : UInt8) (link : Link) :
    Agrees (rtwInitPwrctrlPriv hz powerMgnt smartPs link) where
  sent := rfl
  inpsmode := iff_of_false Bool.false_ne_true fun hc => hc rfl
  saving := iff_of_false Bool.false_ne_true fun hc => hc.elim (fun hc => hc rfl) nofun
  allowed := fun hc => absurd hc not_saves_active

/-- The state agrees with the firmware after each step and each failed power-up is reported,
    exactly in the runs all of whose steps meet the condition. -/
theorem runs_agree_iff (hz : ℕ) (powerMgnt smartPs : UInt8) (link : Link) (es : List PwrEvent) :
    Guarded pwrStep StepOk (rtwInitPwrctrlPriv hz powerMgnt smartPs link) es ↔
      Guarded pwrStep Meets (rtwInitPwrctrlPriv hz powerMgnt smartPs link) es :=
  guarded_congr (fun s e (h : Wf s ∧ Agrees s) => stepOk_iff e h.1 h.2)
    (fun _ e h hok => ⟨wf_step e h.1, hok.1⟩)
    ⟨wf_init hz powerMgnt smartPs link, agrees_init hz powerMgnt smartPs link⟩

/-- The radio is switched off, the power-up fails, the WEP key is set: success is reported and
    `bpower_saving` is cleared with the radio off. -/
theorem failedPowerUp_not_reported :
    ¬ ∀ (hz : ℕ) (powerMgnt smartPs : UInt8) (link : Link) (es : List PwrEvent),
      Guarded pwrStep StepOk (rtwInitPwrctrlPriv hz powerMgnt smartPs link) es := by
  intro hall
  have h := hall 250 1 2 {} [.ipsEnter .erfOff, .ipsLeave .failsBefore [true]]
  have hreported := h.2.1.2 rfl rfl nofun
  exact absurd hreported.1 (by decide)

end Rtl8821au.Pwr
