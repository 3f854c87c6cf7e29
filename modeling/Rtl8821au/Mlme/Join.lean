import Rtl8821au.Mlme.ScanTable

/-!
# Joining a network

`rtw_do_join` and `rtw_surveydone_event_callback` choose a network of the scan table, queue a
join command and arm `assoc_timer`; `rtw_joinbss_event_prehandle` takes the result, and
`_rtw_join_timeout_handler` drops whatever is linked. A positive result counts only while
`_FW_UNDER_LINKING` is set. A negative one, like every join command that runs, arms the timer
also under a link.

* `joinStep`: one request, event, command or expiry.
* `joinInv_step`: what every step that meets `JoinOk` keeps.
* `join_sound_of_run`: the bits and the timers along every such run.

The driver is neither stopped nor removed, and the interface is not an access point.
-/

namespace Rtl8821au.Mlme

open Places Run
open Recv (Bytes MacAddr)

/-! ## Data -/

/-- The commands that concern the join, in the queue of `rtw_cmd_thread`. -/
inductive Cmd where
  | siteSurvey
  | joinBss
  | createBss
  | disConnect
  deriving DecidableEq, Repr

/-- How a command is taken: without memory it is not built, and `rtw_cmd_filter` may drop
    it. -/
inductive Enqueue where
  | noMemory
  | dropped
  | queued
  deriving DecidableEq, Repr

/-- What the rest of the driver answers to a request: what becomes of each command, the
    traffic, the counter measures, the security settings, `Privacy` and the WPS element of a
    network, and the network of `rtw_update_registrypriv_dev_network` with the address of
    `rtw_generate_random_ibss`. -/
structure JoinEnv extends MlmeEnv where
  sitesurvey : Enqueue
  joinbss : Enqueue
  createbss : Enqueue
  disassoc : Enqueue
  hwInitCompleted : Bool
  busyTraffic : Bool
  countermeasure : Bool
  encryptionDisabled : Bool
  noEncryption : Bool
  privacy : WlanBssidEx → Bool
  wpsIe : WlanBssidEx → Bool
  devNetwork : WlanBssidEx

/-- `struct mlme_priv`: the scan results, two more bits of `fw_state`, the network that is
    asked for, the timers and the commands. `secBss` is the network of the join command,
    `devNetwork` the one that is created. -/
structure JoinState extends MlmePriv where
  underSurvey : Bool := false
  underWps : Bool := false
  toJoin : Bool := false
  assocByBssid : Bool := false
  assocBssid : MacAddr := Vector.replicate 6 0
  assocSsid : Bytes := List.replicate 32 0
  assocSsidLength : ℕ := 0
  assocTimer : Bool := false
  scanToTimer : Bool := false
  cmdQueue : List Cmd := []
  secBss : WlanBssidEx
  devNetwork : WlanBssidEx

namespace JoinState

/-! ## Model of the C code -/

variable (s : JoinState)

/-- `set_fwstate` and `_clr_fwstate_` of `_FW_UNDER_LINKING`. -/
def setLinking (underLinking : Bool) : JoinState :=
  { s with fwState := { s.fwState with underLinking } }

/-- `fw_state` is assigned. -/
def assignFwState (fwState : FwState) : JoinState :=
  { s with fwState, underSurvey := false, underWps := false }

def enqueue (c : Cmd) : JoinState := { s with cmdQueue := s.cmdQueue ++ [c] }

/-! ### Commands -/

/-- `rtw_sitesurvey_cmd` (`rtw_cmd.c`, lines 440–517). -/
def rtwSitesurveyCmd (env : JoinEnv) : Bool × JoinState :=
  match env.sitesurvey with
  | .noMemory => (false, s)
  | .dropped =>
    (false,
      { s with toMlmePriv := s.rtwFreeNetworkQueue env.toMlmeEnv false, underSurvey := false })
  | .queued =>
    (true,
      { s with
        toMlmePriv := s.rtwFreeNetworkQueue env.toMlmeEnv false
        underSurvey := true
        scanToTimer := true }.enqueue .siteSurvey)

/-- `rtw_createbss_cmd` (lines 542–578). -/
def rtwCreatebssCmd (env : JoinEnv) : Bool × JoinState :=
  if env.createbss = .queued then (true, s.enqueue .createBss) else (false, s)

/-- "for hidden ap to set fw_state here" (lines 651–668). -/
def setMode (mode : InfrastructureMode) : JoinState :=
  if s.fwState.station || s.fwState.adhoc then s
  else
    match mode with
    | .ibss => { s with fwState := { s.fwState with adhoc := true } }
    | .infrastructure => { s with fwState := { s.fwState with station := true } }
    | .apMode | .autoUnknown => s

/-- `rtw_joinbss_cmd` (lines 610–780). -/
def rtwJoinbssCmd (env : JoinEnv) (pnetwork : WlanBssidEx) : Bool × JoinState :=
  if env.joinbss = .noMemory then (false, s)
  else
    let s := s.setMode pnetwork.infrastructureMode
    let s := { s with
      secBss := pnetwork
      assocBssid := if s.assocByBssid then s.assocBssid else pnetwork.macAddress }
    if env.joinbss = .queued then (true, s.enqueue .joinBss) else (false, s)

/-- `rtw_disassoc_cmd` (lines 782–821); no caller here reads its result. -/
def rtwDisassocCmd (env : JoinEnv) : JoinState :=
  if env.disassoc = .queued then s.enqueue .disConnect else s

/-! ### The link -/

/-- `rtw_indicate_connect` (`rtw_mlme.c`, lines 1063–1075). -/
def rtwIndicateConnect : JoinState :=
  { s with toJoin := false, fwState := { s.fwState with linked := true } }

/-- `rtw_indicate_disconnect` (lines 1081–1106). -/
def rtwIndicateDisconnect : JoinState :=
  { s with toMlmePriv := s.toMlmePriv.rtwIndicateDisconnect, underWps := false }

/-- `rtw_free_assoc_resources` (lines 1001–1060). -/
def rtwFreeAssocResources (env : JoinEnv) : JoinState :=
  { s with toMlmePriv := s.toMlmePriv.rtwFreeAssocResources env.toMlmeEnv }

/-! ### The choice of a network -/

/-- `rtw_is_desired_network` (lines 769–803). -/
def rtwIsDesiredNetwork (env : JoinEnv) (pnetwork : WlanBssidEx) : Bool :=
  if s.underWps then env.wpsIe pnetwork
  else
    !(!env.encryptionDisabled && !env.privacy pnetwork) &&
      !(s.fwState.adhoc && pnetwork.infrastructureMode != s.curNetwork.infrastructureMode)

/-- `rtw_check_join_candidate` (lines 1852–1896). -/
def rtwCheckJoinCandidate (env : JoinEnv) (candidate : Option ℕ) (competitor : ℕ) : Option ℕ :=
  let pnetwork := (s.net competitor).network
  if s.assocByBssid && pnetwork.macAddress != s.assocBssid then candidate
  else if s.assocSsidLength ≠ 0 ∧ (pnetwork.ssidLength ≠ s.assocSsidLength ∨
      pnetwork.ssid.take s.assocSsidLength ≠ s.assocSsid.take s.assocSsidLength) then candidate
  else if !s.rtwIsDesiredNetwork env pnetwork then candidate
  else
    match candidate with
    | none => some competitor
    | some c => if (s.net c).network.rssi < pnetwork.rssi then some competitor else some c

/-- `rtw_select_and_join_from_scanned_queue` (lines 1909–1988). It never returns 2: the branch
    that would is compiled out. -/
def rtwSelectAndJoinFromScannedQueue (env : JoinEnv) : Bool × JoinState :=
  match s.scanned.foldl (s.rtwCheckJoinCandidate env) none with
  | none => (false, s)
  | some candidate =>
    let s :=
      if s.fwState.linked then
        (s.rtwDisassocCmd env).rtwIndicateDisconnect.rtwFreeAssocResources env
      else s
    (s.setLinking true).rtwJoinbssCmd env (s.net candidate).network

/-- An IBSS is created (`rtw_ioctl_set.c`, lines 136–157; `rtw_mlme.c`, lines 914–934). -/
def becomeMaster (env : JoinEnv) : Bool × JoinState :=
  let s := s.assignFwState { adhocMaster := true }
  { s with
    devNetwork := { env.devNetwork with
      ssid := s.assocSsid, ssidLength := s.assocSsidLength } }.rtwCreatebssCmd env

/-- The survey that `rtw_do_join` falls back to (lines 108–119, 182–193). -/
def surveyFirst (env : JoinEnv) : JoinState :=
  if env.busyTraffic then { s with toJoin := false }
  else
    match s.rtwSitesurveyCmd env with
    | (true, s) => s
    | (false, s) => { s with toJoin := false }

/-- `rtw_do_join` (`rtw_ioctl_set.c`, lines 79–205). -/
def rtwDoJoin (env : JoinEnv) : JoinState :=
  let s := { s.setLinking true with toJoin := true }
  if s.scanned = [] then (s.setLinking false).surveyFirst env
  else
    match s.rtwSelectAndJoinFromScannedQueue env with
    | (true, s) => { s with toJoin := false, assocTimer := true }
    | (false, s) =>
      if s.fwState.adhoc then
        match s.becomeMaster env with
        | (true, s) => { s with toJoin := false }
        | (false, s) => s
      else (s.setLinking false).surveyFirst env

/-! ### Requests -/

/-- The old network is left (lines 242–253, 318–331, 341–353). -/
def leave (env : JoinEnv) : JoinState :=
  let s := s.rtwDisassocCmd env
  let s := if s.fwState.linked then s.rtwIndicateDisconnect else s
  let s := s.rtwFreeAssocResources env
  if s.fwState.adhocMaster then
    { s with fwState := { s.fwState with adhocMaster := false, adhoc := true } }
  else s

/-- After the counter measures: a survey that is under way ends with the join (lines
    257–270, 357–377). -/
def joinOrWait (env : JoinEnv) : JoinState :=
  if s.underSurvey then { s with toJoin := true } else s.rtwDoJoin env

/-- `rtw_set_802_11_bssid` from `handle_tkip_countermeasure` on. -/
def joinBssid (env : JoinEnv) (bssid : MacAddr) : JoinState :=
  if env.countermeasure then s
  else { s with assocBssid := bssid, assocByBssid := true }.joinOrWait env

/-- `rtw_set_802_11_bssid` (lines 208–280). -/
def rtwSet80211Bssid (env : JoinEnv) (bssid : MacAddr) : JoinState :=
  if bssid = Vector.replicate 6 0 ∨ bssid = Vector.replicate 6 0xff then s
  else if s.underSurvey then s.joinBssid env bssid
  else if s.fwState.underLinking then s
  else if s.fwState.linked || s.fwState.adhocMaster then
    if s.curNetwork.macAddress = bssid then
      if s.fwState.station then s.joinBssid env bssid else s
    else (s.leave env).joinBssid env bssid
  else s.joinBssid env bssid

/-- `rtw_is_same_ibss` (`rtw_mlme.c`, lines 482–499). -/
def rtwIsSameIbss (env : JoinEnv) : Bool := env.noEncryption != env.privacy s.curNetwork

/-- `rtw_set_802_11_ssid` from `handle_tkip_countermeasure` on. -/
def joinSsid (env : JoinEnv) (ssid : Bytes) (ssidLength : ℕ) : JoinState :=
  if env.countermeasure then s
  else
    { s with assocSsid := ssid, assocSsidLength := ssidLength, assocByBssid := false }.joinOrWait
      env

/-- `rtw_set_802_11_ssid` (`rtw_ioctl_set.c`, lines 282–389). -/
def rtwSet80211Ssid (env : JoinEnv) (ssid : Bytes) (ssidLength : ℕ) : JoinState :=
  if !env.hwInitCompleted then s
  else if s.underSurvey then s.joinSsid env ssid ssidLength
  else if s.fwState.underLinking then s
  else if s.fwState.linked || s.fwState.adhocMaster then
    if s.assocSsidLength = ssidLength ∧ s.assocSsid.take ssidLength = ssid.take ssidLength then
      if s.fwState.station then s.joinSsid env ssid ssidLength
      else if s.rtwIsSameIbss env then s
      else (s.leave env).joinSsid env ssid ssidLength
    else (s.leave env).joinSsid env ssid ssidLength
  else s.joinSsid env ssid ssidLength

/-- `rtw_set_802_11_disassociate` (lines 467–489). -/
def rtwSet80211Disassociate (env : JoinEnv) : JoinState :=
  if s.fwState.linked then
    (s.rtwDisassocCmd env).rtwIndicateDisconnect.rtwFreeAssocResources env
  else s

/-! ### Events -/

/-- `rtw_surveydone_event_callback` (`rtw_mlme.c`, lines 866–961). -/
def rtwSurveydoneEventCallback (env : JoinEnv) : JoinState :=
  let s := if s.underSurvey then { s with underSurvey := false, scanToTimer := false } else s
  if !s.toJoin then s
  else if s.fwState.adhoc then
    if s.fwState.linked then s
    else
      match (s.setLinking true).rtwSelectAndJoinFromScannedQueue env with
      | (true, s) => { s with assocTimer := true }
      | (false, s) => { (s.becomeMaster env).2 with toJoin := false }
  else
    match { s.setLinking true with toJoin := false }.rtwSelectAndJoinFromScannedQueue env with
    | (true, s) => { s with assocTimer := true }
    | (false, s) => s.setLinking false

/-- `rtw_joinbss_event_prehandle` (lines 1294–1458). -/
def rtwJoinbssEventPrehandle (env : MlmeEnv) (pnetwork : WlanNetwork) : JoinState :=
  if maxIeSz < pnetwork.network.ieLength then s
  else if pnetwork.joinRes > 0 then
    if s.fwState.underLinking then
      let t := s.markTarget pnetwork.network
      match t.rtwFindNetwork pnetwork.network.macAddress with
      | none => { s with toMlmePriv := t }
      | some target =>
        let s := { s with
          toMlmePriv := t.rtwJoinbssUpdateNetwork target pnetwork.network
          underSurvey := false
          underWps :=
            s.underWps &&
              decide (pnetwork.network.infrastructureMode = InfrastructureMode.infrastructure) }
        if s.fwState.station then
          if env.staFound then { s.rtwIndicateConnect with assocTimer := false } else s
        else { s with assocTimer := false }
    else s
  else { s.setLinking false with assocTimer := true }

/-- `rtw_stadel_event_callback` (lines 1636–1746). -/
def rtwStadelEventCallback (env : JoinEnv) : JoinState :=
  let s' := { s with
    toMlmePriv := s.toMlmePriv.rtwStadelEventCallback env.toMlmeEnv
    underWps := s.underWps && (s.fwState.ap || !s.fwState.station) }
  if !s.fwState.ap && (s.fwState.adhocMaster || s.fwState.adhoc) && env.asocStaCount == 1 then
    { s' with
      devNetwork := { env.devNetwork with
        ssid := s.assocSsid, ssidLength := s.assocSsidLength } }.rtwCreatebssCmd env |>.2
  else s'

/-- `rtw_stassoc_event_callback` for a new station of an IBSS (lines 1573–1631). -/
def connectsIbss (env : MlmeEnv) : Bool :=
  !s.fwState.ap && env.staFound && (s.fwState.adhocMaster || s.fwState.adhoc) &&
    env.asocStaCount == 2

def rtwStassocEventCallback (env : MlmeEnv) : JoinState :=
  { s with
    toMlmePriv := s.toMlmePriv.rtwStassocEventCallback env
    toJoin := s.toJoin && !s.connectsIbss env }

/-! ### Timers -/

/-- `_rtw_join_timeout_handler` (lines 1762–1787), if the timer is armed. -/
def rtwJoinTimeoutHandler : JoinState :=
  if s.assocTimer then
    { s with
      toMlmePriv := s.toMlmePriv.rtwJoinTimeoutHandler
      underWps := false
      assocTimer := false }
  else s

/-- `rtw_scan_timeout_handler` (lines 1793–1807), if the timer is armed. -/
def rtwScanTimeoutHandler : JoinState :=
  if s.scanToTimer then { s with underSurvey := false, scanToTimer := false } else s

/-! ### The command thread -/

/-- `rtw_get_oldest_wlan_network` (lines 535–562). -/
def rtwGetOldestWlanNetwork (env : MlmeEnv) : Option ℕ :=
  s.scanned.foldl
    (fun oldest a => if (s.net a).fixed then oldest else oldestOf env s.net oldest a) none

/-- `start_clnt_join` (`rtw_mlme_ext.c`, lines 4792–4854) for an access point; in an IBSS it
    reports a result. -/
def startClntJoin : JoinState :=
  if s.secBss.capability &&& 1 ≠ 0 then { s with assocTimer := true } else s

/-- `rtw_createbss_cmd_callback` (`rtw_cmd.c`, lines 1653–1752). It disarms the timer whatever
    the result. -/
def rtwCreatebssCmdCallback (env : MlmeEnv) : JoinState :=
  let s := { s with assocTimer := false }
  match s.pool with
  | [] =>
    match s.rtwGetOldestWlanNetwork env with
    | none => s
    | some a =>
      let t := s.setNet a
        { s.net a with
          lastScanned := env.jiffies, network := (s.net a).network.copy s.devNetwork }
      { s with
        toMlmePriv := { t with curNetwork := s.curNetwork.copy s.devNetwork } }.setLinking false
  | a :: _ =>
    let t := s.rtwAllocNetwork env a
    let t := t.setNet a { t.net a with network := (t.net a).network.copy s.devNetwork }
    { s with
      toMlmePriv := { t with curNetwork := s.curNetwork.copy s.devNetwork } }.setLinking false

/-- The first command is run and its callback called (`rtw_cmd_thread`). `H2C_DROPPED` and an
    error are alike. -/
def rtwCmdThread (env : MlmeEnv) (success : Bool) : JoinState :=
  match s.cmdQueue with
  | [] => s
  | c :: rest =>
    let s := { s with cmdQueue := rest }
    match c with
    | .siteSurvey => if success then s else { s with scanToTimer := true }
    | .joinBss => if success then s.startClntJoin else { s with assocTimer := true }
    | .createBss => s.rtwCreatebssCmdCallback env
    | .disConnect => if success then s else { s with fwState := { s.fwState with linked := true } }

end JoinState

/-- What happens to the join: requests, events, expiries and commands. -/
inductive JoinEvent where
  | setBssid (bssid : MacAddr)
  | setSsid (ssid : Bytes) (ssidLength : ℕ)
  | siteSurvey
  | disassociate
  | survey (target : WlanBssidEx)
  | surveydone
  | joinbss (pnetwork : WlanNetwork)
  | stadel
  | stassoc
  | joinTimeout
  | scanTimeout
  | cmd (success : Bool)
  | wps (underWps : Bool)

def joinStep (s : JoinState) : JoinEnv × JoinEvent → JoinState
  | (env, .setBssid bssid) => s.rtwSet80211Bssid env bssid
  | (env, .setSsid ssid ssidLength) => s.rtwSet80211Ssid env ssid ssidLength
  | (env, .siteSurvey) => (s.rtwSitesurveyCmd env).2
  | (env, .disassociate) => s.rtwSet80211Disassociate env
  | (env, .survey target) =>
    { s with toMlmePriv := s.rtwSurveyEventCallback env.toMlmeEnv target }
  | (env, .surveydone) => s.rtwSurveydoneEventCallback env
  | (env, .joinbss pnetwork) => s.rtwJoinbssEventPrehandle env.toMlmeEnv pnetwork
  | (env, .stadel) => s.rtwStadelEventCallback env
  | (env, .stassoc) => s.rtwStassocEventCallback env.toMlmeEnv
  | (_, .joinTimeout) => s.rtwJoinTimeoutHandler
  | (_, .scanTimeout) => s.rtwScanTimeoutHandler
  | (env, .cmd success) => s.rtwCmdThread env.toMlmeEnv success
  | (_, .wps underWps) => { s with underWps }

/-- The interface is in station or ad-hoc mode. -/
def joinInit (zero : WlanBssidEx) (adhoc : Bool) : JoinState where
  toMlmePriv := { initMlmePriv zero with
    fwState := { station := !adhoc, adhoc }
    curNetwork := { zero with
      infrastructureMode := if adhoc then .ibss else .infrastructure } }
  secBss := zero
  devNetwork := zero

/-! ## The property -/

/-- `_FW_UNDER_LINKING` and `_FW_UNDER_SURVEY` end, and a link is not being joined. -/
structure JoinSound (s : JoinState) : Prop where
  linking : s.fwState.underLinking = true → s.assocTimer = true ∨ .joinBss ∈ s.cmdQueue
  survey : s.underSurvey = true → s.scanToTimer = true ∨ .siteSurvey ∈ s.cmdQueue
  apart : ¬(s.fwState.linked = true ∧ s.fwState.underLinking = true)

/-- `assoc_timer` clears no link. The join that makes a connection disarms it, so under a link
    it is armed for another join, an earlier one or one that failed. -/
def LinkKept (s : JoinState) (ev : JoinEvent) : Prop :=
  ev = .joinTimeout → s.assocTimer = true → s.fwState.linked = false

/-! ## The condition -/

/-- The next command does not arm the timer under a link, the network that is created gets an
    entry of the scan table while one is joined, and a disconnect command that fails finds no
    join. -/
def CmdOk (s : JoinState) (env : MlmeEnv) (success : Bool) : Prop :=
  match s.cmdQueue.head? with
  | some .joinBss => (success = true ∧ s.secBss.capability &&& 1 = 0) ∨ s.fwState.linked = false
  | some .createBss =>
    s.pool = [] → s.rtwGetOldestWlanNetwork env = none → s.fwState.underLinking = false
  | some .disConnect => success = true ∨ s.assocTimer = false
  | some .siteSurvey | none => True

/-- No result of a failed join under a link; a station makes an IBSS a link while no join is
    under way. -/
def JoinOk (s : JoinState) : JoinEnv × JoinEvent → Prop
  | (_, .joinbss pnetwork) =>
    pnetwork.network.ieLength ≤ maxIeSz → pnetwork.joinRes ≤ 0 → s.fwState.linked = false
  | (env, .cmd success) => CmdOk s env.toMlmeEnv success
  | (env, .stassoc) => s.connectsIbss env.toMlmeEnv = true → s.assocTimer = false
  | _ => True

/-- The join sees the scan table as the scan table sees itself. -/
theorem rtwJoinbssEventPrehandle_toMlmePriv (s : JoinState) (env : MlmeEnv)
    (pnetwork : WlanNetwork) :
    (s.rtwJoinbssEventPrehandle env pnetwork).toMlmePriv =
      s.toMlmePriv.rtwJoinbssEventPrehandle env pnetwork := by
  unfold JoinState.rtwJoinbssEventPrehandle MlmePriv.rtwJoinbssEventPrehandle
  by_cases hlong : maxIeSz < pnetwork.network.ieLength
  · rw [if_pos hlong, if_pos hlong]
  rw [if_neg hlong, if_neg hlong]
  by_cases hres : pnetwork.joinRes > 0
  · rw [if_pos hres, if_pos hres]
    by_cases hunder : s.fwState.underLinking = true
    · rw [if_pos hunder, if_pos hunder]
      dsimp only
      cases (s.markTarget pnetwork.network).rtwFindNetwork pnetwork.network.macAddress with
      | none => rfl
      | some target =>
        dsimp only
        generalize (s.markTarget pnetwork.network).rtwJoinbssUpdateNetwork target
          pnetwork.network = t
        by_cases hsta : t.fwState.station = true
        · rw [if_pos hsta]
          by_cases hfound : env.staFound = true
          · rw [if_pos hfound, if_pos (Bool.and_eq_true_iff.mpr ⟨hsta, hfound⟩)]
            rfl
          · rw [if_neg hfound, if_neg fun hc => hfound (Bool.and_eq_true_iff.mp hc).2]
        · rw [if_neg hsta, if_neg fun hc => hsta (Bool.and_eq_true_iff.mp hc).1]
    · rw [if_neg hunder, if_neg hunder]
  · rw [if_neg hres, if_neg hres]
    rfl

/-! ## The scan table leaves `fw_state` -/

section table

variable (s : MlmePriv) (env : MlmeEnv)

theorem foldl_fwState {f : MlmePriv → ℕ → MlmePriv} (l : List ℕ)
    (hf : ∀ t a, (f t a).fwState = t.fwState) : (l.foldl f s).fwState = s.fwState := by
  induction l generalizing s with
  | nil => rfl
  | cons a l ih => exact (ih (f s a)).trans (hf s a)

@[simp] theorem rtwFreeNetworkQueue_fwState (isfreeall : Bool) :
    (s.rtwFreeNetworkQueue env isfreeall).fwState = s.fwState := by
  refine foldl_fwState s s.scanned fun t a => ?_
  rcases rtwFreeNetwork_eq (s := t) env isfreeall a with heq | heq <;> rw [heq]
  rfl

@[simp] theorem freeScanqueue_fwState : s.freeScanqueue.fwState = s.fwState :=
  foldl_fwState s s.scanned fun _ _ => rfl

@[simp] theorem setFixedOf_fwState (addr : MacAddr) (fixed : Bool) :
    (s.setFixedOf addr fixed).fwState = s.fwState := by
  unfold MlmePriv.setFixedOf
  split <;> rfl

@[simp] theorem rtwFreeNetworkNolock_fwState (a : ℕ) :
    (s.rtwFreeNetworkNolock a).fwState = s.fwState := by
  unfold MlmePriv.rtwFreeNetworkNolock
  split_ifs <;> rfl

@[simp] theorem rtwFreeAssocResources_fwState :
    (s.rtwFreeAssocResources env).fwState = s.fwState := by
  unfold MlmePriv.rtwFreeAssocResources
  dsimp only
  split
  · split_ifs <;> simp
  · simp

@[simp] theorem removeCurrent_fwState : s.removeCurrent.fwState = s.fwState := by
  unfold MlmePriv.removeCurrent
  split
  · rw [rtwFreeNetworkNolock_fwState]
    rfl
  · rfl

@[simp] theorem markTarget_fwState (pnetwork : WlanBssidEx) :
    (s.markTarget pnetwork).fwState = s.fwState := by
  unfold MlmePriv.markTarget
  dsimp only
  split_ifs <;> simp

theorem rtwUpdateScannedNetwork_fwState (target : WlanBssidEx) :
    (s.rtwUpdateScannedNetwork env target).fwState = s.fwState := by
  unfold MlmePriv.rtwUpdateScannedNetwork
  split
  · split
    · split <;> rfl
    · rfl
  · rfl

@[simp] theorem rtwSurveyEventCallback_fwState (target : WlanBssidEx) :
    (s.rtwSurveyEventCallback env target).fwState = s.fwState := by
  have hstamp : (s.ibssTimestamp target).fwState = s.fwState := by
    unfold MlmePriv.ibssTimestamp
    split_ifs <;> rfl
  unfold MlmePriv.rtwSurveyEventCallback
  split_ifs
  · rfl
  · split
    · exact hstamp
    · dsimp only
      split_ifs
      · exact hstamp
      · rw [rtwUpdateScannedNetwork_fwState, (updateCurrentNetwork_frame _ _ _).2.2]
        exact hstamp

end table

/-! ## Invariant -/

/-- What every run that meets the condition keeps. -/
structure JoinInv (s : JoinState) : Prop where
  ap : s.fwState.ap = false
  linking : s.fwState.underLinking = true → s.assocTimer = true
  survey : s.underSurvey = true → s.scanToTimer = true
  link : s.fwState.linked = true → s.assocTimer = false

theorem JoinInv.sound {s : JoinState} (h : JoinInv s) : JoinSound s where
  linking hl := .inl (h.linking hl)
  survey hs := .inl (h.survey hs)
  apart := by
    rintro ⟨hlinked, hlinking⟩
    have harmed := h.linking hlinking
    rw [h.link hlinked] at harmed
    cases harmed

theorem JoinInv.linkKept {s : JoinState} (h : JoinInv s) (ev : JoinEvent) : LinkKept s ev := by
  intro _ harmed
  by_contra hlinked
  rw [h.link (Bool.of_not_eq_false hlinked)] at harmed
  cases harmed

/-- No bit of these is set, and no timer is touched. -/
structure Quiet (s s' : JoinState) : Prop where
  ap : s'.fwState.ap = true → s.fwState.ap = true
  linked : s'.fwState.linked = true → s.fwState.linked = true
  linking : s'.fwState.underLinking = true → s.fwState.underLinking = true
  survey : s'.underSurvey = true → s.underSurvey = true
  assocTimer : s'.assocTimer = s.assocTimer
  scanToTimer : s'.scanToTimer = s.scanToTimer

section steps

variable {s s' s'' : JoinState} {env : JoinEnv}

theorem Quiet.refl (s : JoinState) : Quiet s s := ⟨id, id, id, id, rfl, rfl⟩

theorem Quiet.trans (h : Quiet s s') (h' : Quiet s' s'') : Quiet s s'' where
  ap hs := h.ap (h'.ap hs)
  linked hs := h.linked (h'.linked hs)
  linking hs := h.linking (h'.linking hs)
  survey hs := h.survey (h'.survey hs)
  assocTimer := h'.assocTimer.trans h.assocTimer
  scanToTimer := h'.scanToTimer.trans h.scanToTimer

theorem Quiet.not_ap (h : Quiet s s') (hap : s.fwState.ap = false) : s'.fwState.ap = false := by
  by_contra hne
  have hs := h.ap (Bool.of_not_eq_false hne)
  rw [hap] at hs
  cases hs

/-- The bits are as they were. -/
theorem Quiet.of_eq (hfw : s'.fwState = s.fwState) (hsurvey : s'.underSurvey = s.underSurvey)
    (hassoc : s'.assocTimer = s.assocTimer) (hscan : s'.scanToTimer = s.scanToTimer) :
    Quiet s s' where
  ap hs := hfw ▸ hs
  linked hs := hfw ▸ hs
  linking hs := hfw ▸ hs
  survey hs := hsurvey ▸ hs
  assocTimer := hassoc
  scanToTimer := hscan

theorem JoinInv.quiet (h : JoinInv s) (hq : Quiet s s') : JoinInv s' where
  ap := hq.not_ap h.ap
  linking hs := hq.assocTimer ▸ h.linking (hq.linking hs)
  survey hs := hq.scanToTimer ▸ h.survey (hq.survey hs)
  link hs := hq.assocTimer ▸ h.link (hq.linked hs)

/-- A join that was being set up is given up. -/
theorem JoinInv.settle (h : JoinInv s) (hq : Quiet (s.setLinking true) s')
    (hno : s'.fwState.underLinking = false) : JoinInv s' where
  ap := hq.not_ap h.ap
  linking hs := absurd (hno.symm.trans hs) Bool.false_ne_true
  survey hs := hq.scanToTimer ▸ h.survey (hq.survey hs)
  link hs := hq.assocTimer ▸ h.link (hq.linked hs)

/-- A join is set up, and the timer armed. -/
theorem JoinInv.arm (h : JoinInv s) (hq : Quiet (s.setLinking true) s')
    (hlinked : s'.fwState.linked = false) : JoinInv { s' with assocTimer := true } where
  ap := hq.not_ap h.ap
  linking _ := rfl
  survey hs := by
    show s'.scanToTimer = true
    exact hq.scanToTimer ▸ h.survey (hq.survey hs)
  link hs := absurd (hlinked.symm.trans hs) Bool.false_ne_true

/-! ### Commands -/

theorem quiet_enqueue (s : JoinState) (c : Cmd) : Quiet s (s.enqueue c) :=
  .of_eq rfl rfl rfl rfl

theorem quiet_rtwDisassocCmd (s : JoinState) (env : JoinEnv) : Quiet s (s.rtwDisassocCmd env) := by
  unfold JoinState.rtwDisassocCmd
  split_ifs
  · exact quiet_enqueue s _
  · exact .refl s

theorem quiet_rtwCreatebssCmd (s : JoinState) (env : JoinEnv) :
    Quiet s (s.rtwCreatebssCmd env).2 ∧ (s.rtwCreatebssCmd env).2.fwState = s.fwState := by
  unfold JoinState.rtwCreatebssCmd
  split_ifs
  · exact ⟨quiet_enqueue s _, rfl⟩
  · exact ⟨.refl s, rfl⟩

theorem quiet_setMode (s : JoinState) (mode : InfrastructureMode) :
    Quiet s (s.setMode mode) ∧ (s.setMode mode).fwState.linked = s.fwState.linked := by
  unfold JoinState.setMode
  split_ifs
  · exact ⟨.refl s, rfl⟩
  · cases mode <;> exact ⟨⟨id, id, id, id, rfl, rfl⟩, rfl⟩

theorem quiet_rtwJoinbssCmd (s : JoinState) (env : JoinEnv) (pnetwork : WlanBssidEx) :
    Quiet s (s.rtwJoinbssCmd env pnetwork).2 ∧
      (s.rtwJoinbssCmd env pnetwork).2.fwState.linked = s.fwState.linked := by
  obtain ⟨hq, hlinked⟩ := quiet_setMode s pnetwork.infrastructureMode
  unfold JoinState.rtwJoinbssCmd
  split_ifs
  · exact ⟨.refl s, rfl⟩
  · exact ⟨hq.trans (.of_eq rfl rfl rfl rfl), hlinked⟩
  · exact ⟨hq.trans (.of_eq rfl rfl rfl rfl), hlinked⟩

/-- A survey command arms its timer. -/
theorem JoinInv.rtwSitesurveyCmd (h : JoinInv s) (env : JoinEnv) :
    JoinInv (s.rtwSitesurveyCmd env).2 := by
  have hfw := rtwFreeNetworkQueue_fwState s.toMlmePriv env.toMlmeEnv false
  unfold JoinState.rtwSitesurveyCmd
  split
  · exact h
  · refine h.quiet ⟨?_, ?_, ?_, fun hs => ?_, rfl, rfl⟩
    · exact fun hs => hfw ▸ hs
    · exact fun hs => hfw ▸ hs
    · exact fun hs => hfw ▸ hs
    · cases hs
  · exact
      { ap := hfw ▸ h.ap
        linking := fun hs => h.linking (hfw ▸ hs)
        survey := fun _ => rfl
        link := fun hs => h.link (hfw ▸ hs) }

/-! ### The link -/

theorem quiet_rtwIndicateDisconnect (s : JoinState) : Quiet s s.rtwIndicateDisconnect :=
  ⟨id, fun hs => absurd hs Bool.false_ne_true, fun hs => absurd hs Bool.false_ne_true, id, rfl,
    rfl⟩

theorem quiet_rtwFreeAssocResources (s : JoinState) (env : JoinEnv) :
    Quiet s (s.rtwFreeAssocResources env) :=
  .of_eq (rtwFreeAssocResources_fwState s.toMlmePriv env.toMlmeEnv) rfl rfl rfl

/-- The link is taken down. -/
theorem quiet_disconnect (s : JoinState) (env : JoinEnv) :
    Quiet s ((s.rtwDisassocCmd env).rtwIndicateDisconnect.rtwFreeAssocResources env) :=
  ((quiet_rtwDisassocCmd s env).trans (quiet_rtwIndicateDisconnect _)).trans
    (quiet_rtwFreeAssocResources _ env)

theorem quiet_leave (s : JoinState) (env : JoinEnv) : Quiet s (s.leave env) := by
  have hdis := quiet_rtwDisassocCmd s env
  have hlink : Quiet s (if (s.rtwDisassocCmd env).fwState.linked then
      (s.rtwDisassocCmd env).rtwIndicateDisconnect else s.rtwDisassocCmd env) := by
    split_ifs
    · exact hdis.trans (quiet_rtwIndicateDisconnect _)
    · exact hdis
  have hfree := hlink.trans (quiet_rtwFreeAssocResources _ env)
  unfold JoinState.leave
  dsimp only
  split_ifs at hfree ⊢ <;> exact { hfree with }

/-! ### The join -/

/-- What the choice leaves behind: the join is set up without a link, or given up. -/
theorem select_spec (s : JoinState) (env : JoinEnv) :
    Quiet (s.setLinking true) ((s.setLinking true).rtwSelectAndJoinFromScannedQueue env).2 ∧
      (((s.setLinking true).rtwSelectAndJoinFromScannedQueue env).1 = true →
        ((s.setLinking true).rtwSelectAndJoinFromScannedQueue env).2.fwState.linked = false) := by
  generalize hs : s.setLinking true = t
  have hlinking : t.fwState.underLinking = true := by
    rw [← hs]
    rfl
  unfold JoinState.rtwSelectAndJoinFromScannedQueue
  split
  · exact ⟨.refl t, fun hfalse => by cases hfalse⟩
  · rename_i candidate _
    dsimp only
    have hleft : Quiet t (if t.fwState.linked = true then
          (t.rtwDisassocCmd env).rtwIndicateDisconnect.rtwFreeAssocResources env else t) ∧
        (if t.fwState.linked = true then
          (t.rtwDisassocCmd env).rtwIndicateDisconnect.rtwFreeAssocResources env
          else t).fwState.linked = false := by
      split_ifs with hlinked
      · refine ⟨quiet_disconnect t env, ?_⟩
        show (MlmePriv.rtwFreeAssocResources _ env.toMlmeEnv).fwState.linked = false
        rw [rtwFreeAssocResources_fwState]
        rfl
      · exact ⟨.refl t, Bool.of_not_eq_true hlinked⟩
    obtain ⟨hq, hlinked⟩ := hleft
    generalize (if t.fwState.linked = true then
      (t.rtwDisassocCmd env).rtwIndicateDisconnect.rtwFreeAssocResources env else t) = u
      at hq hlinked
    have hset : Quiet t (u.setLinking true) :=
      ⟨hq.ap, hq.linked, fun _ => hlinking, hq.survey, hq.assocTimer, hq.scanToTimer⟩
    obtain ⟨hcmd, hsame⟩ := quiet_rtwJoinbssCmd (u.setLinking true) env (u.net candidate).network
    exact ⟨hset.trans hcmd, fun _ => hsame.trans hlinked⟩

/-- The master of an IBSS neither joins nor is linked. -/
theorem becomeMaster_spec (s : JoinState) (env : JoinEnv) :
    Quiet s (s.becomeMaster env).2 ∧ (s.becomeMaster env).2.fwState.underLinking = false := by
  have hassign : ∀ devNetwork,
      Quiet s { s.assignFwState { adhocMaster := true } with devNetwork := devNetwork } :=
    fun _ => ⟨fun hs => absurd hs Bool.false_ne_true, fun hs => absurd hs Bool.false_ne_true,
      fun hs => absurd hs Bool.false_ne_true, fun hs => absurd hs Bool.false_ne_true, rfl, rfl⟩
  unfold JoinState.becomeMaster
  dsimp only
  obtain ⟨hq, hfw⟩ := quiet_rtwCreatebssCmd
    { s.assignFwState { adhocMaster := true } with
      devNetwork := { env.devNetwork with
        ssid := s.assocSsid, ssidLength := s.assocSsidLength } } env
  exact ⟨(hassign _).trans hq, congrArg FwState.underLinking hfw⟩

theorem quiet_setLinking_false (s : JoinState) : Quiet s (s.setLinking false) :=
  ⟨id, id, fun hs => absurd hs Bool.false_ne_true, id, rfl, rfl⟩

theorem JoinInv.surveyFirst (h : JoinInv s) (env : JoinEnv) : JoinInv (s.surveyFirst env) := by
  have hcmd := h.rtwSitesurveyCmd env
  unfold JoinState.surveyFirst
  split_ifs
  · exact { h with }
  · split
    · rename_i t ht
      rw [ht] at hcmd
      exact hcmd
    · rename_i t ht
      rw [ht] at hcmd
      exact { hcmd with }

theorem JoinInv.rtwDoJoin (h : JoinInv s) (env : JoinEnv) : JoinInv (s.rtwDoJoin env) := by
  have ht : JoinInv { s with toJoin := true } := { h with }
  obtain ⟨hq, hlinked⟩ := select_spec { s with toJoin := true } env
  have hempty : JoinInv ({ s.setLinking true with toJoin := true }.setLinking false) :=
    ht.settle (quiet_setLinking_false _) rfl
  unfold JoinState.rtwDoJoin
  dsimp only
  split_ifs
  · exact hempty.surveyFirst env
  · split
    · rename_i t hsel
      replace hsel : ({ s with toJoin := true }.setLinking true).rtwSelectAndJoinFromScannedQueue
        env = (true, t) := hsel
      rw [hsel] at hq hlinked
      exact { ht.arm hq (hlinked rfl) with }
    · rename_i t hsel
      replace hsel : ({ s with toJoin := true }.setLinking true).rtwSelectAndJoinFromScannedQueue
        env = (false, t) := hsel
      rw [hsel] at hq
      split_ifs
      · obtain ⟨hmaster, hno⟩ := becomeMaster_spec t env
        have hinv := ht.settle (hq.trans hmaster) hno
        split
        · rename_i u hu
          rw [hu] at hinv
          exact { hinv with }
        · rename_i u hu
          rw [hu] at hinv
          exact hinv
      · exact (ht.settle (hq.trans (quiet_setLinking_false t)) rfl).surveyFirst env

theorem JoinInv.joinOrWait (h : JoinInv s) (env : JoinEnv) : JoinInv (s.joinOrWait env) := by
  unfold JoinState.joinOrWait
  split_ifs
  · exact { h with }
  · exact h.rtwDoJoin env

/-! ### Requests -/

theorem JoinInv.joinBssid (h : JoinInv s) (env : JoinEnv) (bssid : MacAddr) :
    JoinInv (s.joinBssid env bssid) := by
  have hset : JoinInv { s with assocBssid := bssid, assocByBssid := true } := { h with }
  unfold JoinState.joinBssid
  split_ifs
  · exact h
  · exact hset.joinOrWait env

theorem JoinInv.rtwSet80211Bssid (h : JoinInv s) (env : JoinEnv) (bssid : MacAddr) :
    JoinInv (s.rtwSet80211Bssid env bssid) := by
  have hjoin := h.joinBssid env bssid
  have hleave := (h.quiet (quiet_leave s env)).joinBssid env bssid
  unfold JoinState.rtwSet80211Bssid
  split_ifs <;> assumption

theorem JoinInv.joinSsid (h : JoinInv s) (env : JoinEnv) (ssid : Bytes) (len : ℕ) :
    JoinInv (s.joinSsid env ssid len) := by
  have hset : JoinInv
      { s with assocSsid := ssid, assocSsidLength := len, assocByBssid := false } := { h with }
  unfold JoinState.joinSsid
  split_ifs
  · exact h
  · exact hset.joinOrWait env

theorem JoinInv.rtwSet80211Ssid (h : JoinInv s) (env : JoinEnv) (ssid : Bytes) (len : ℕ) :
    JoinInv (s.rtwSet80211Ssid env ssid len) := by
  have hjoin := h.joinSsid env ssid len
  have hleave := (h.quiet (quiet_leave s env)).joinSsid env ssid len
  unfold JoinState.rtwSet80211Ssid
  split_ifs <;> assumption

theorem JoinInv.rtwSet80211Disassociate (h : JoinInv s) (env : JoinEnv) :
    JoinInv (s.rtwSet80211Disassociate env) := by
  unfold JoinState.rtwSet80211Disassociate
  split_ifs
  · exact h.quiet (quiet_disconnect s env)
  · exact h

/-! ### Events -/

theorem JoinInv.rtwSurveydoneEventCallback (h : JoinInv s) (env : JoinEnv) :
    JoinInv (s.rtwSurveydoneEventCallback env) := by
  have hdone : JoinInv
      (if s.underSurvey then { s with underSurvey := false, scanToTimer := false } else s) := by
    split_ifs
    · exact { h with survey := fun hs => absurd hs Bool.false_ne_true }
    · exact h
  unfold JoinState.rtwSurveydoneEventCallback
  dsimp only
  generalize (if s.underSurvey then { s with underSurvey := false, scanToTimer := false } else s)
    = t at hdone
  split_ifs
  · exact hdone
  · exact hdone
  · obtain ⟨hq, hlinked⟩ := select_spec t env
    split
    · rename_i u hu
      rw [hu] at hq hlinked
      exact hdone.arm hq (hlinked rfl)
    · rename_i u hu
      rw [hu] at hq
      obtain ⟨hmaster, hno⟩ := becomeMaster_spec u env
      exact { hdone.settle (hq.trans hmaster) hno with }
  · have ht : JoinInv { t with toJoin := false } := { hdone with }
    obtain ⟨hq, hlinked⟩ := select_spec { t with toJoin := false } env
    split
    · rename_i u hu
      replace hu : ({ t with toJoin := false }.setLinking true).rtwSelectAndJoinFromScannedQueue
        env = (true, u) := hu
      rw [hu] at hq hlinked
      exact ht.arm hq (hlinked rfl)
    · rename_i u hu
      replace hu : ({ t with toJoin := false }.setLinking true).rtwSelectAndJoinFromScannedQueue
        env = (false, u) := hu
      rw [hu] at hq
      exact ht.settle (hq.trans (quiet_setLinking_false u)) rfl

/-- `fw_state` is that of the mode of the network. -/
theorem rtwJoinbssUpdateNetwork_fwState (t : MlmePriv) (a : ℕ) (pnetwork : WlanBssidEx) :
    (t.rtwJoinbssUpdateNetwork a pnetwork).fwState.ap = false ∧
      (t.rtwJoinbssUpdateNetwork a pnetwork).fwState.linked = false ∧
      (t.rtwJoinbssUpdateNetwork a pnetwork).fwState.underLinking = false := by
  unfold MlmePriv.rtwJoinbssUpdateNetwork
  dsimp only
  cases pnetwork.infrastructureMode <;> exact ⟨rfl, rfl, rfl⟩

theorem JoinInv.rtwJoinbssEventPrehandle (h : JoinInv s) (env : MlmeEnv) {pnetwork : WlanNetwork}
    (hok : pnetwork.network.ieLength ≤ maxIeSz → pnetwork.joinRes ≤ 0 →
      s.fwState.linked = false) : JoinInv (s.rtwJoinbssEventPrehandle env pnetwork) := by
  unfold JoinState.rtwJoinbssEventPrehandle
  by_cases hlong : maxIeSz < pnetwork.network.ieLength
  · rw [if_pos hlong]
    exact h
  rw [if_neg hlong]
  by_cases hres : pnetwork.joinRes > 0
  · rw [if_pos hres]
    by_cases hunder : s.fwState.underLinking = true
    · rw [if_pos hunder]
      dsimp only
      split
      · exact h.quiet (.of_eq (markTarget_fwState _ _) rfl rfl rfl)
      · rename_i target _
        obtain ⟨hap, hlinked, hlinking⟩ := rtwJoinbssUpdateNetwork_fwState
          (s.markTarget pnetwork.network) target pnetwork.network
        generalize (s.markTarget pnetwork.network).rtwJoinbssUpdateNetwork target pnetwork.network
          = t at hap hlinked hlinking
        have hidle : ∀ {p : Prop}, t.fwState.underLinking = true → p :=
          fun hs => absurd (hlinking.symm.trans hs) Bool.false_ne_true
        split_ifs
        · exact ⟨hap, hidle, fun hs => absurd hs Bool.false_ne_true, fun _ => rfl⟩
        · exact ⟨hap, hidle, fun hs => absurd hs Bool.false_ne_true,
            fun hs => absurd (hlinked.symm.trans hs) Bool.false_ne_true⟩
        · exact ⟨hap, hidle, fun hs => absurd hs Bool.false_ne_true, fun _ => rfl⟩
    · rw [if_neg hunder]
      exact h
  · rw [if_neg hres]
    have hlinked := hok (Nat.le_of_not_lt hlong) (Int.not_lt.mp hres)
    exact
      { ap := h.ap
        linking := fun _ => rfl
        survey := h.survey
        link := fun hs => absurd (hlinked.symm.trans hs) Bool.false_ne_true }

/-- No bit of these is set when a station leaves. -/
theorem rtwStadelEventCallback_fwState (t : MlmePriv) (env : MlmeEnv) :
    ((t.rtwStadelEventCallback env).fwState.ap = true → t.fwState.ap = true) ∧
      ((t.rtwStadelEventCallback env).fwState.linked = true → t.fwState.linked = true) ∧
      ((t.rtwStadelEventCallback env).fwState.underLinking = true →
        t.fwState.underLinking = true) := by
  have hdis : (t.rtwFreeAssocResources env).rtwIndicateDisconnect.fwState =
      { t.fwState with underLinking := false, linked := false } := by
    show { (t.rtwFreeAssocResources env).fwState with underLinking := false, linked := false } = _
    rw [rtwFreeAssocResources_fwState]
  unfold MlmePriv.rtwStadelEventCallback
  dsimp only
  split_ifs <;> simp [hdis]

theorem JoinInv.rtwStadelEventCallback (h : JoinInv s) (env : JoinEnv) :
    JoinInv (s.rtwStadelEventCallback env) := by
  obtain ⟨hap, hlinked, hlinking⟩ := rtwStadelEventCallback_fwState s.toMlmePriv env.toMlmeEnv
  have hq : ∀ devNetwork, Quiet s { s with
      toMlmePriv := s.toMlmePriv.rtwStadelEventCallback env.toMlmeEnv
      underWps := s.underWps && (s.fwState.ap || !s.fwState.station)
      devNetwork := devNetwork } := fun _ => ⟨hap, hlinked, hlinking, id, rfl, rfl⟩
  unfold JoinState.rtwStadelEventCallback
  dsimp only
  split_ifs
  · exact h.quiet ((hq _).trans (quiet_rtwCreatebssCmd _ env).1)
  · exact h.quiet (hq s.devNetwork)

theorem JoinInv.rtwStassocEventCallback (h : JoinInv s) (env : MlmeEnv)
    (hok : s.connectsIbss env = true → s.assocTimer = false) :
    JoinInv (s.rtwStassocEventCallback env) := by
  unfold JoinState.rtwStassocEventCallback MlmePriv.rtwStassocEventCallback
  split_ifs with hconn
  · have hoff := hok hconn
    have hfw := setFixedOf_fwState s.toMlmePriv s.curNetwork.macAddress true
    refine ⟨?_, fun hs => ?_, h.survey, fun _ => hoff⟩
    · show (s.setFixedOf s.curNetwork.macAddress true).fwState.ap = false
      rw [hfw]
      exact h.ap
    · refine h.linking ?_
      rw [← hfw]
      exact hs
  · exact { h with }

/-! ### Timers -/

theorem JoinInv.rtwJoinTimeoutHandler (h : JoinInv s) : JoinInv s.rtwJoinTimeoutHandler := by
  unfold JoinState.rtwJoinTimeoutHandler MlmePriv.rtwJoinTimeoutHandler
  split_ifs
  · refine ⟨?_, fun hs => ?_, h.survey, fun _ => rfl⟩
    · show s.toMlmePriv.rtwIndicateDisconnect.freeScanqueue.fwState.ap = false
      rw [freeScanqueue_fwState]
      exact h.ap
    · replace hs : s.toMlmePriv.rtwIndicateDisconnect.freeScanqueue.fwState.underLinking = true :=
        hs
      rw [freeScanqueue_fwState] at hs
      cases hs
  · exact h

theorem JoinInv.rtwScanTimeoutHandler (h : JoinInv s) : JoinInv s.rtwScanTimeoutHandler := by
  unfold JoinState.rtwScanTimeoutHandler
  split_ifs
  · exact { h with survey := fun hs => absurd hs Bool.false_ne_true }
  · exact h

/-! ### The command thread -/

theorem JoinInv.unlinked_arm (h : JoinInv s) (hlinked : s.fwState.linked = false) :
    JoinInv { s with assocTimer := true } where
  ap := h.ap
  linking _ := rfl
  survey := h.survey
  link hs := absurd (hlinked.symm.trans hs) Bool.false_ne_true

theorem JoinInv.rtwCreatebssCmdCallback (h : JoinInv s) (env : MlmeEnv)
    (hok : s.pool = [] → s.rtwGetOldestWlanNetwork env = none → s.fwState.underLinking = false) :
    JoinInv (s.rtwCreatebssCmdCallback env) := by
  have hoff : ∀ t : MlmePriv, t.fwState = s.fwState →
      JoinInv ({ s with toMlmePriv := t, assocTimer := false }.setLinking false) := by
    intro t ht
    have hap : t.fwState.ap = false := by
      rw [ht]
      exact h.ap
    exact ⟨hap, fun hs => absurd hs Bool.false_ne_true, h.survey, fun _ => rfl⟩
  unfold JoinState.rtwCreatebssCmdCallback
  dsimp only
  split
  · rename_i hpool
    split
    · rename_i hold
      refine ⟨h.ap, fun hs => ?_, h.survey, fun _ => rfl⟩
      exact absurd ((hok hpool hold).symm.trans hs) Bool.false_ne_true
    · exact hoff _ rfl
  · exact hoff _ rfl

theorem JoinInv.rtwCmdThread (h : JoinInv s) {env : MlmeEnv} {success : Bool}
    (hok : CmdOk s env success) : JoinInv (s.rtwCmdThread env success) := by
  unfold JoinState.rtwCmdThread
  unfold CmdOk at hok
  cases hq : s.cmdQueue with
  | nil => exact h
  | cons c rest =>
    rw [hq] at hok
    have hrest : JoinInv { s with cmdQueue := rest } := { h with }
    cases c with
    | siteSurvey =>
      dsimp only
      split_ifs
      · exact hrest
      · exact { hrest with survey := fun _ => rfl }
    | joinBss =>
      dsimp only
      unfold JoinState.startClntJoin
      rcases hok with ⟨hsuccess, hcap⟩ | hlinked
      · rw [if_pos hsuccess, if_neg (not_not.mpr hcap)]
        exact hrest
      · split_ifs
        · exact hrest.unlinked_arm hlinked
        · exact hrest
        · exact hrest.unlinked_arm hlinked
    | createBss => exact hrest.rtwCreatebssCmdCallback env hok
    | disConnect =>
      dsimp only
      rcases hok with hsuccess | hoff
      · rw [if_pos hsuccess]
        exact hrest
      · split_ifs
        · exact hrest
        · exact { hrest with link := fun _ => hoff }

end steps

/-! ## Runs -/

theorem joinInv_step (s : JoinState) (e : JoinEnv × JoinEvent) (hok : JoinOk s e)
    (h : JoinInv s) : JoinInv (joinStep s e) := by
  obtain ⟨env, ev⟩ := e
  cases ev with
  | setBssid bssid => exact h.rtwSet80211Bssid env bssid
  | setSsid ssid ssidLength => exact h.rtwSet80211Ssid env ssid ssidLength
  | siteSurvey => exact h.rtwSitesurveyCmd env
  | disassociate => exact h.rtwSet80211Disassociate env
  | survey target =>
    exact h.quiet (.of_eq (rtwSurveyEventCallback_fwState _ _ target) rfl rfl rfl)
  | surveydone => exact h.rtwSurveydoneEventCallback env
  | joinbss pnetwork => exact h.rtwJoinbssEventPrehandle env.toMlmeEnv hok
  | stadel => exact h.rtwStadelEventCallback env
  | stassoc => exact h.rtwStassocEventCallback env.toMlmeEnv hok
  | joinTimeout => exact h.rtwJoinTimeoutHandler
  | scanTimeout => exact h.rtwScanTimeoutHandler
  | cmd success => exact h.rtwCmdThread hok
  | wps underWps => exact { h with }

theorem joinInv_init (zero : WlanBssidEx) (adhoc : Bool) : JoinInv (joinInit zero adhoc) where
  ap := rfl
  linking hs := absurd hs Bool.false_ne_true
  survey hs := absurd hs Bool.false_ne_true
  link _ := rfl

/-- From the start, in station or ad-hoc mode, no bit is stuck and no link is torn down by the
    join timer along every run that meets the condition. -/
theorem join_sound_of_run (zero : WlanBssidEx) (adhoc : Bool)
    (events : List (JoinEnv × JoinEvent))
    (hok : Guarded joinStep JoinOk (joinInit zero adhoc) events) (n : ℕ) :
    JoinSound (run joinStep (joinInit zero adhoc) (events.take n)) ∧
      ∀ e, events[n]? = some e →
        LinkKept (run joinStep (joinInit zero adhoc) (events.take n)) e.2 := by
  have hinv := invariant_run_take joinInv_step hok (joinInv_init zero adhoc) n
  exact ⟨hinv.sound, fun e _ => hinv.linkKept e.2⟩

/-- An access point with `cap_ESS`. -/
def essBss (i : ℕ) : WlanBssidEx := (apBss i).writeIes 10 [1]

/-- Every command is queued, and every network is wanted. -/
def openEnv : JoinEnv where
  toMlmeEnv := envAt 0
  sitesurvey := .queued
  joinbss := .queued
  createbss := .queued
  disassoc := .queued
  hwInitCompleted := true
  busyTraffic := false
  countermeasure := false
  encryptionDisabled := true
  noEncryption := true
  privacy := fun _ => false
  wpsIe := fun _ => false
  devNetwork := zeroBss

/-- The first access point is heard, joined and left. -/
def joinAndLeave : List (JoinEnv × JoinEvent) :=
  [.survey (essBss 0), .setBssid (essBss 0).macAddress, .cmd true,
    .joinbss { network := essBss 0, joinRes := 1 }, .disassociate].map (openEnv, ·)

theorem join_sound_joinAndLeave :
    JoinSound (run joinStep (joinInit zeroBss false) (joinAndLeave.take 4)) ∧
      ∀ e, joinAndLeave[4]? = some e →
        LinkKept (run joinStep (joinInit zeroBss false) (joinAndLeave.take 4)) e.2 := by
  refine join_sound_of_run zeroBss false joinAndLeave ?_ 4
  refine ⟨trivial, trivial, .inr ?_, fun _ hres => ?_, trivial, trivial⟩
  · decide +kernel
  · exact absurd hres (by decide)

/-- The join of the first access point has timed out and the second one is being joined, when
    the first one accepts; the second one refuses. -/
def lateResponse : List (JoinEnv × JoinEvent) :=
  [.survey (essBss 0), .setBssid (essBss 0).macAddress, .cmd true, .joinTimeout,
    .setBssid (essBss 1).macAddress, .cmd true, .survey (essBss 0), .survey (essBss 1), .surveydone,
    .joinbss { network := essBss 0, joinRes := 1 }, .cmd true,
    .joinbss { network := essBss 1, joinRes := -4 }, .joinTimeout].map (openEnv, ·)

/-- The timer that was armed for the second join clears the link to the first. -/
theorem lateResponse_clears : ¬ ∀ (zero : WlanBssidEx) (adhoc : Bool)
    (events : List (JoinEnv × JoinEvent)) (n : ℕ),
    JoinSound (run joinStep (joinInit zero adhoc) (events.take n)) ∧
      ∀ e, events[n]? = some e →
        LinkKept (run joinStep (joinInit zero adhoc) (events.take n)) e.2 := by
  intro h
  have hkept := (h zeroBss false lateResponse 12).2 (openEnv, .joinTimeout) rfl rfl
    (by decide +kernel)
  have hlinked : (run joinStep (joinInit zeroBss false)
      (lateResponse.take 12)).fwState.linked = true := by decide +kernel
  rw [hlinked] at hkept
  cases hkept

end Rtl8821au.Mlme
