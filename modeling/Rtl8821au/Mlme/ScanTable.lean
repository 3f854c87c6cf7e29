import Mathlib.Tactic.SplitIfs
import Rtl8821au.Lib.Buffer
import Rtl8821au.Lib.Places
import Rtl8821au.Lib.Run
import Rtl8821au.Priv

/-!
# Scan results

The `wlan_network`s of `free_bss_buf` are on `free_bss_pool` or in `scanned_queue`
(`rtw_mlme.c`). A survey result refreshes the entry of its network, takes a free one, or
overwrites the oldest entry when none is free. Joining marks an entry as `fixed`.

`rtw_get_oldest_wlan_network` looks for the oldest entry that is not fixed; the loop of
`rtw_update_scanned_network` looks for the oldest one of all.

Results:
* `scanTable_step`: the table stays a table without duplicates.
* `fixedKept_iff`: when a step overwrites a fixed entry.
* `scanTable_of_run`: both along every run.
-/

namespace Rtl8821au.Mlme

open Buffer Places Run
open Recv (Bytes MacAddr)

/-! ## Networks -/

/-- `MAX_IE_SZ` and `MAX_BSS_CNT`. -/
def maxIeSz : ℕ := 768

def maxBssCnt : ℕ := 128

/-- `NDIS_802_11_NETWORK_INFRASTRUCTURE`, as far as a network can be of it. -/
inductive InfrastructureMode where
  | ibss
  | infrastructure
  | autoUnknown
  | apMode
  deriving DecidableEq, Repr

/-- What is read of `WLAN_BSSID_EX` (`wlan_bssdef.h`, lines 322–338); `isBeacon` is
    `Reserved[0]`. -/
structure WlanBssidEx where
  macAddress : MacAddr
  isBeacon : Bool
  ssid : Bytes
  ssidLength : ℕ
  rssi : ℤ
  infrastructureMode : InfrastructureMode
  signalStrength : ℕ
  signalQuality : ℕ
  ieLength : ℕ
  ies : Bytes
  ies_length : ies.length = maxIeSz
  deriving DecidableEq, Repr

namespace WlanBssidEx

/-- The bytes of `IEs` from `off` on are overwritten. -/
def writeIes (b : WlanBssidEx) (off : ℕ) (bs : Bytes) : WlanBssidEx :=
  { b with
    ies := overwrite b.ies off bs
    ies_length := (overwrite_length _ _ _).trans b.ies_length }

/-- `memcpy(dst, src, get_WLAN_BSSID_EX_sz(src))`: the bytes of `IEs` behind `IELength` stay. -/
def copy (dst src : WlanBssidEx) : WlanBssidEx :=
  { src with
    ies := overwrite dst.ies 0 (src.ies.take src.ieLength)
    ies_length := (overwrite_length _ _ _).trans dst.ies_length }

/-- `rtw_get_capability` (lines 387–394). -/
def capability (b : WlanBssidEx) : ℕ := (b.ies.getD 10 0).toNat + 256 * (b.ies.getD 11 0).toNat

end WlanBssidEx

/-- `is_same_network` (lines 510–533). -/
def isSameNetwork (src dst : WlanBssidEx) : Bool :=
  src.ssidLength == dst.ssidLength && src.macAddress == dst.macAddress &&
    src.ssid.take src.ssidLength == dst.ssid.take src.ssidLength &&
    src.capability &&& 2 == dst.capability &&& 2 && src.capability &&& 1 == dst.capability &&& 1

/-- `struct wlan_network` (lines 366–375). -/
structure WlanNetwork where
  networkType : ℕ := 0
  fixed : Bool := false
  lastScanned : ℕ := 0
  aid : ℕ := 0
  joinRes : ℤ := 0
  network : WlanBssidEx

/-! ## The table -/

/-- The two queues of `struct mlme_priv`. -/
inductive BssQueue where
  | freeBssPool
  | scannedQueue
  deriving DecidableEq

/-- `struct mlme_priv`, as far as the scan results need it; `net` is `free_bss_buf`. -/
structure MlmePriv where
  fwState : FwState
  curNetwork : WlanBssidEx
  net : ℕ → WlanNetwork
  queue : BssQueue → List ℕ
  numOfScanned : ℕ

/-- What the kernel and the rest of the driver answer: `jiffies`, `time_after`,
    `rtw_get_passing_time_ms`, `asoc_sta_count`, the signal of the current network and whether
    the record of a station is found or allocated. -/
structure MlmeEnv where
  jiffies : ℕ
  timeAfter : ℕ → ℕ → Bool
  passingTimeMs : ℕ → ℕ
  asocStaCount : ℕ
  signalStrength : ℕ
  signalQual : ℕ
  staFound : Bool

namespace MlmePriv

variable (s : MlmePriv)

abbrev scanned : List ℕ := s.queue .scannedQueue

abbrev pool : List ℕ := s.queue .freeBssPool

/-- An assignment to a member of entry `a`. -/
def setNet (a : ℕ) (n : WlanNetwork) : MlmePriv := { s with net := Function.update s.net a n }

def setFixed (a : ℕ) (fixed : Bool) : MlmePriv := s.setNet a { s.net a with fixed }

/-- `list_del_init` and `list_add_tail` to the pool, with `num_of_scanned --`. -/
def release (a : ℕ) : MlmePriv :=
  { s with
    queue := move s.queue .freeBssPool a
    numOfScanned := (s.numOfScanned + 2 ^ 32 - 1) % 2 ^ 32 }

/-- `_rtw_free_network_nolock` (lines 260–282). -/
def rtwFreeNetworkNolock (a : ℕ) : MlmePriv := if (s.net a).fixed then s else s.release a

/-- `_rtw_free_network` (lines 221–258). -/
def rtwFreeNetwork (env : MlmeEnv) (isfreeall : Bool) (a : ℕ) : MlmePriv :=
  let lifetime := if s.fwState.adhocMaster || s.fwState.adhoc then 1 else 20000
  if (s.net a).fixed then s
  else if !isfreeall && env.passingTimeMs (s.net a).lastScanned < lifetime then s
  else s.release a

/-- `_rtw_free_network_queue` (lines 328–347). -/
def rtwFreeNetworkQueue (env : MlmeEnv) (isfreeall : Bool) : MlmePriv :=
  s.scanned.foldl (fun s a => s.rtwFreeNetwork env isfreeall a) s

/-- `free_scanqueue` (lines 973–996). -/
def freeScanqueue : MlmePriv := s.scanned.foldl release s

/-- `_rtw_find_network` (lines 290–321). -/
def rtwFindNetwork (addr : MacAddr) : Option ℕ :=
  if addr = Vector.replicate 6 0 then none
  else s.scanned.find? fun a => (s.net a).network.macAddress == addr

/-- `_rtw_alloc_network` (lines 189–219) and the `list_add_tail` to the scanned queue that
    its caller makes. -/
def rtwAllocNetwork (env : MlmeEnv) (a : ℕ) : MlmePriv :=
  { s.setNet a
      { s.net a with
        networkType := 0, fixed := false, lastScanned := env.jiffies, aid := 0, joinRes := 0 } with
    queue := move s.queue .scannedQueue a
    numOfScanned := (s.numOfScanned + 1) % 2 ^ 32 }

end MlmePriv

/-- "expire the oldest": the older of the two, whether fixed or not (lines 669–671). -/
def oldestOf (env : MlmeEnv) (net : ℕ → WlanNetwork) (oldest : Option ℕ) (a : ℕ) : Option ℕ :=
  match oldest with
  | none => some a
  | some o => if env.timeAfter (net o).lastScanned (net a).lastScanned then some a else some o

/-- The loop of `rtw_update_scanned_network` (lines 658–676): the entry of the same network,
    and the oldest of the entries before it. -/
def searchScanned (env : MlmeEnv) (net : ℕ → WlanNetwork) (target : WlanBssidEx) :
    List ℕ → Option ℕ → Option ℕ × Option ℕ
  | [], oldest => (none, oldest)
  | a :: rest, oldest =>
    if isSameNetwork (net a).network target then (some a, oldest)
    else searchScanned env net target rest (oldestOf env net oldest a)

/-- "bss info not receving from the right channel" (lines 700, 718). -/
def rightChannel (b : WlanBssidEx) : WlanBssidEx :=
  if b.signalQuality = 101 then { b with signalQuality := 0 } else b

/-- `update_network` (lines 564–609). -/
def updateNetwork (env : MlmeEnv) (s : MlmePriv) (dst src : WlanBssidEx) (updateIe : Bool) :
    WlanBssidEx :=
  let cur := s.fwState.linked && isSameNetwork s.curNetwork src
  let ssFinal :=
    if cur then env.signalStrength
    else if src.signalQuality ≠ 101 then
      (src.signalStrength + dst.signalStrength * 4) / 5 % 256
    else dst.signalStrength
  let sqFinal :=
    if cur then env.signalQual
    else if src.signalQuality ≠ 101 then
      (src.signalQuality + dst.signalQuality * 4) / 5 % 256
    else dst.signalQuality
  let rssiFinal :=
    if src.signalQuality ≠ 101 then (src.rssi + dst.rssi * 4).tdiv 5 else dst.rssi
  { (if updateIe then dst.copy src else dst) with
    signalStrength := ssFinal, signalQuality := sqFinal, rssi := rssiFinal }

namespace MlmePriv

variable (s : MlmePriv)

/-- `rtw_update_scanned_network` (lines 645–743). -/
def rtwUpdateScannedNetwork (env : MlmeEnv) (target : WlanBssidEx) : MlmePriv :=
  match searchScanned env s.net target s.scanned none with
  | (none, oldest) =>
    match s.pool with
    | [] =>
      match oldest with
      | none => s
      | some a =>
        s.setNet a
          { networkType := 0, fixed := false, lastScanned := env.jiffies, aid := 0, joinRes := 0
            network := rightChannel ((s.net a).network.copy target) }
    | a :: _ =>
      let s := s.rtwAllocNetwork env a
      s.setNet a
        { s.net a with
          lastScanned := env.jiffies
          network := rightChannel ((s.net a).network.copy target) }
  | (some a, _) =>
    let n := s.net a
    let updateIe := !(decide (target.ieLength < n.network.ieLength) && target.isBeacon)
    s.setNet a
      { n with
        lastScanned := env.jiffies
        network := updateNetwork env s n.network target updateIe }

/-- `update_current_network` (lines 611–636). -/
def updateCurrentNetwork (env : MlmeEnv) (target : WlanBssidEx) : MlmePriv :=
  if s.fwState.linked && isSameNetwork s.curNetwork target then
    { s with curNetwork := updateNetwork env s s.curNetwork target true }
  else s

/-- The beacons of the own IBSS set the timestamps (lines 831–846): the entry that gets one. -/
def ibssEntry (target : WlanBssidEx) : Option ℕ :=
  if s.fwState.adhocMaster && s.curNetwork.macAddress == target.macAddress then
    s.rtwFindNetwork target.macAddress
  else none

def ibssTimestamp (target : WlanBssidEx) : MlmePriv :=
  if s.fwState.adhocMaster && s.curNetwork.macAddress == target.macAddress then
    { s with curNetwork := s.curNetwork.writeIes 0 (target.ies.take 8) }
  else s

end MlmePriv

/-- A hidden network has no name (lines 851–853). -/
def hideSsid (target : WlanBssidEx) : WlanBssidEx :=
  if target.ssid.getD 0 0 = 0 then { target with ssidLength := 0 } else target

namespace MlmePriv

variable (s : MlmePriv)

/-- `rtw_survey_event_callback` (lines 814–863). -/
def rtwSurveyEventCallback (env : MlmeEnv) (target : WlanBssidEx) : MlmePriv :=
  if maxIeSz < target.ieLength then s
  else
    match s.ibssEntry target with
    | some a =>
      let s := s.ibssTimestamp target
      s.setNet a
        { s.net a with network := (s.net a).network.writeIes 0 (target.ies.take 8) }
    | none =>
      let s := s.ibssTimestamp target
      if s.fwState.underLinking then s
      else
        let target := hideSsid target
        (s.updateCurrentNetwork env target).rtwUpdateScannedNetwork env target

/-- `pcur_wlan->fixed = false` and the like. -/
def setFixedOf (addr : MacAddr) (fixed : Bool) : MlmePriv :=
  match s.rtwFindNetwork addr with
  | some a => s.setFixed a fixed
  | none => s

/-- `rtw_joinbss_update_network` (lines 1234–1284). -/
def rtwJoinbssUpdateNetwork (target : ℕ) (pnetwork : WlanBssidEx) : MlmePriv :=
  let ptarget := (s.net target).network
  { s with
    curNetwork := { pnetwork with
      ieLength := ptarget.ieLength, ies := ptarget.ies, ies_length := ptarget.ies_length }
    fwState :=
      match pnetwork.infrastructureMode with
      | .infrastructure => { station := true }
      | .ibss => { adhoc := true }
      | _ => {} }

/-- `s1` of `rtw_joinbss_event_prehandle` (lines 1323–1355): the marks. -/
def markTarget (pnetwork : WlanBssidEx) : MlmePriv :=
  if s.fwState.linked then
    if pnetwork.macAddress = s.curNetwork.macAddress then s
    else
      let s := s.setFixedOf s.curNetwork.macAddress false
      if s.fwState.station then s.setFixedOf pnetwork.macAddress true else s
  else if s.fwState.station then s.setFixedOf pnetwork.macAddress true
  else s

/-- `rtw_joinbss_event_prehandle` (lines 1294–1458). -/
def rtwJoinbssEventPrehandle (env : MlmeEnv) (pnetwork : WlanNetwork) : MlmePriv :=
  if maxIeSz < pnetwork.network.ieLength then s
  else if pnetwork.joinRes > 0 then
    if s.fwState.underLinking then
      let s := s.markTarget pnetwork.network
      match s.rtwFindNetwork pnetwork.network.macAddress with
      | none => s
      | some target =>
        let s := s.rtwJoinbssUpdateNetwork target pnetwork.network
        if s.fwState.station && env.staFound then
          { s with fwState := { s.fwState with linked := true } }
        else s
    else s
  else { s with fwState := { s.fwState with underLinking := false } }

/-- `rtw_indicate_disconnect` (lines 1081–1106). -/
def rtwIndicateDisconnect : MlmePriv :=
  { s with fwState := { s.fwState with underLinking := false, linked := false } }

/-- The table's part of `rtw_free_assoc_resources` (lines 1036–1056). -/
def rtwFreeAssocResources (env : MlmeEnv) : MlmePriv :=
  let pwlan := s.rtwFindNetwork s.curNetwork.macAddress
  let s := s.setFixedOf s.curNetwork.macAddress false
  match pwlan with
  | some a =>
    if s.fwState.adhocMaster && env.asocStaCount == 1 then s.rtwFreeNetworkNolock a else s
  | none => s

/-- "remove the network entry in scanned_queue" (lines 1681–1688, 1702–1711). -/
def removeCurrent : MlmePriv :=
  match s.rtwFindNetwork s.curNetwork.macAddress with
  | some a => (s.setFixed a false).rtwFreeNetworkNolock a
  | none => s

/-- `rtw_stadel_event_callback` (lines 1636–1746). -/
def rtwStadelEventCallback (env : MlmeEnv) : MlmePriv :=
  if s.fwState.ap then s
  else
    let s :=
      if s.fwState.station then (s.rtwFreeAssocResources env).rtwIndicateDisconnect.removeCurrent
      else s
    if s.fwState.adhocMaster || s.fwState.adhoc then
      if env.asocStaCount == 1 then
        let s := s.removeCurrent
        if s.fwState.adhoc then
          { s with fwState := { s.fwState with adhocMaster := true, adhoc := false } }
        else s
      else s
    else s

/-- `rtw_stassoc_event_callback` for a new station of an IBSS (lines 1604–1620). -/
def rtwStassocEventCallback (env : MlmeEnv) : MlmePriv :=
  if !s.fwState.ap && env.staFound && (s.fwState.adhocMaster || s.fwState.adhoc) &&
      env.asocStaCount == 2 then
    let s := s.setFixedOf s.curNetwork.macAddress true
    { s with fwState := { s.fwState with linked := true } }
  else s

/-- `_rtw_join_timeout_handler` (lines 1762–1787). -/
def rtwJoinTimeoutHandler : MlmePriv := s.rtwIndicateDisconnect.freeScanqueue

end MlmePriv

/-- What happens to the table. `collect_bss_info` refuses a survey result without the twelve
    fixed bytes; `other` is what the rest of the driver makes of `fw_state` and
    `cur_network`. -/
inductive MlmeEvent where
  | survey (target : WlanBssidEx) (hlen : 12 ≤ target.ieLength)
  | freeNetworkQueue (isfreeall : Bool)
  | freeScanqueue
  | joinbss (pnetwork : WlanNetwork)
  | joinTimeout
  | freeAssocResources
  | stassoc
  | stadel
  | other (fwState : FwState) (curNetwork : WlanBssidEx)

def mlmeStep (s : MlmePriv) : MlmeEnv × MlmeEvent → MlmePriv
  | (env, .survey target _) => s.rtwSurveyEventCallback env target
  | (env, .freeNetworkQueue isfreeall) => s.rtwFreeNetworkQueue env isfreeall
  | (_, .freeScanqueue) => s.freeScanqueue
  | (env, .joinbss pnetwork) => s.rtwJoinbssEventPrehandle env pnetwork
  | (_, .joinTimeout) => s.rtwJoinTimeoutHandler
  | (env, .freeAssocResources) => s.rtwFreeAssocResources env
  | (env, .stassoc) => s.rtwStassocEventCallback env
  | (env, .stadel) => s.rtwStadelEventCallback env
  | (_, .other fwState curNetwork) => { s with fwState, curNetwork }

/-- `_rtw_init_mlme_priv` (lines 48–107): the memory is zeroed. -/
def initMlmePriv (zero : WlanBssidEx) : MlmePriv where
  fwState := {}
  curNetwork := zero
  net _ := { network := zero }
  queue
    | .freeBssPool => List.range maxBssCnt
    | .scannedQueue => []
  numOfScanned := 0

/-! ## Networks that are the same -/

/-- What a network is recognised by. -/
def WlanBssidEx.key (b : WlanBssidEx) : MacAddr × ℕ × Bytes × ℕ × ℕ :=
  (b.macAddress, b.ssidLength, b.ssid.take b.ssidLength, b.capability &&& 2, b.capability &&& 1)

theorem isSameNetwork_iff {a b : WlanBssidEx} : isSameNetwork a b = true ↔ a.key = b.key := by
  simp only [isSameNetwork, WlanBssidEx.key, Bool.and_eq_true, beq_iff_eq, Prod.mk.injEq]
  constructor
  · rintro ⟨⟨⟨⟨hlen, hmac⟩, hssid⟩, hibss⟩, hbss⟩
    exact ⟨hmac, hlen, hlen ▸ hssid, hibss, hbss⟩
  · rintro ⟨hmac, hlen, hssid, hibss, hbss⟩
    exact ⟨⟨⟨⟨hlen, hmac⟩, hlen ▸ hssid⟩, hibss⟩, hbss⟩

theorem key_of_capability {a b : WlanBssidEx} (hmac : a.macAddress = b.macAddress)
    (hlen : a.ssidLength = b.ssidLength) (hssid : a.ssid = b.ssid)
    (hies : ∀ k, 10 ≤ k → k < 12 → a.ies.getD k 0 = b.ies.getD k 0) : a.key = b.key := by
  have hcap : a.capability = b.capability := by
    rw [WlanBssidEx.capability, WlanBssidEx.capability, hies 10 (by omega) (by omega),
      hies 11 (by omega) (by omega)]
  rw [WlanBssidEx.key, WlanBssidEx.key, hmac, hlen, hssid, hcap]

/-- A copy is the same network: the fixed bytes are always copied. -/
theorem key_copy (dst : WlanBssidEx) {src : WlanBssidEx} (h : 12 ≤ src.ieLength) :
    (dst.copy src).key = src.key := by
  refine key_of_capability rfl rfl rfl fun k _ hk => ?_
  have hs := src.ies_length
  have hd := dst.ies_length
  rw [maxIeSz] at hs hd
  have hin : 0 ≤ k ∧ k < 0 + (src.ies.take src.ieLength).length ∧ k < dst.ies.length := by
    rw [List.length_take]
    omega
  show (overwrite dst.ies 0 (src.ies.take src.ieLength)).getD k 0 = src.ies.getD k 0
  rw [overwrite_getD, if_pos hin, Nat.sub_zero, List.getD_eq_getElem?_getD,
    List.getElem?_take_of_lt (by omega), List.getD_eq_getElem?_getD]

theorem key_rightChannel (b : WlanBssidEx) : (rightChannel b).key = b.key := by
  unfold rightChannel
  split_ifs <;> rfl

/-- Timestamps do not matter. -/
theorem key_writeIes (b : WlanBssidEx) {bs : Bytes} (h : bs.length ≤ 8) :
    (b.writeIes 0 bs).key = b.key := by
  refine key_of_capability rfl rfl rfl fun k hk _ => ?_
  show (overwrite b.ies 0 bs).getD k 0 = b.ies.getD k 0
  rw [overwrite_getD, if_neg (by omega)]

theorem key_updateNetwork {env : MlmeEnv} {s : MlmePriv} {dst src : WlanBssidEx} {updateIe : Bool}
    (h : 12 ≤ src.ieLength) (hsame : isSameNetwork dst src) :
    (updateNetwork env s dst src updateIe).key = dst.key := by
  cases updateIe with
  | false => rfl
  | true => exact (key_copy dst h).trans (isSameNetwork_iff.mp hsame).symm

/-! ## The invariant -/

/-- Every `wlan_network` is in one of the queues, the scanned ones are counted, and no two of
    these are the same network. -/
structure ScanTable (s : MlmePriv) : Prop where
  exclusive : Exclusive s.queue
  placed : ∀ a, Placed s.queue a ↔ a < maxBssCnt
  count : s.numOfScanned = s.scanned.length
  distinct : ∀ a ∈ s.scanned, ∀ b ∈ s.scanned,
    isSameNetwork (s.net a).network (s.net b).network → a = b

/-- `s'` is a table with the networks of `s`. -/
structure Keeps (s s' : MlmePriv) : Prop where
  table : ScanTable s'
  keys : ∀ a, (s'.net a).network.key = (s.net a).network.key

theorem Keeps.trans {s s' s'' : MlmePriv} (h : Keeps s s') (h' : Keeps s' s'') : Keeps s s'' :=
  ⟨h'.table, fun a => (h'.keys a).trans (h.keys a)⟩

theorem ScanTable.length_le {s : MlmePriv} (h : ScanTable s) : s.scanned.length ≤ maxBssCnt := by
  have hsub : s.scanned ⊆ List.range maxBssCnt := fun a ha =>
    List.mem_range.mpr ((h.placed a).mp ⟨_, ha⟩)
  have hle := ((h.exclusive.nodup .scannedQueue).subperm hsub).length_le
  rwa [List.length_range] at hle

section keeps

variable {s : MlmePriv} (h : ScanTable s)
include h

theorem ScanTable.refl : Keeps s s := ⟨h, fun _ => rfl⟩

/-- The queues are as they were. -/
theorem ScanTable.congr {s' : MlmePriv} (hq : s'.queue = s.queue)
    (hn : s'.numOfScanned = s.numOfScanned)
    (hkeys : ∀ a, (s'.net a).network.key = (s.net a).network.key) : Keeps s s' where
  table :=
    { exclusive := hq ▸ h.exclusive
      placed := fun a => by rw [hq]; exact h.placed a
      count := by rw [hn, MlmePriv.scanned, hq]; exact h.count
      distinct := fun a ha b hb hsame => by
        rw [MlmePriv.scanned, hq] at ha hb
        rw [isSameNetwork_iff, hkeys, hkeys, ← isSameNetwork_iff] at hsame
        exact h.distinct a ha b hb hsame }
  keys := hkeys

theorem ScanTable.setNet {a : ℕ} {n : WlanNetwork} (hn : n.network.key = (s.net a).network.key) :
    Keeps s (s.setNet a n) := by
  refine h.congr rfl rfl fun b => ?_
  by_cases hb : b = a
  · subst hb
    simpa [MlmePriv.setNet] using hn
  · simp [MlmePriv.setNet, Function.update_of_ne hb]

theorem ScanTable.setFixed (a : ℕ) (fixed : Bool) : Keeps s (s.setFixed a fixed) := h.setNet rfl

theorem ScanTable.setFixedOf (addr : MacAddr) (fixed : Bool) :
    Keeps s (s.setFixedOf addr fixed) := by
  unfold MlmePriv.setFixedOf
  split
  · exact h.setFixed _ _
  · exact h.refl

theorem ScanTable.release {a : ℕ} (ha : a ∈ s.scanned) : Keeps s (s.release a) := by
  have hscanned : (s.release a).scanned = s.scanned.erase a := by
    show move s.queue .freeBssPool a .scannedQueue = s.scanned.erase a
    rw [move, put_of_ne (by decide), del]
  have hlen := h.length_le
  have hpos := List.length_pos_of_mem ha
  rw [maxBssCnt] at hlen
  refine ⟨⟨h.exclusive.move _ _, fun b => ?_, ?_, fun b hb c hc hsame => ?_⟩, fun _ => rfl⟩
  · show Placed (move s.queue .freeBssPool a) b ↔ b < maxBssCnt
    rw [placed_move h.exclusive, ← h.placed b]
    exact ⟨fun hb => hb.elim (fun hb => hb ▸ ⟨_, ha⟩) id, Or.inr⟩
  · rw [hscanned, List.length_erase_of_mem ha]
    show (s.numOfScanned + 2 ^ 32 - 1) % 2 ^ 32 = _
    rw [h.count]
    omega
  · rw [hscanned] at hb hc
    exact h.distinct b (List.mem_of_mem_erase hb) c (List.mem_of_mem_erase hc) hsame

theorem ScanTable.mem_release {a b : ℕ} (hb : b ∈ s.scanned) (hne : b ≠ a) :
    b ∈ (s.release a).scanned := by
  show b ∈ move s.queue .freeBssPool a .scannedQueue
  exact (mem_move h.exclusive).mpr (Or.inl ⟨hne, hb⟩)

theorem ScanTable.rtwFreeNetworkNolock {a : ℕ} (ha : a ∈ s.scanned) :
    Keeps s (s.rtwFreeNetworkNolock a) := by
  unfold MlmePriv.rtwFreeNetworkNolock
  split_ifs
  · exact h.refl
  · exact h.release ha

omit h in
theorem rtwFreeNetwork_eq (env : MlmeEnv) (isfreeall : Bool) (a : ℕ) :
    s.rtwFreeNetwork env isfreeall a = s ∨ s.rtwFreeNetwork env isfreeall a = s.release a := by
  rw [MlmePriv.rtwFreeNetwork, ite_eq_left_iff]
  by_cases hfixed : (s.net a).fixed = true
  · exact Or.inl fun hc => absurd hfixed hc
  · rw [if_neg hfixed]
    split_ifs
    · exact Or.inl fun _ => rfl
    · exact Or.inr rfl
    · exact Or.inl fun _ => rfl
    · exact Or.inr rfl

theorem ScanTable.rtwFreeNetworkQueue (env : MlmeEnv) (isfreeall : Bool) :
    Keeps s (s.rtwFreeNetworkQueue env isfreeall) := by
  refine foldl_of_mem (P := Keeps s) (M := fun t a => a ∈ t.scanned) (fun t a ht ha => ?_)
    (h.exclusive.nodup .scannedQueue) (fun a ha => ha) h.refl
  rcases rtwFreeNetwork_eq (s := t) env isfreeall a with heq | heq
  · rw [heq]
    exact ⟨ht, fun b hb _ => hb⟩
  · rw [heq]
    exact ⟨ht.trans (ht.table.release ha), fun b hb hne => ht.table.mem_release hb hne⟩

theorem ScanTable.freeScanqueue : Keeps s s.freeScanqueue :=
  foldl_of_mem (P := Keeps s) (M := fun t a => a ∈ t.scanned)
    (fun _ _ ht ha => ⟨ht.trans (ht.table.release ha), fun _ hb hne => ht.table.mem_release hb hne⟩)
    (h.exclusive.nodup .scannedQueue) (fun _ ha => ha) h.refl

omit h in
theorem mem_of_rtwFindNetwork {addr : MacAddr} {a : ℕ} (ha : s.rtwFindNetwork addr = some a) :
    a ∈ s.scanned := by
  unfold MlmePriv.rtwFindNetwork at ha
  split_ifs at ha
  exact List.mem_of_find?_eq_some ha

theorem ScanTable.rtwFreeAssocResources (env : MlmeEnv) :
    Keeps s (s.rtwFreeAssocResources env) := by
  have hfix := h.setFixedOf s.curNetwork.macAddress false
  unfold MlmePriv.rtwFreeAssocResources
  dsimp only
  split
  · rename_i a ha
    have hmem : a ∈ (s.setFixedOf s.curNetwork.macAddress false).scanned := by
      rw [MlmePriv.setFixedOf, ha]
      exact mem_of_rtwFindNetwork (s := s) ha
    split_ifs
    · exact hfix.trans (hfix.table.rtwFreeNetworkNolock hmem)
    · exact hfix
  · exact hfix

theorem ScanTable.removeCurrent : Keeps s s.removeCurrent := by
  unfold MlmePriv.removeCurrent
  split
  · rename_i a ha
    have hfix := h.setFixed a false
    exact hfix.trans (hfix.table.rtwFreeNetworkNolock (mem_of_rtwFindNetwork (s := s) ha))
  · exact h.refl

/-- `fw_state` and `cur_network` are not part of the table. -/
theorem ScanTable.other (fwState : FwState) (curNetwork : WlanBssidEx) :
    Keeps s { s with fwState, curNetwork } := h.congr rfl rfl fun _ => rfl

theorem ScanTable.rtwStassocEventCallback (env : MlmeEnv) :
    Keeps s (s.rtwStassocEventCallback env) := by
  have hfix := h.setFixedOf s.curNetwork.macAddress true
  unfold MlmePriv.rtwStassocEventCallback
  split_ifs
  · exact hfix.trans (hfix.table.other _ _)
  · exact h.refl

theorem ScanTable.rtwStadelEventCallback (env : MlmeEnv) :
    Keeps s (s.rtwStadelEventCallback env) := by
  have hleave : Keeps s (if s.fwState.station then
      (s.rtwFreeAssocResources env).rtwIndicateDisconnect.removeCurrent else s) := by
    split_ifs
    · have hfree := h.rtwFreeAssocResources env
      have hind : Keeps s (s.rtwFreeAssocResources env).rtwIndicateDisconnect :=
        hfree.trans (hfree.table.other _ _)
      exact hind.trans hind.table.removeCurrent
    · exact h.refl
  unfold MlmePriv.rtwStadelEventCallback
  dsimp only
  generalize (if s.fwState.station then
      (s.rtwFreeAssocResources env).rtwIndicateDisconnect.removeCurrent else s) = t at hleave ⊢
  have hremoved := hleave.trans hleave.table.removeCurrent
  split_ifs
  · exact h.refl
  · exact hremoved.trans (hremoved.table.other _ _)
  · exact hremoved
  · exact hleave
  · exact hleave

theorem ScanTable.markTarget (pnetwork : WlanBssidEx) : Keeps s (s.markTarget pnetwork) := by
  have hclear := h.setFixedOf s.curNetwork.macAddress false
  unfold MlmePriv.markTarget
  dsimp only
  split_ifs
  · exact h.refl
  · exact hclear.trans (hclear.table.setFixedOf _ _)
  · exact hclear
  · exact h.setFixedOf _ _
  · exact h.refl

theorem ScanTable.rtwJoinbssEventPrehandle (env : MlmeEnv) (pnetwork : WlanNetwork) :
    Keeps s (s.rtwJoinbssEventPrehandle env pnetwork) := by
  have hmark := h.markTarget pnetwork.network
  unfold MlmePriv.rtwJoinbssEventPrehandle
  dsimp only
  split_ifs
  · exact h.refl
  · split
    · exact hmark
    · rename_i target _
      have hupd : Keeps s ((s.markTarget pnetwork.network).rtwJoinbssUpdateNetwork target
          pnetwork.network) := hmark.trans (hmark.table.congr rfl rfl fun _ => rfl)
      split_ifs
      · exact hupd.trans (hupd.table.other _ _)
      · exact hupd
  · exact h.refl
  · exact h.other _ _

theorem ScanTable.ibssTimestamp (target : WlanBssidEx) : Keeps s (s.ibssTimestamp target) := by
  unfold MlmePriv.ibssTimestamp
  split_ifs
  · exact h.other _ _
  · exact h.refl

theorem ScanTable.updateCurrentNetwork (env : MlmeEnv) (target : WlanBssidEx) :
    Keeps s (s.updateCurrentNetwork env target) := by
  unfold MlmePriv.updateCurrentNetwork
  split_ifs
  · exact h.other _ _
  · exact h.refl

end keeps

/-! ## A survey result -/

section survey

variable {env : MlmeEnv} {net : ℕ → WlanNetwork} {target : WlanBssidEx} {q : List ℕ}

theorem searchScanned_some {o o' : Option ℕ} {a : ℕ}
    (h : searchScanned env net target q o = (some a, o')) :
    a ∈ q ∧ isSameNetwork (net a).network target := by
  induction q generalizing o with
  | nil => simp [searchScanned] at h
  | cons b q ih =>
    rw [searchScanned] at h
    split_ifs at h with hsame
    · obtain rfl := Option.some.inj (Prod.mk.inj h).1
      exact ⟨List.mem_cons_self, hsame⟩
    · obtain ⟨hmem, hsame⟩ := ih h
      exact ⟨List.mem_cons_of_mem b hmem, hsame⟩

theorem oldestOf_eq (env : MlmeEnv) (net : ℕ → WlanNetwork) (o : Option ℕ) (a : ℕ) :
    oldestOf env net o a = some a ∨ oldestOf env net o a = o := by
  unfold oldestOf
  split
  · exact Or.inl rfl
  · split_ifs
    · exact Or.inl rfl
    · exact Or.inr rfl

/-- No entry of the network, and the oldest is one of all that were looked at. -/
theorem searchScanned_none {o o' : Option ℕ} (h : searchScanned env net target q o = (none, o')) :
    (∀ a ∈ q, ¬isSameNetwork (net a).network target) ∧ ∀ a, o' = some a → a ∈ q ∨ o = some a := by
  induction q generalizing o with
  | nil =>
    simp only [searchScanned, Prod.mk.injEq, true_and] at h
    exact ⟨fun a ha => absurd ha List.not_mem_nil, fun a ha => Or.inr (h.trans ha)⟩
  | cons b q ih =>
    rw [searchScanned] at h
    split_ifs at h with hsame
    · simp at h
    · obtain ⟨hdiff, hold⟩ := ih h
      refine ⟨fun a ha => ?_, fun a ha => ?_⟩
      · rcases List.mem_cons.mp ha with rfl | ha
        · exact hsame
        · exact hdiff a ha
      · rcases hold a ha with hmem | heq
        · exact Or.inl (List.mem_cons_of_mem b hmem)
        · rcases oldestOf_eq env net o b with hb | hb
          · exact Or.inl (Option.some.inj (hb.symm.trans heq) ▸ List.mem_cons_self)
          · exact Or.inr (hb.symm.trans heq)

theorem searchScanned_eq (h : ∀ a ∈ q, ¬isSameNetwork (net a).network target) (o : Option ℕ) :
    searchScanned env net target q o = (none, q.foldl (oldestOf env net) o) := by
  induction q generalizing o with
  | nil => rfl
  | cons a q ih =>
    rw [searchScanned, if_neg (h a List.mem_cons_self),
      ih (fun b hb => h b (List.mem_cons_of_mem a hb))]
    rfl

/-- The entry that a survey result recycles: the oldest of the table, when the network is not
    in the table and the pool is empty. -/
def recycled (env : MlmeEnv) (s : MlmePriv) (target : WlanBssidEx) : Option ℕ :=
  if s.pool = [] ∧ ∀ b ∈ s.scanned, ¬isSameNetwork (s.net b).network target then
    s.scanned.foldl (oldestOf env s.net) none
  else none

variable {s : MlmePriv}

/-- The new member of the table is not the same as any other. -/
theorem ScanTable.replace (h : ScanTable s) {a : ℕ} {n : WlanNetwork}
    (hnew : ∀ b ∈ s.scanned, b ≠ a → (s.net b).network.key ≠ n.network.key) :
    ScanTable (s.setNet a n) where
  exclusive := h.exclusive
  placed := h.placed
  count := h.count
  distinct b hb c hc hsame := by
    rw [isSameNetwork_iff] at hsame
    simp only [MlmePriv.setNet] at hsame
    by_cases hba : b = a
    · by_cases hca : c = a
      · rw [hba, hca]
      · rw [hba, Function.update_self, Function.update_of_ne hca] at hsame
        exact absurd hsame.symm (hnew c hc hca)
    · by_cases hca : c = a
      · rw [hca, Function.update_self, Function.update_of_ne hba] at hsame
        exact absurd hsame (hnew b hb hba)
      · rw [Function.update_of_ne hba, Function.update_of_ne hca] at hsame
        exact h.distinct b hb c hc (isSameNetwork_iff.mpr hsame)

/-- A free network enters the table. -/
theorem ScanTable.insert (h : ScanTable s) {a : ℕ} {rest : List ℕ} (ha : s.pool = a :: rest)
    {n : WlanNetwork} (hnew : ∀ b ∈ s.scanned, (s.net b).network.key ≠ n.network.key) :
    ScanTable ((s.rtwAllocNetwork env a).setNet a n) := by
  obtain ⟨hpool, hscanned, -⟩ := move_head (i := .scannedQueue) h.exclusive ha (by decide)
  have hout : a ∉ s.scanned := fun hmem => by
    have hin : a ∈ s.pool := by rw [ha]; exact List.mem_cons_self
    exact absurd (h.exclusive.unique hmem hin) (by decide)
  have hlen := h.length_le
  rw [maxBssCnt] at hlen
  refine ⟨h.exclusive.move _ _, fun b => ?_, ?_, fun b hb c hc hsame => ?_⟩
  · show Placed (move s.queue .scannedQueue a) b ↔ b < maxBssCnt
    rw [placed_move h.exclusive, ← h.placed b]
    refine ⟨fun hb => hb.elim (fun hb => ⟨.freeBssPool, ?_⟩) id, Or.inr⟩
    rw [hb]
    show a ∈ s.pool
    rw [ha]
    exact List.mem_cons_self
  · show (s.numOfScanned + 1) % 2 ^ 32 = (move s.queue .scannedQueue a .scannedQueue).length
    rw [hscanned, List.length_append, List.length_singleton, h.count]
    show (s.scanned.length + 1) % 2 ^ 32 = s.scanned.length + 1
    omega
  · have hmem : ∀ d, d ∈ move s.queue .scannedQueue a .scannedQueue → d ≠ a → d ∈ s.scanned := by
      intro d hd hda
      rw [hscanned] at hd
      exact (List.mem_append.mp hd).resolve_right fun hd => hda (List.mem_singleton.mp hd)
    rw [isSameNetwork_iff] at hsame
    simp only [MlmePriv.setNet, MlmePriv.rtwAllocNetwork] at hsame
    by_cases hba : b = a
    · by_cases hca : c = a
      · rw [hba, hca]
      · rw [hba, Function.update_self, Function.update_of_ne hca, Function.update_of_ne hca] at hsame
        exact absurd hsame.symm (hnew c (hmem c hc hca))
    · by_cases hca : c = a
      · rw [hca, Function.update_self, Function.update_of_ne hba, Function.update_of_ne hba] at hsame
        exact absurd hsame (hnew b (hmem b hb hba))
      · rw [Function.update_of_ne hba, Function.update_of_ne hca, Function.update_of_ne hba,
          Function.update_of_ne hca] at hsame
        exact h.distinct b (hmem b hb hba) c (hmem c hc hca) (isSameNetwork_iff.mpr hsame)

/-- What `rtw_update_scanned_network` does to the table: only a recycled entry becomes
    another network. -/
theorem ScanTable.rtwUpdateScannedNetwork (h : ScanTable s) (env : MlmeEnv)
    (hlen : 12 ≤ target.ieLength) :
    ScanTable (s.rtwUpdateScannedNetwork env target) ∧
      (∀ a ∈ s.scanned, recycled env s target ≠ some a →
        ((s.rtwUpdateScannedNetwork env target).net a).network.key = (s.net a).network.key) ∧
      ∀ a, recycled env s target = some a → a ∈ s.scanned ∧
        ((s.rtwUpdateScannedNetwork env target).net a).network.key ≠ (s.net a).network.key := by
  unfold MlmePriv.rtwUpdateScannedNetwork recycled
  generalize hsearch : searchScanned env s.net target s.scanned none = r
  obtain ⟨_ | a, oldest⟩ := r
  · obtain ⟨hdiff, hold⟩ := searchScanned_none hsearch
    rw [searchScanned_eq hdiff] at hsearch
    rw [(Prod.mk.inj hsearch).2]
    have hkey : ∀ b ∈ s.scanned, ∀ dst : WlanBssidEx,
        (s.net b).network.key ≠ (rightChannel (dst.copy target)).key := by
      intro b hb dst hc
      rw [key_rightChannel, key_copy dst hlen, ← isSameNetwork_iff] at hc
      exact hdiff b hb hc
    dsimp only
    cases hpool : s.pool with
    | nil =>
      dsimp only
      rw [if_pos ⟨rfl, hdiff⟩]
      cases oldest with
      | none => exact ⟨h, fun _ _ _ => rfl, fun a ha => absurd ha (by simp)⟩
      | some o =>
        have ho : o ∈ s.scanned := (hold o rfl).resolve_right (by simp)
        refine ⟨h.replace fun b hb _ => hkey b hb _, fun a _ hne => ?_, fun a ha => ?_⟩
        · have hao : a ≠ o := fun hc => hne (by rw [hc])
          simp [MlmePriv.setNet, Function.update_of_ne hao]
        · obtain rfl := Option.some.inj ha
          refine ⟨ho, fun hc => hkey o ho (s.net o).network ?_⟩
          rw [← hc]
          simp [MlmePriv.setNet]
    | cons a rest =>
      dsimp only
      rw [if_neg (by simp)]
      have hout : a ∉ s.scanned := fun hmem => by
        have hin : a ∈ s.pool := by rw [hpool]; exact List.mem_cons_self
        exact absurd (h.exclusive.unique hmem hin) (by decide)
      refine ⟨h.insert hpool fun b hb => hkey b hb _, fun b hb _ => ?_, fun b hb => by simp at hb⟩
      have hba : b ≠ a := fun hc => hout (hc ▸ hb)
      simp [MlmePriv.setNet, MlmePriv.rtwAllocNetwork, Function.update_of_ne hba]
  · obtain ⟨hmem, hsame⟩ := searchScanned_some hsearch
    have hkeep := h.setNet (a := a)
      (n := { s.net a with
        lastScanned := env.jiffies
        network := updateNetwork env s (s.net a).network target
          (!(decide (target.ieLength < (s.net a).network.ieLength) && target.isBeacon)) })
      (key_updateNetwork hlen hsame)
    rw [if_neg fun hc => hc.2 a hmem hsame]
    exact ⟨hkeep.table, fun b _ _ => hkeep.keys b, fun b hb => by simp at hb⟩

end survey

/-! ## Every event -/

/-- The entry that an event overwrites with another network: the one that a survey result
    recycles if it gets to the table. -/
def overwritten (s : MlmePriv) : MlmeEnv × MlmeEvent → Option ℕ
  | (env, .survey target _) =>
    if target.ieLength ≤ maxIeSz ∧ s.ibssEntry target = none ∧ s.fwState.underLinking = false then
      recycled env s (hideSsid target)
    else none
  | _ => none

/-- No entry that is marked as fixed becomes another network. -/
def FixedKept (s : MlmePriv) (e : MlmeEnv × MlmeEvent) : Prop :=
  ∀ a ∈ s.scanned, (s.net a).fixed = true →
    isSameNetwork (s.net a).network ((mlmeStep s e).net a).network = true

/-- When a survey result finds neither its network nor a free entry, the oldest entry is not
    the fixed one. -/
def OldestFree (s : MlmePriv) (e : MlmeEnv × MlmeEvent) : Prop :=
  ∀ a, overwritten s e = some a → (s.net a).fixed = false

/-- What an event does to the table. -/
structure Stepped (s s' : MlmePriv) (replaced : Option ℕ) : Prop where
  table : ScanTable s'
  kept : ∀ a ∈ s.scanned, replaced ≠ some a → (s'.net a).network.key = (s.net a).network.key
  lost : ∀ a, replaced = some a →
    a ∈ s.scanned ∧ (s'.net a).network.key ≠ (s.net a).network.key

theorem Keeps.stepped {s s' : MlmePriv} (h : Keeps s s') : Stepped s s' none where
  table := h.table
  kept a _ _ := h.keys a
  lost a ha := by simp at ha

theorem recycled_congr {s s' : MlmePriv} (hnet : s'.net = s.net) (hq : s'.queue = s.queue)
    (env : MlmeEnv) (target : WlanBssidEx) : recycled env s' target = recycled env s target := by
  simp only [recycled, MlmePriv.scanned, MlmePriv.pool, hnet, hq]

theorem hideSsid_ieLength (target : WlanBssidEx) :
    (hideSsid target).ieLength = target.ieLength := by
  unfold hideSsid
  split_ifs <;> rfl

theorem ScanTable.survey {s : MlmePriv} (h : ScanTable s) (env : MlmeEnv) {target : WlanBssidEx}
    (hlen : 12 ≤ target.ieLength) :
    Stepped s (s.rtwSurveyEventCallback env target) (overwritten s (env, .survey target hlen)) := by
  have hstamp := h.ibssTimestamp target
  have hlink : (s.ibssTimestamp target).fwState = s.fwState := by
    unfold MlmePriv.ibssTimestamp
    split_ifs <;> rfl
  unfold MlmePriv.rtwSurveyEventCallback overwritten
  dsimp only
  by_cases hbig : maxIeSz < target.ieLength
  · rw [if_pos hbig, if_neg (by omega)]
    exact h.refl.stepped
  · rw [if_neg hbig]
    cases hentry : s.ibssEntry target with
    | some a =>
      have hshort : (target.ies.take 8).length ≤ 8 := by
        rw [List.length_take]
        omega
      have hwrite := key_writeIes ((s.ibssTimestamp target).net a).network hshort
      have hset := hstamp.table.setNet (a := a)
        (n := { (s.ibssTimestamp target).net a with
          network := ((s.ibssTimestamp target).net a).network.writeIes 0 (target.ies.take 8) })
        hwrite
      have hno : ¬(target.ieLength ≤ maxIeSz ∧ some a = none ∧ s.fwState.underLinking = false) :=
        fun hc => Option.some_ne_none a hc.2.1
      dsimp only
      rw [if_neg hno]
      exact (hstamp.trans hset).stepped
    | none =>
      dsimp only
      rw [hlink]
      by_cases hunder : s.fwState.underLinking = true
      · rw [if_pos hunder, if_neg (by simp [hunder])]
        exact hstamp.stepped
      · have hcur := hstamp.trans (hstamp.table.updateCurrentNetwork env (hideSsid target))
        have hnet : ((s.ibssTimestamp target).updateCurrentNetwork env (hideSsid target)).net =
            s.net := by
          unfold MlmePriv.updateCurrentNetwork MlmePriv.ibssTimestamp
          split_ifs <;> rfl
        have hq : ((s.ibssTimestamp target).updateCurrentNetwork env (hideSsid target)).queue =
            s.queue := by
          unfold MlmePriv.updateCurrentNetwork MlmePriv.ibssTimestamp
          split_ifs <;> rfl
        have hhide : 12 ≤ (hideSsid target).ieLength := by
          rw [hideSsid_ieLength]
          exact hlen
        have hupd := hcur.table.rtwUpdateScannedNetwork env hhide
        rw [recycled_congr hnet hq, MlmePriv.scanned, hq, hnet] at hupd
        obtain ⟨htable, hkept, hlost⟩ := hupd
        rw [if_neg hunder, if_pos ⟨by omega, rfl, by simpa using hunder⟩]
        exact ⟨htable, hkept, hlost⟩

/-- A step of the table. -/
theorem ScanTable.step {s : MlmePriv} (h : ScanTable s) (e : MlmeEnv × MlmeEvent) :
    Stepped s (mlmeStep s e) (overwritten s e) := by
  obtain ⟨env, e⟩ := e
  cases e with
  | survey target hlen => exact h.survey env hlen
  | freeNetworkQueue isfreeall => exact (h.rtwFreeNetworkQueue env isfreeall).stepped
  | freeScanqueue => exact h.freeScanqueue.stepped
  | joinbss pnetwork => exact (h.rtwJoinbssEventPrehandle env pnetwork).stepped
  | joinTimeout =>
    have hind : Keeps s s.rtwIndicateDisconnect := h.other _ _
    exact (hind.trans hind.table.freeScanqueue).stepped
  | freeAssocResources => exact (h.rtwFreeAssocResources env).stepped
  | stassoc => exact (h.rtwStassocEventCallback env).stepped
  | stadel => exact (h.rtwStadelEventCallback env).stepped
  | other fwState curNetwork => exact (h.other fwState curNetwork).stepped

theorem scanTable_step (s : MlmePriv) (e : MlmeEnv × MlmeEvent) (h : ScanTable s) :
    ScanTable (mlmeStep s e) := (h.step e).table

/-- A fixed entry is lost exactly when it is the oldest one and has to make room. -/
theorem fixedKept_iff {s : MlmePriv} (h : ScanTable s) (e : MlmeEnv × MlmeEvent) :
    FixedKept s e ↔ OldestFree s e := by
  have hstep := h.step e
  constructor
  · intro hkept a ha
    obtain ⟨hmem, hkey⟩ := hstep.lost a ha
    by_contra hfixed
    have hsame := hkept a hmem (by simpa using hfixed)
    exact hkey (isSameNetwork_iff.mp hsame).symm
  · intro hfree a hmem hfixed
    have hne : overwritten s e ≠ some a := fun hc => by
      rw [hfree a hc] at hfixed
      exact absurd hfixed (by decide)
    exact isSameNetwork_iff.mpr (hstep.kept a hmem hne).symm

theorem scanTable_init (zero : WlanBssidEx) : ScanTable (initMlmePriv zero) where
  exclusive :=
    { nodup := fun q => by
        cases q with
        | freeBssPool => exact List.nodup_range
        | scannedQueue => exact List.nodup_nil
      unique := fun {q r a} hq hr => by
        cases q with
        | scannedQueue => exact absurd hq List.not_mem_nil
        | freeBssPool =>
          cases r with
          | scannedQueue => exact absurd hr List.not_mem_nil
          | freeBssPool => rfl }
  placed a := by
    constructor
    · rintro ⟨q, ha⟩
      cases q with
      | freeBssPool => exact List.mem_range.mp ha
      | scannedQueue => exact absurd ha List.not_mem_nil
    · exact fun ha => ⟨.freeBssPool, List.mem_range.mpr ha⟩
  count := rfl
  distinct a ha := absurd ha List.not_mem_nil

/-- Along every run every network is on the free list or in the table, the table is counted
    and has no duplicates; and no fixed entry is overwritten exactly in the runs in which none
    is the oldest entry when one has to be recycled. -/
theorem scanTable_of_run (zero : WlanBssidEx) (events : List (MlmeEnv × MlmeEvent)) :
    (∀ n, ScanTable (run mlmeStep (initMlmePriv zero) (events.take n))) ∧
      (Guarded mlmeStep FixedKept (initMlmePriv zero) events ↔
        Guarded mlmeStep OldestFree (initMlmePriv zero) events) := by
  have hall : Guarded mlmeStep (fun _ _ => True) (initMlmePriv zero) events :=
    guarded_of_forall _ fun _ _ => trivial
  refine ⟨fun n => invariant_run_take (fun s e _ h => scanTable_step s e h) hall
    (scanTable_init zero) n, fun h => ?_, fun h => ?_⟩
  · exact h.of_invariant (fun s e _ ht => scanTable_step s e ht)
      (fun s e hk ht => (fixedKept_iff ht e).mp hk) (scanTable_init zero)
  · exact h.of_invariant (fun s e _ ht => scanTable_step s e ht)
      (fun s e hk ht => (fixedKept_iff ht e).mpr hk) (scanTable_init zero)

/-! ## A crowded place -/

/-- Zeroed memory. -/
def zeroBss : WlanBssidEx where
  macAddress := Vector.replicate 6 0
  isBeacon := false
  ssid := List.replicate 32 0
  ssidLength := 0
  rssi := 0
  infrastructureMode := .ibss
  signalStrength := 0
  signalQuality := 0
  ieLength := 0
  ies := List.replicate maxIeSz 0
  ies_length := List.length_replicate

/-- The access point with address `02:00:00:00:00:i`. -/
def apBss (i : ℕ) : WlanBssidEx :=
  { zeroBss with
    macAddress := #v[2, 0, 0, 0, 0, UInt8.ofNat i]
    ssid := [0x41]
    ssidLength := 1
    infrastructureMode := .infrastructure
    ieLength := 12 }

/-- At `jiffies = t`, before the clock wraps. -/
def envAt (t : ℕ) : MlmeEnv where
  jiffies := t
  timeAfter a b := decide (b < a)
  passingTimeMs start := t - start
  asocStaCount := 2
  signalStrength := 50
  signalQual := 50
  staFound := true

def heard (i : ℕ) : MlmeEnv × MlmeEvent := (envAt i, .survey (apBss i) le_rfl)

/-- The first access point is joined, 127 others fill the table, and one more is heard. -/
def joinFirst : List (MlmeEnv × MlmeEvent) :=
  [(envAt 0, .other { station := true, underLinking := true } zeroBss),
    (envAt 0, .joinbss { network := apBss 0, joinRes := 1 })]

def crowded : List (MlmeEnv × MlmeEvent) :=
  heard 0 :: joinFirst ++ (List.range 127).map (fun k => heard (k + 1)) ++ [heard 128]

/-- The first `k` access points are in the table. -/
structure Filled (k : ℕ) (fixed : Bool) (s : MlmePriv) : Prop where
  table : ScanTable s
  underLinking : s.fwState.underLinking = false
  adhocMaster : s.fwState.adhocMaster = false
  scanned : s.scanned = List.range k
  pool : s.pool = (List.range maxBssCnt).drop k
  key : ∀ a < k, (s.net a).network.key = (apBss a).key
  lastScanned : ∀ a < k, (s.net a).lastScanned = a
  fixed : (s.net 0).fixed = fixed

theorem apBss_key {i j : ℕ} (hi : i < 256) (hj : j < 256) (h : (apBss i).key = (apBss j).key) :
    i = j := by
  have hmac : #v[2, 0, 0, 0, 0, UInt8.ofNat i] = #v[2, 0, 0, 0, 0, UInt8.ofNat j] :=
    congrArg Prod.fst h
  have hlast : UInt8.ofNat i = UInt8.ofNat j := by
    have hget := congrArg (fun v : MacAddr => v[5]) hmac
    simpa using hget
  have hnat := congrArg UInt8.toNat hlast
  simp only [UInt8.toNat_ofNat'] at hnat
  omega

/-- A survey result while nothing is being joined. -/
theorem heard_eq {s : MlmePriv} {k : ℕ} (hk : k < 256) {n : ℕ} (hn : n ≤ k) {fixed : Bool}
    (h : Filled n fixed s) :
    (∀ a ∈ s.scanned, ¬isSameNetwork (s.net a).network (apBss k)) ∧
      overwritten s (heard k) = recycled (envAt k) s (apBss k) ∧
      mlmeStep s (heard k) =
        (s.updateCurrentNetwork (envAt k) (apBss k)).rtwUpdateScannedNetwork (envAt k) (apBss k) := by
  have hide : hideSsid (apBss k) = apBss k := if_neg (by decide : ¬(0x41 : UInt8) = 0)
  have hentry : s.ibssEntry (apBss k) = none := by simp [MlmePriv.ibssEntry, h.adhocMaster]
  have hstamp : s.ibssTimestamp (apBss k) = s := by simp [MlmePriv.ibssTimestamp, h.adhocMaster]
  refine ⟨fun a ha hsame => ?_, ?_, ?_⟩
  · rw [h.scanned, List.mem_range] at ha
    rw [isSameNetwork_iff, h.key a ha] at hsame
    have := apBss_key (by omega) hk hsame
    omega
  · show (if _ then _ else _) = _
    rw [if_pos ⟨(by decide : 12 ≤ maxIeSz), hentry, h.underLinking⟩, hide]
  · show s.rtwSurveyEventCallback (envAt k) (apBss k) = _
    rw [MlmePriv.rtwSurveyEventCallback, if_neg (by simp [apBss, maxIeSz]), hentry]
    dsimp only
    rw [hstamp, if_neg (by simp [h.underLinking]), hide]

theorem updateCurrentNetwork_frame (s : MlmePriv) (env : MlmeEnv) (target : WlanBssidEx) :
    (s.updateCurrentNetwork env target).net = s.net ∧
      (s.updateCurrentNetwork env target).queue = s.queue ∧
      (s.updateCurrentNetwork env target).fwState = s.fwState := by
  unfold MlmePriv.updateCurrentNetwork
  split_ifs <;> exact ⟨rfl, rfl, rfl⟩

/-- The next access point gets the next free network. -/
theorem Filled.heard {s : MlmePriv} {k : ℕ} {fixed : Bool} (hk : k < maxBssCnt)
    (h0 : k = 0 → fixed = false) (h : Filled k fixed s) :
    Filled (k + 1) fixed (mlmeStep s (heard k)) := by
  obtain ⟨hdiff, -, hstep⟩ := heard_eq (hk.trans (by decide)) le_rfl h
  have htable := scanTable_step s (Mlme.heard k) h.table
  obtain ⟨hnet, hq, hfw⟩ := updateCurrentNetwork_frame s (envAt k) (apBss k)
  have hpool : s.pool = k :: (List.range maxBssCnt).drop (k + 1) := by
    rw [h.pool, List.drop_eq_getElem_cons (by simpa using hk), List.getElem_range]
  obtain ⟨hrest, hscan, -⟩ := move_head (i := .scannedQueue) h.table.exclusive hpool (by decide)
  rw [hstep] at htable ⊢
  generalize s.updateCurrentNetwork (envAt k) (apBss k) = t at hnet hq hfw htable ⊢
  have hupd : t.rtwUpdateScannedNetwork (envAt k) (apBss k) =
      (t.rtwAllocNetwork (envAt k) k).setNet k
        { (t.rtwAllocNetwork (envAt k) k).net k with
          lastScanned := k
          network := rightChannel
            (((t.rtwAllocNetwork (envAt k) k).net k).network.copy (apBss k)) } := by
    unfold MlmePriv.rtwUpdateScannedNetwork
    rw [MlmePriv.scanned, MlmePriv.pool, hq, hnet, searchScanned_eq hdiff]
    dsimp only
    rw [show s.queue .freeBssPool = _ from hpool]
    rfl
  rw [hupd] at htable ⊢
  have hother : ∀ a, a ≠ k → (((t.rtwAllocNetwork (envAt k) k).setNet k
      { (t.rtwAllocNetwork (envAt k) k).net k with
        lastScanned := k
        network := rightChannel
          (((t.rtwAllocNetwork (envAt k) k).net k).network.copy (apBss k)) }).net a) = s.net a := by
    intro a ha
    simp [MlmePriv.setNet, MlmePriv.rtwAllocNetwork, Function.update_of_ne ha, hnet]
  refine ⟨htable, hfw ▸ h.underLinking, hfw ▸ h.adhocMaster, ?_, ?_, fun a ha => ?_,
    fun a ha => ?_, ?_⟩
  · show move t.queue .scannedQueue k .scannedQueue = _
    rw [hq, hscan, List.range_succ]
    exact congrArg (· ++ [k]) h.scanned
  · show move t.queue .scannedQueue k .freeBssPool = _
    rw [hq, hrest]
  · by_cases hak : a = k
    · subst hak
      simp only [MlmePriv.setNet, Function.update_self]
      rw [key_rightChannel, key_copy _ (le_refl 12 : 12 ≤ (apBss a).ieLength)]
    · rw [hother a hak]
      exact h.key a (by omega)
  · by_cases hak : a = k
    · subst hak
      simp [MlmePriv.setNet]
    · rw [hother a hak]
      exact h.lastScanned a (by omega)
  · by_cases hk0 : k = 0
    · subst hk0
      simp [MlmePriv.setNet, MlmePriv.rtwAllocNetwork, h0 rfl]
    · rw [hother 0 (Ne.symm hk0)]
      exact h.fixed

theorem Filled.hearAll {s : MlmePriv} {k : ℕ} {fixed : Bool} (n : ℕ) (hk : 0 < k)
    (hn : k + n ≤ maxBssCnt) (h : Filled k fixed s) :
    Filled (k + n) fixed
      (run mlmeStep s ((List.range n).map fun j => Mlme.heard (k + j))) := by
  induction n with
  | zero => exact h
  | succ n ih =>
    rw [List.range_succ, List.map_append, run_append]
    have hlt : k + n < maxBssCnt := by omega
    exact (ih hlt.le).heard hlt fun hc => absurd hc (Nat.ne_of_gt (Nat.add_pos_left hk n))

/-- The first access point is joined: its entry is fixed. -/
theorem Filled.join {s : MlmePriv} (h : Filled 1 false s) :
    Filled 1 true (run mlmeStep s joinFirst) := by
  have hscan : s.scanned = [0] := h.scanned
  have hmac : (s.net 0).network.macAddress = (apBss 0).macAddress :=
    congrArg Prod.fst (h.key 0 Nat.one_pos)
  have hfind : ∀ t : MlmePriv, t.scanned = [0] →
      (t.net 0).network.macAddress = (apBss 0).macAddress →
      t.rtwFindNetwork (apBss 0).macAddress = some 0 := by
    intro t ht htmac
    rw [MlmePriv.rtwFindNetwork, if_neg (by decide), ht, List.find?_cons_of_pos]
    rw [htmac]
    exact beq_self_eq_true _
  have htable : ScanTable (run mlmeStep s joinFirst) := by
    rw [Mlme.joinFirst, run_cons, run_cons, run_nil]
    exact scanTable_step _ _ (scanTable_step _ _ h.table)
  have hrun : run mlmeStep s joinFirst =
      { s.setFixed 0 true with
        fwState := { station := true, linked := true }
        curNetwork := { apBss 0 with
          ieLength := (s.net 0).network.ieLength
          ies := (s.net 0).network.ies
          ies_length := (s.net 0).network.ies_length } } := by
    show MlmePriv.rtwJoinbssEventPrehandle
      { s with fwState := { station := true, underLinking := true }, curNetwork := zeroBss }
      (envAt 0) { network := apBss 0, joinRes := 1 } = _
    rw [MlmePriv.rtwJoinbssEventPrehandle, if_neg (by simp [apBss, maxIeSz]), if_pos (by decide),
      if_pos rfl]
    have hmark : MlmePriv.markTarget
        { s with fwState := { station := true, underLinking := true }, curNetwork := zeroBss }
        (apBss 0) =
        { s.setFixed 0 true with
          fwState := { station := true, underLinking := true }, curNetwork := zeroBss } := by
      have hfirst := hfind
        { s with fwState := { station := true, underLinking := true }, curNetwork := zeroBss }
        hscan hmac
      rw [MlmePriv.markTarget, if_neg (by simp), if_pos rfl, MlmePriv.setFixedOf, hfirst]
      rfl
    have htarget := hfind (MlmePriv.markTarget
        { s with fwState := { station := true, underLinking := true }, curNetwork := zeroBss }
        (apBss 0)) (by rw [hmark]; exact hscan) (by
      rw [hmark]
      simpa [MlmePriv.setFixed, MlmePriv.setNet] using hmac)
    dsimp only
    rw [htarget, hmark]
    simp [MlmePriv.rtwJoinbssUpdateNetwork, MlmePriv.setFixed, MlmePriv.setNet, apBss, envAt]
  rw [hrun] at htable ⊢
  refine ⟨htable, rfl, rfl, h.scanned, h.pool, fun a ha => ?_, fun a ha => ?_, ?_⟩
  · have ha0 : a = 0 := by omega
    subst ha0
    simpa [MlmePriv.setFixed, MlmePriv.setNet] using h.key 0 Nat.one_pos
  · have ha0 : a = 0 := by omega
    subst ha0
    simpa [MlmePriv.setFixed, MlmePriv.setNet] using h.lastScanned 0 Nat.one_pos
  · simp [MlmePriv.setFixed, MlmePriv.setNet]

theorem filled_init : Filled 0 false (initMlmePriv zeroBss) where
  table := scanTable_init zeroBss
  underLinking := rfl
  adhocMaster := rfl
  scanned := rfl
  pool := rfl
  key a ha := absurd ha (Nat.not_lt_zero a)
  lastScanned a ha := absurd ha (Nat.not_lt_zero a)
  fixed := rfl

theorem oldestOf_first {env : MlmeEnv} {net : ℕ → WlanNetwork} {o : ℕ} {q : List ℕ}
    (h : ∀ a ∈ q, env.timeAfter (net o).lastScanned (net a).lastScanned = false) :
    q.foldl (oldestOf env net) (some o) = some o := by
  induction q with
  | nil => rfl
  | cons a q ih =>
    have ha : oldestOf env net (some o) a = some o := by
      simp [oldestOf, h a List.mem_cons_self]
    rw [List.foldl_cons, ha]
    exact ih fun b hb => h b (List.mem_cons_of_mem a hb)

/-- In a full table the first access point is the one that has to make room. -/
theorem Filled.recycled {s : MlmePriv} {k : ℕ} (hk : maxBssCnt ≤ k) (hk' : k < 256)
    (h : Filled maxBssCnt true s) : overwritten s (Mlme.heard k) = some 0 := by
  obtain ⟨hdiff, hover, -⟩ := heard_eq hk' hk h
  have hpool : s.pool = [] := by rw [h.pool]; decide
  have hfirst : s.scanned = 0 :: (List.range 127).map Nat.succ := by
    rw [h.scanned, maxBssCnt, List.range_succ_eq_map]
  have hold : s.scanned.foldl (oldestOf (envAt k) s.net) none = some 0 := by
    rw [hfirst, List.foldl_cons]
    refine oldestOf_first fun a ha => ?_
    obtain ⟨j, hj, rfl⟩ := List.mem_map.mp ha
    have hj' := List.mem_range.mp hj
    rw [h.lastScanned 0 (by decide), h.lastScanned _ (by rw [maxBssCnt]; omega)]
    simp [envAt]
  rw [hover, Mlme.recycled, if_pos ⟨hpool, hdiff⟩, hold]

/-- The joined access point loses its entry to the one heard last. -/
theorem joinedNetwork_overwritten :
    ¬Guarded mlmeStep FixedKept (initMlmePriv zeroBss) crowded := by
  intro hg
  rw [crowded, guarded_append] at hg
  have hfull : Filled maxBssCnt true (run mlmeStep (initMlmePriv zeroBss)
      (Mlme.heard 0 :: joinFirst ++ (List.range 127).map (fun k => Mlme.heard (k + 1)))) := by
    have hjoined := (filled_init.heard (by decide) fun _ => rfl).join
    have hall := hjoined.hearAll 127 (by decide) (by decide)
    rw [List.cons_append, run_cons, run_append]
    simp only [Nat.add_comm 1] at hall
    exact hall
  have hfree := (fixedKept_iff hfull.table _).mp hg.2.1
  have hfixed := hfree 0 (hfull.recycled le_rfl (by decide))
  rw [hfull.fixed] at hfixed
  exact absurd hfixed (by decide)

end Rtl8821au.Mlme
