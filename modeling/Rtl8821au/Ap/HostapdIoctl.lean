import Rtl8821au.Ap.Acl
import Rtl8821au.Lib.Area
import Rtl8821au.Mlme.BssInfo

/-!
# Requests of hostapd

`rtw_hostapd_ioctl` and its handlers (`ioctl_linux.c`, lines 2956–3574), with what
`rtw_check_beacon_data` (`rtw_ap.c`, lines 1024–1075) does with the request. A request is a copy
of `p->length` bytes that is taken for a `struct ieee_param` or a `struct ieee_param_ex`, whatever
its length; it goes back to user space. Reads and writes are checked against its end and against
the fields; the fields stand where a 64-bit machine has them.

* `addSta_iff`, `staData_iff`, `hiddenSsid_iff`, …: when a handler stays inside.
* `hostapd_right_iff`: when a request does, and is refused before its length is used.

The arguments of `DBG_871X` are read, it is a function without a body. What a handler calls that
does not see the request is a parameter, and so is the handler of `RTL871X_SET_ENCRYPTION`.
-/

namespace Rtl8821au.Ap.HostapdIoctl

open Buffer Checked Elements
open Mlme (getIe)
open Mlme.BssInfo (LookFits hit getIe_found)
open Recv (MacAddr)

/-! ## Fields -/

/-- The number in the bytes of a little-endian field, and the bytes of a number. -/
def leNat (bs : List UInt8) : ℕ := bs.foldr (fun b v => b.toNat + 256 * v) 0

def leBytes (n v : ℕ) : List UInt8 := (List.range n).map fun k => UInt8.ofNat (v / 256 ^ k)

/-- A field of the request. -/
def readLe (param : List UInt8) (off n : ℕ) : Except Fault ℕ := do
  let bs ← readBytes param off n
  .ok (leNat bs)

/-- A write to a field of the request. -/
structure Write where
  off : ℕ
  size : ℕ
  bytes : List UInt8
  deriving DecidableEq, Repr

/-- It stays in the field and in the request. -/
def Write.Inside (param : List UInt8) (w : Write) : Prop :=
  w.bytes.length ≤ w.size ∧ Checked.Inside param w.off w.bytes.length

instance (param : List UInt8) (w : Write) : Decidable (w.Inside param) :=
  inferInstanceAs (Decidable (_ ∧ _))

/-- The writes one after the other. -/
def writeAll (param : List UInt8) : List Write → Except Fault (List UInt8)
  | [] => .ok param
  | w :: ws =>
    if w.Inside param then writeAll (overwrite param w.off w.bytes) ws else .error .beyond

/-- A number in a field of its size. -/
def putLe (off n v : ℕ) : Write := ⟨off, n, leBytes n v⟩

/-- Offsets in `struct ieee_param`: `sta_addr`, the union, and in the union `bcn_ie.buf`,
    `wpa_ie.reserved`, `add_sta.flags`, `add_sta.tx_supp_rates` and `add_sta.ht_cap`. -/
def staAddr : ℕ := 4
def unionOff : ℕ := 12
def bcnIeBuf : ℕ := 14
def wpaIeReserved : ℕ := 16
def addStaFlags : ℕ := 16
def addStaRates : ℕ := 20
def addStaHtCap : ℕ := 36

/-- `data` in `struct ieee_param_ex`. -/
def exData : ℕ := 10

/-! ## The driver -/

/-- `NDIS_802_11_LENGTH_SSID`, `MAX_IE_SZ`, `sizeof(struct rtw_ieee80211_ht_cap)`, `NUM_STA`. -/
def lengthSsid : ℕ := 32
def maxIeSz : ℕ := 768
def htCapSize : ℕ := 26
def numSta : ℕ := 32

/-- What the handlers look at of a `struct sta_info`. -/
structure Station where
  aid : ℕ
  capability : ℕ
  flags : ℕ
  nonerpSet : ℕ
  noShortSlotTimeSet : ℕ
  noShortPreambleSet : ℕ
  noHtGfSet : ℕ
  noHtSet : ℕ
  ht20mhzSet : ℕ
  bssrateset : Area 16
  bssratelen : ℕ
  qosOption : ℕ
  htOption : Bool
  htCap : Area htCapSize
  rxDataPkts : ℕ
  rxBytes : ℕ
  rxDrops : ℕ
  txPkts : ℕ
  txBytes : ℕ
  txDrops : ℕ
  wpaIe : Area 32

/-- `NDIS_802_11_SSID`. -/
structure Ssid where
  ssidLength : ℕ
  ssid : Area lengthSsid

/-- The driver: `apState`, `linked` are bits of `fw_state`, `apMode` says that
    `InfrastructureMode` of the network is `Ndis802_11APMode`. `curSsid`, `extSsid` are the SSIDs
    of `cur_network` and of `mlmext_info`. -/
structure Driver where
  hwInitCompleted : Bool
  apState : Bool
  linked : Bool
  apMode : Bool
  qosOption : ℕ
  htOption : Bool
  stainfo : MacAddr → Option ℕ
  sta : ℕ → Station
  maxNumSta : ℕ
  ieLength : ℕ
  ies : Area maxIeSz
  wpsBeaconIe : Option (List UInt8)
  wpsProbeRespIe : Option (List UInt8)
  wpsAssocRespIe : Option (List UInt8)
  bstartBss : Bool
  hiddenSsidMode : UInt8
  curSsid : Ssid
  extSsid : Ssid
  aclList : WlanAclPool

/-- What a handler returns, the driver, and the request with the reply. -/
structure Outcome where
  ret : ℤ
  drv : Driver
  param : List UInt8

/-- What is called and does not see the request; `checkBeaconRest` is `rtw_check_beacon_data`
    behind line 1075. -/
inductive Callee where
  | rtwHostapdStaFlush
  | updateStaInfoApmode (psta : ℕ)
  | freeSta (psta : ℕ)
  | checkBeaconRest
  | updateBeacon
  deriving DecidableEq, Repr

/-- The copies to and from user space and the allocations that succeed, what the callees return
    and leave, and `rtw_set_encryption`. -/
structure Env where
  pointer : Bool
  malloc : Bool
  copyFrom : Bool
  copyTo : Bool
  mallocWps : Bool
  run : Callee → Driver → ℤ × Driver
  rtwSetEncryption : Driver → List UInt8 → Except Fault Outcome

def eperm : ℤ := -1
def enomem : ℤ := -12
def efault : ℤ := -14
def einval : ℤ := -22
def eopnotsupp : ℤ := -95

/-- An address of six bytes. -/
def macOf (bs : List UInt8) : MacAddr := Vector.ofFn fun i => bs.getD i.1 0

def broadcast : List UInt8 := List.replicate 6 0xff

/-! ## Handlers -/

/-- The beginning that the handlers for a station share: the address is read, the driver must be
    an access point or linked, and the station is looked up. -/
def onStation (d : Driver) (param : List UInt8) (absent : ℤ)
    (found : ℕ → Except Fault Outcome) : Except Fault Outcome := do
  let addr ← readBytes param staAddr 6
  if !(d.linked || d.apState) then .ok ⟨einval, d, param⟩
  else if addr = broadcast then .ok ⟨einval, d, param⟩
  else
    match d.stainfo (macOf addr) with
    | none => .ok ⟨absent, d, param⟩
    | some psta => found psta

/-- The HT capabilities in `add_sta`, if the flags have `WLAN_STA_HT`. -/
def readHtCap (param : List UInt8) (flags : ℕ) (old : Area htCapSize) :
    Except Fault (Area htCapSize) :=
  if flags.testBit 11 then do
    let bytes ← readBytes param addStaHtCap htCapSize
    old.copyIn 0 bytes
  else .ok old

/-- The station after `rtw_add_sta`. -/
def Station.added (s : Station) (d : Driver) (aid flags : ℕ) (rates : Area 16)
    (htCap : Area htCapSize) : Station :=
  let qos := if flags.testBit 9 then 1 else 0
  let qos := if d.qosOption = 0 then 0 else qos
  { s with
    aid := aid
    bssrateset := rates
    qosOption := if flags.testBit 11 then 1 else qos
    htOption := flags.testBit 11 && d.htOption
    htCap := htCap }

/-- `rtw_add_sta` (lines 3001–3079). -/
def rtwAddSta (e : Env) (d : Driver) (param : List UInt8) : Except Fault Outcome := do
  let _ ← readLe param unionOff 2
  onStation d param enomem fun psta => do
    let flags ← readLe param addStaFlags 4
    let aid ← readLe param unionOff 2
    let bytes ← readBytes param addStaRates 16
    let rates ← (d.sta psta).bssrateset.copyIn 0 bytes
    let htCap ← readHtCap param flags (d.sta psta).htCap
    let d := { d with
      sta := Function.update d.sta psta ((d.sta psta).added d aid flags rates htCap) }
    .ok ⟨0, (e.run (.updateStaInfoApmode psta) d).2, param⟩

/-- `rtw_del_sta` (lines 3081–3127). -/
def rtwDelSta (e : Env) (d : Driver) (param : List UInt8) : Except Fault Outcome :=
  onStation d param 0 fun psta => .ok ⟨0, (e.run (.freeSta psta) d).2, param⟩

/-- The fields of `struct sta_data`, with the rates that were read. -/
def staDataWrites (s : Station) (rates : List UInt8) : List Write :=
  [putLe exData 2 s.aid,
    putLe (exData + 2) 2 s.capability,
    putLe (exData + 4) 4 s.flags,
    putLe (exData + 8) 4 (s.nonerpSet ||| s.noShortSlotTimeSet <<< 1 |||
      s.noShortPreambleSet <<< 2 ||| s.noHtGfSet <<< 3 ||| s.noHtSet <<< 4 |||
      s.ht20mhzSet <<< 5),
    putLe (exData + 28) 4 s.bssratelen,
    ⟨exData + 12, 16, rates⟩,
    ⟨exData + 32, htCapSize, s.htCap.bytes⟩,
    putLe (exData + 64) 8 s.rxDataPkts,
    putLe (exData + 72) 8 s.rxBytes,
    putLe (exData + 80) 8 s.rxDrops,
    putLe (exData + 88) 8 s.txPkts,
    putLe (exData + 96) 8 s.txBytes,
    putLe (exData + 104) 8 s.txDrops]

/-- `rtw_ioctl_get_sta_data` (lines 3129–3191). -/
def rtwIoctlGetStaData (d : Driver) (param : List UInt8) : Except Fault Outcome :=
  onStation d param (-1) fun psta => do
    let rates ← readBytes (d.sta psta).bssrateset.bytes 0 (d.sta psta).bssratelen
    let param ← writeAll param (staDataWrites (d.sta psta) rates)
    .ok ⟨0, d, param⟩

/-- `copy_len` (lines 3217–3223), none for a station without a WPA or RSN element. -/
def Station.copyLen (s : Station) : Option ℕ :=
  let id := s.wpaIe.bytes.getD 0 0
  let len := (s.wpaIe.bytes.getD 1 0).toNat + 2
  if id = 48 ∨ id = 221 then some (if 32 < len then 32 else len) else none

/-- `rtw_get_sta_wpaie` (lines 3193–3238). -/
def rtwGetStaWpaie (d : Driver) (param : List UInt8) : Except Fault Outcome :=
  onStation d param (-1) fun psta =>
    match (d.sta psta).copyLen with
    | none => .ok ⟨0, d, param⟩
    | some n => do
      let bytes ← readBytes (d.sta psta).wpaIe.bytes 0 n
      let param ← writeAll param [putLe unionOff 4 n, ⟨wpaIeReserved, 32, bytes⟩]
      .ok ⟨0, d, param⟩

/-- `len - 12 - 2`. -/
def ieLen (param : List UInt8) : ℤ := (param.length : ℤ) - 12 - 2

/-- `rtw_check_beacon_data` with the beacon behind `bcn_ie.buf`: `none` is `_FAIL`. The length is
    taken for an unsigned one when it is copied. -/
def rtwCheckBeaconData (e : Env) (d : Driver) (param : List UInt8) (len : ℤ) :
    Except Fault (Bool × Driver) :=
  if !d.apState then .ok (false, d)
  else if maxIeSz < len then .ok (false, d)
  else if len < 0 then .error .beyond
  else do
    let bytes ← readBytes param bcnIeBuf len.toNat
    let ies ← (Area.zero maxIeSz).copyIn 0 bytes
    let d := { d with ieLength := len.toNat, ies := ies }
    if !d.apMode then .ok (false, d)
    else
      let r := e.run .checkBeaconRest d
      .ok (r.1 == 1, r.2)

/-- `rtw_set_beacon` (lines 2956–2982). -/
def rtwSetBeacon (e : Env) (d : Driver) (param : List UInt8) : Except Fault Outcome :=
  if !d.apState then .ok ⟨einval, d, param⟩
  else do
    let num ← readLe param unionOff 2
    let d := { d with maxNumSta := if numSta < num ∨ num = 0 then numSta else num }
    let r ← rtwCheckBeaconData e d param (ieLen param)
    .ok ⟨if r.1 then 0 else einval, r.2, param⟩

/-- What the three handlers for WPS elements share (lines 3240–3350): the old element is freed,
    then the new one is copied, if the request has one. -/
def setWps (e : Env) (store : Option (List UInt8) → Driver → Driver) (after : Driver → Driver)
    (d : Driver) (param : List UInt8) : Except Fault Outcome :=
  if !d.apState then .ok ⟨einval, d, param⟩
  else
    let d := store none d
    if 0 < ieLen param then
      if !e.mallocWps then .ok ⟨einval, d, param⟩
      else do
        let bytes ← readBytes param bcnIeBuf (ieLen param).toNat
        .ok ⟨0, after (store (some bytes) d), param⟩
    else .ok ⟨0, d, param⟩

/-- `rtw_set_wps_beacon` (lines 3240–3280). -/
def rtwSetWpsBeacon (e : Env) : Driver → List UInt8 → Except Fault Outcome :=
  setWps e (fun x d => { d with wpsBeaconIe := x })
    fun d => { (e.run .updateBeacon d).2 with bstartBss := true }

/-- `rtw_set_wps_probe_resp` (lines 3282–3315). -/
def rtwSetWpsProbeResp (e : Env) : Driver → List UInt8 → Except Fault Outcome :=
  setWps e (fun x d => { d with wpsProbeRespIe := x }) id

/-- `rtw_set_wps_assoc_resp` (lines 3317–3350). -/
def rtwSetWpsAssocResp (e : Env) : Driver → List UInt8 → Except Fault Outcome :=
  setWps e (fun x d => { d with wpsAssocRespIe := x }) id

/-- The SSID of an element goes through a local buffer of 33 bytes to both networks
    (lines 3380–3395). -/
def takeSsid (d : Driver) (buf : List UInt8) (ssidIe ssidLen : ℕ) : Except Fault Driver := do
  let bytes ← readBytes buf (ssidIe + 2) ssidLen
  let ssid ← (Area.zero (lengthSsid + 1)).copyIn 0 bytes
  let ssid ← ssid.copyIn (if lengthSsid < ssidLen then lengthSsid else ssidLen) [0]
  let name ← readBytes ssid.bytes 0 ssidLen
  let cur ← d.curSsid.ssid.copyIn 0 name
  let ext ← d.extSsid.ssid.copyIn 0 name
  .ok { d with curSsid := ⟨ssidLen, cur⟩, extSsid := ⟨ssidLen, ext⟩ }

/-- `rtw_set_hidden_ssid` (lines 3352–3404). -/
def rtwSetHiddenSsid (d : Driver) (param : List UInt8) : Except Fault Outcome :=
  if !d.apState then .ok ⟨eperm, d, param⟩
  else do
    let magic ← readByte param unionOff
    if magic ≠ 0xea then .ok ⟨einval, d, param⟩
    else do
      let mode ← readByte param (unionOff + 1)
      let d := { d with hiddenSsidMode := mode }
      let buf := param.drop bcnIeBuf
      let found ← getIe buf 0 (ieLen param).toNat 0
      match found with
      | none => .ok ⟨0, d, param⟩
      | some (ssidIe, ssidLen) =>
        if ssidLen = 0 then .ok ⟨0, d, param⟩
        else do
          let d ← takeSsid d buf ssidIe ssidLen
          .ok ⟨0, d, param⟩

/-- What `rtw_ioctl_acl_add_sta` and `rtw_ioctl_acl_remove_sta` share (lines 3406–3447). -/
def onAcl (d : Driver) (param : List UInt8) (f : MacAddr → WlanAclPool × ℤ) :
    Except Fault Outcome :=
  if !d.apState then .ok ⟨einval, d, param⟩
  else do
    let addr ← readBytes param staAddr 6
    if addr = broadcast then .ok ⟨einval, d, param⟩
    else .ok ⟨(f (macOf addr)).2, { d with aclList := (f (macOf addr)).1 }, param⟩

def rtwIoctlAclRemoveSta (d : Driver) (param : List UInt8) : Except Fault Outcome :=
  onAcl d param fun addr => (rtwAclRemoveSta d.aclList addr, 0)

def rtwIoctlAclAddSta (d : Driver) (param : List UInt8) : Except Fault Outcome :=
  onAcl d param fun addr => rtwAclAddSta d.aclList addr

/-- The value of an `int`. -/
def asInt (n : ℕ) : ℤ := if n < 0x80000000 then n else n - 0x100000000

/-- `rtw_ioctl_set_macaddr_acl` (lines 3449–3460). -/
def rtwIoctlSetMacaddrAcl (d : Driver) (param : List UInt8) : Except Fault Outcome :=
  if !d.apState then .ok ⟨einval, d, param⟩
  else do
    let mode ← readLe param unionOff 4
    .ok ⟨0, { d with aclList := rtwSetMacaddrAcl d.aclList (asInt mode) }, param⟩

/-! ## The dispatcher -/

/-- The values of `param->cmd` (`ieee80211.h`, lines 37–60). -/
inductive Cmd where
  | flush
  | addSta
  | removeSta
  | getInfoSta
  | getWpaieSta
  | setEncryption
  | setBeacon
  | setWpsBeacon
  | setWpsProbeResp
  | setWpsAssocResp
  | setHiddenSsid
  | setMacaddrAcl
  | aclAddSta
  | aclRemoveSta
  | other
  deriving DecidableEq, Repr

def cmdOf : ℕ → Cmd
  | 1 => .flush
  | 2 => .addSta
  | 3 => .removeSta
  | 4 => .getInfoSta
  | 5 => .getWpaieSta
  | 6 => .setEncryption
  | 16 => .setBeacon
  | 17 => .setWpsBeacon
  | 18 => .setWpsProbeResp
  | 19 => .setWpsAssocResp
  | 20 => .setHiddenSsid
  | 21 => .setMacaddrAcl
  | 22 => .aclAddSta
  | 23 => .aclRemoveSta
  | _ => .other

/-- The handler of a command (lines 3501–3563). -/
def handle (e : Env) (d : Driver) (param : List UInt8) : Cmd → Except Fault Outcome
  | .flush => .ok ⟨(e.run .rtwHostapdStaFlush d).1, (e.run .rtwHostapdStaFlush d).2, param⟩
  | .addSta => rtwAddSta e d param
  | .removeSta => rtwDelSta e d param
  | .setBeacon => rtwSetBeacon e d param
  | .setEncryption => e.rtwSetEncryption d param
  | .getWpaieSta => rtwGetStaWpaie d param
  | .setWpsBeacon => rtwSetWpsBeacon e d param
  | .setWpsProbeResp => rtwSetWpsProbeResp e d param
  | .setWpsAssocResp => rtwSetWpsAssocResp e d param
  | .setHiddenSsid => rtwSetHiddenSsid d param
  | .getInfoSta => rtwIoctlGetStaData d param
  | .setMacaddrAcl => rtwIoctlSetMacaddrAcl d param
  | .aclAddSta => rtwIoctlAclAddSta d param
  | .aclRemoveSta => rtwIoctlAclRemoveSta d param
  | .other => .ok ⟨eopnotsupp, d, param⟩

/-- `rtw_hostapd_ioctl` (lines 3462–3574) for `p->length` bytes. -/
def rtwHostapdIoctl (e : Env) (d : Driver) (data : List UInt8) : Except Fault Outcome :=
  if !d.hwInitCompleted then .ok ⟨eperm, d, data⟩
  else if !e.pointer then .ok ⟨einval, d, data⟩
  else if !e.malloc then .ok ⟨enomem, d, data⟩
  else if !e.copyFrom then .ok ⟨efault, d, data⟩
  else do
    let cmd ← readLe data 0 4
    let out ← handle e d data (cmdOf cmd)
    .ok (if out.ret = 0 ∧ !e.copyTo then { out with ret := efault } else out)

/-! ## Sequences of reads and writes -/

section sequences

variable {α : Type} {f bs : List UInt8} {d n k : ℕ} {m : ℕ}

theorem fine_readBytes (g : List UInt8 → Except Fault α) :
    Fine (readBytes f d n >>= g) ↔ Inside f d n ∧ Fine (g (bytesAt f d n)) := by
  by_cases h : Inside f d n
  · rw [readBytes_of_inside h, bind_ok, and_iff_right h]
  · rw [readBytes_of_not_inside h, bind_error]
    exact iff_of_false (not_fine_error _) fun hc => h hc.1

theorem fine_readLe (g : ℕ → Except Fault α) :
    Fine (readLe f d n >>= g) ↔ Inside f d n ∧ Fine (g (leNat (bytesAt f d n))) := by
  rw [readLe]
  by_cases h : Inside f d n
  · rw [readBytes_of_inside h, bind_ok, bind_ok, and_iff_right h]
  · rw [readBytes_of_not_inside h, bind_error, bind_error]
    exact iff_of_false (not_fine_error _) fun hc => h hc.1

theorem fine_readByte (g : UInt8 → Except Fault α) :
    Fine (readByte f d >>= g) ↔ d < f.length ∧ Fine (g (f.getD d 0)) := by
  by_cases h : d < f.length
  · rw [readByte_of_lt h, bind_ok, and_iff_right h]
  · rw [readByte_of_le (Nat.not_lt.mp h), bind_error]
    exact iff_of_false (not_fine_error _) fun hc => h hc.1

theorem fine_copyIn (a : Area m) (g : Area m → Except Fault α) :
    Fine (a.copyIn k bs >>= g) ↔ k + bs.length ≤ m ∧ Fine (g (a.put k bs)) := by
  by_cases h : k + bs.length ≤ m
  · rw [Area.copyIn_of_le a h, bind_ok, and_iff_right h]
  · rw [Area.copyIn_of_lt a (Nat.lt_of_not_le h), bind_error]
    exact iff_of_false (not_fine_error _) fun hc => h hc.1

/-- Writes change no length, so each of them is inside by itself. -/
theorem writeAll_fine_iff (param : List UInt8) (ws : List Write) :
    Fine (writeAll param ws) ↔ ∀ w ∈ ws, w.Inside param := by
  induction ws generalizing param with
  | nil => exact iff_of_true (fine_ok _) fun w hw => absurd hw List.not_mem_nil
  | cons w ws ih =>
    rw [writeAll, List.forall_mem_cons]
    by_cases hw : w.Inside param
    · have hsame : ∀ v : Write, v.Inside (overwrite param w.off w.bytes) ↔ v.Inside param := by
        intro v
        rw [Write.Inside, Write.Inside, Checked.Inside, Checked.Inside, overwrite_length]
      rw [if_pos hw, ih, and_iff_right hw]
      exact forall₂_congr fun v _ => hsame v
    · rw [if_neg hw]
      exact iff_of_false (not_fine_error _) fun hc => hw hc.1

theorem fine_writeAll {param : List UInt8} {ws : List Write} (g : List UInt8 → Outcome) :
    Fine (do let param ← writeAll param ws; .ok (g param)) ↔ ∀ w ∈ ws, w.Inside param := by
  rw [← writeAll_fine_iff, fine_bind]
  exact exists_congr fun a => and_iff_left (fine_ok _)

theorem length_bytesAt (h : Inside f d n) : (bytesAt f d n).length = n := by
  rw [bytesAt, List.length_take, List.length_drop]
  rw [Checked.Inside] at h
  omega

theorem inside_iff (hn : 0 < n) : Inside f d n ↔ d + n ≤ f.length := by
  rw [Checked.Inside]
  omega

end sequences

/-! ## Handlers that stay inside -/

/-- The handler goes on with this station. -/
def FoundSta (d : Driver) (param : List UInt8) (psta : ℕ) : Prop :=
  (d.linked = true ∨ d.apState = true) ∧ bytesAt param staAddr 6 ≠ broadcast ∧
    d.stainfo (macOf (bytesAt param staAddr 6)) = some psta

section handlers

variable {e : Env} {d : Driver} {param : List UInt8}

theorem onStation_iff {absent : ℤ} {found : ℕ → Except Fault Outcome} :
    Fine (onStation d param absent found) ↔
      10 ≤ param.length ∧ ∀ psta, FoundSta d param psta → Fine (found psta) := by
  rw [onStation, fine_readBytes, inside_iff (by decide)]
  refine and_congr_right fun _ => ?_
  have hbool : (!(d.linked || d.apState)) = true ↔ ¬ (d.linked = true ∨ d.apState = true) := by
    rw [Bool.not_eq_true', ← Bool.not_eq_true, Bool.or_eq_true]
  by_cases hstate : d.linked = true ∨ d.apState = true
  · rw [if_neg fun h => hbool.mp h hstate]
    by_cases haddr : bytesAt param staAddr 6 = broadcast
    · rw [if_pos haddr]
      exact iff_of_true (fine_ok _) fun psta h => absurd haddr h.2.1
    · rw [if_neg haddr]
      cases hsta : d.stainfo (macOf (bytesAt param staAddr 6)) with
      | none =>
        refine iff_of_true (fine_ok _) fun psta h => ?_
        have hsome := h.2.2
        rw [hsta] at hsome
        cases hsome
      | some psta =>
        constructor
        · intro hfine psta' h
          obtain rfl := Option.some.inj (hsta.symm.trans h.2.2)
          exact hfine
        · exact fun h => h psta ⟨hstate, haddr, hsta⟩
  · rw [if_pos (hbool.mpr hstate)]
    exact iff_of_true (fine_ok _) fun psta h => absurd h.1 hstate

/-- The flags of `add_sta`. -/
def addFlags (param : List UInt8) : ℕ := leNat (bytesAt param addStaFlags 4)

theorem readHtCap_iff {α : Type} {flags : ℕ} {old : Area htCapSize}
    {g : Area htCapSize → Except Fault α} (hg : ∀ a, Fine (g a)) :
    Fine (readHtCap param flags old >>= g) ↔ (flags.testBit 11 = true → 62 ≤ param.length) := by
  rw [readHtCap]
  by_cases hht : flags.testBit 11 = true
  · rw [if_pos hht, forall_prop_of_true hht, fine_bind]
    constructor
    · rintro ⟨a, ha, -⟩
      exact (inside_iff (by decide)).mp ((fine_readBytes _).mp ⟨a, ha⟩).1
    · intro hlen
      have hin : Inside param addStaHtCap htCapSize := (inside_iff (by decide)).mpr hlen
      rw [readBytes_of_inside hin, bind_ok,
        Area.copyIn_of_le _ (by rw [length_bytesAt hin]; decide)]
      exact ⟨_, rfl, hg _⟩
  · rw [if_neg hht, bind_ok]
    exact iff_of_true (hg old) fun h => absurd h hht

theorem addSta_iff :
    Fine (rtwAddSta e d param) ↔
      14 ≤ param.length ∧ ∀ psta, FoundSta d param psta →
        36 ≤ param.length ∧ ((addFlags param).testBit 11 = true → 62 ≤ param.length) := by
  rw [rtwAddSta, fine_readLe, inside_iff (by decide), onStation_iff]
  have hlen : unionOff + 2 ≤ param.length ∧ 10 ≤ param.length ↔ 14 ≤ param.length := by
    rw [unionOff]
    omega
  rw [← and_assoc, hlen]
  refine and_congr_right fun h14 => forall₂_congr fun psta _ => ?_
  rw [fine_readLe, fine_readLe, fine_readBytes, fine_copyIn, readHtCap_iff fun a => fine_ok _]
  constructor
  · rintro ⟨-, -, hrates, -, hht⟩
    exact ⟨(inside_iff (by decide)).mp hrates, hht⟩
  · rintro ⟨h36, hht⟩
    have hrates : Inside param addStaRates 16 := (inside_iff (by decide)).mpr h36
    refine ⟨(inside_iff (by decide)).mpr ?_, (inside_iff (by decide)).mpr h14, hrates, ?_, hht⟩
    · rw [addStaFlags]
      omega
    · rw [length_bytesAt hrates]

theorem delSta_iff : Fine (rtwDelSta e d param) ↔ 10 ≤ param.length := by
  rw [rtwDelSta, onStation_iff]
  exact and_iff_left fun psta _ => fine_ok _

theorem leBytes_length (n v : ℕ) : (leBytes n v).length = n := by
  rw [leBytes, List.length_map, List.length_range]

theorem putLe_inside {off n v : ℕ} (hn : 0 < n) :
    (putLe off n v).Inside param ↔ off + n ≤ param.length := by
  rw [Write.Inside, putLe, leBytes_length, and_iff_right (Nat.le_refl n), inside_iff hn]

theorem staData_iff :
    Fine (rtwIoctlGetStaData d param) ↔
      10 ≤ param.length ∧ ∀ psta, FoundSta d param psta →
        (d.sta psta).bssratelen ≤ 16 ∧ 122 ≤ param.length := by
  rw [rtwIoctlGetStaData, onStation_iff]
  refine and_congr_right fun h10 => forall₂_congr fun psta _ => ?_
  rw [fine_readBytes, fine_writeAll]
  have hrates : Inside (d.sta psta).bssrateset.bytes 0 (d.sta psta).bssratelen ↔
      (d.sta psta).bssratelen ≤ 16 := by
    rw [Checked.Inside, (d.sta psta).bssrateset.length_eq]
    omega
  rw [← hrates]
  refine and_congr_right fun hin => ?_
  have hle := hrates.mp hin
  have hlen := length_bytesAt hin
  constructor
  · intro h
    exact (putLe_inside (by decide)).mp
      (h (putLe (exData + 104) 8 (d.sta psta).txDrops) (by simp [staDataWrites]))
  · intro h122
    have hput : ∀ off n v, 0 < n → off + n ≤ 122 → (putLe off n v).Inside param :=
      fun off n v hn hle => (putLe_inside hn).mpr (Nat.le_trans hle h122)
    have hraw : ∀ (off size : ℕ) (bs : List UInt8), bs.length ≤ size → off + size ≤ 122 →
        Write.Inside param ⟨off, size, bs⟩ :=
      fun off size bs hbs hle => ⟨hbs, .inr (show off + bs.length ≤ param.length by omega)⟩
    intro w hw
    simp only [staDataWrites, List.mem_cons, List.not_mem_nil, or_false] at hw
    rcases hw with rfl | rfl | rfl | rfl | rfl | rfl | rfl | rfl | rfl | rfl | rfl | rfl | rfl
    all_goals first
      | exact hput _ _ _ (by decide) (by decide)
      | exact hraw _ _ _ (by rw [hlen]; exact hle) (by decide)
      | exact hraw _ _ _ (Nat.le_of_eq (d.sta psta).htCap.length_eq) (by decide)

/-- `copy_len` is at most the size of the element. -/
theorem copyLen_bounds {s : Station} {n : ℕ} (h : s.copyLen = some n) : 0 < n ∧ n ≤ 32 := by
  rw [Station.copyLen] at h
  split_ifs at h
  · obtain rfl := Option.some.inj h
    decide
  · obtain rfl := Option.some.inj h
    omega

theorem wpaie_iff :
    Fine (rtwGetStaWpaie d param) ↔
      10 ≤ param.length ∧ ∀ psta, FoundSta d param psta →
        ∀ n, (d.sta psta).copyLen = some n → 16 + n ≤ param.length := by
  rw [rtwGetStaWpaie, onStation_iff]
  refine and_congr_right fun h10 => forall₂_congr fun psta _ => ?_
  cases hcopy : (d.sta psta).copyLen with
  | none => exact iff_of_true (fine_ok _) fun n h => by cases h
  | some n =>
    obtain ⟨hpos, hle⟩ := copyLen_bounds hcopy
    have hin : Inside (d.sta psta).wpaIe.bytes 0 n := by
      rw [Checked.Inside, (d.sta psta).wpaIe.length_eq]
      omega
    have hlen := length_bytesAt hin
    have hreserved : Write.Inside param
        ⟨wpaIeReserved, 32, bytesAt (d.sta psta).wpaIe.bytes 0 n⟩ ↔
          wpaIeReserved + n ≤ param.length := by
      rw [Write.Inside, hlen, and_iff_right hle, inside_iff hpos]
    have hboth : unionOff + 4 ≤ param.length ∧ wpaIeReserved + n ≤ param.length ↔
        wpaIeReserved + n ≤ param.length := by
      rw [unionOff, wpaIeReserved]
      omega
    have hwrites : (∀ w ∈ [putLe unionOff 4 n, ⟨wpaIeReserved, 32,
        bytesAt (d.sta psta).wpaIe.bytes 0 n⟩], w.Inside param) ↔
          wpaIeReserved + n ≤ param.length := by
      rw [List.forall_mem_cons, List.forall_mem_singleton, putLe_inside (by decide), hreserved,
        hboth]
    refine ((fine_readBytes _).trans ((and_iff_right hin).trans (fine_writeAll _))).trans
      (hwrites.trans ?_)
    constructor
    · intro h n' hn'
      obtain rfl := Option.some.inj hn'
      exact h
    · exact fun h => h n rfl

/-- A handler that is only for an access point. -/
theorem apOnly_iff {ret : ℤ} {x : Except Fault Outcome} :
    Fine (if (!d.apState) = true then .ok ⟨ret, d, param⟩ else x) ↔
      (d.apState = true → Fine x) := by
  by_cases hap : d.apState = true
  · rw [hap, if_neg (by decide), forall_prop_of_true rfl]
  · rw [Bool.not_eq_true] at hap
    rw [hap, if_pos (by decide)]
    exact iff_of_true (fine_ok _) fun h => Bool.noConfusion h

theorem acl_iff {f : MacAddr → WlanAclPool × ℤ} :
    Fine (onAcl d param f) ↔ (d.apState = true → 10 ≤ param.length) := by
  rw [onAcl, apOnly_iff, fine_readBytes, inside_iff (by decide)]
  refine forall_congr' fun _ => and_iff_left ?_
  split_ifs
  · exact fine_ok _
  · exact fine_ok _

theorem macaddrAcl_iff :
    Fine (rtwIoctlSetMacaddrAcl d param) ↔ (d.apState = true → 16 ≤ param.length) := by
  rw [rtwIoctlSetMacaddrAcl, apOnly_iff, fine_readLe, inside_iff (by decide)]
  exact forall_congr' fun _ => and_iff_left (fine_ok _)

/-- A request with a WPS element, or none, behind the header. -/
theorem setWps_iff {store : Option (List UInt8) → Driver → Driver} {after : Driver → Driver} :
    Fine (setWps e store after d param) := by
  rw [setWps, apOnly_iff]
  intro _
  by_cases hpos : 0 < ieLen param
  · rw [if_pos hpos]
    split_ifs
    · exact fine_ok _
    · rw [fine_readBytes]
      refine ⟨.inr ?_, fine_ok _⟩
      rw [ieLen] at hpos ⊢
      rw [bcnIeBuf]
      omega
  · rw [if_neg hpos]
    exact fine_ok _

/-- A beacon that is behind the header. -/
theorem checkBeacon_fine (h14 : 14 ≤ param.length) :
    Fine (rtwCheckBeaconData e d param (ieLen param)) := by
  have hlen : ieLen param = (param.length - 14 : ℕ) := by
    rw [ieLen]
    omega
  rw [rtwCheckBeaconData, hlen]
  by_cases hap : (!d.apState) = true
  · rw [if_pos hap]
    exact fine_ok _
  · rw [if_neg hap]
    by_cases hlong : (maxIeSz : ℤ) < (param.length - 14 : ℕ)
    · rw [if_pos hlong]
      exact fine_ok _
    · have hin : Inside param bcnIeBuf (param.length - 14) := by
        right
        rw [bcnIeBuf]
        omega
      rw [if_neg hlong, if_neg (by omega), Int.toNat_natCast, readBytes_of_inside hin, bind_ok,
        Area.copyIn_of_le _ (by rw [length_bytesAt hin]; omega), bind_ok]
      dsimp only
      split_ifs
      · exact fine_ok _
      · exact fine_ok _

theorem setBeacon_iff :
    Fine (rtwSetBeacon e d param) ↔ (d.apState = true → 14 ≤ param.length) := by
  rw [rtwSetBeacon, apOnly_iff]
  refine forall_congr' fun hap => ?_
  rw [fine_readLe, inside_iff (by decide)]
  refine and_iff_left_of_imp fun h14 => ?_
  have hfine := @checkBeacon_fine e { d with
    maxNumSta :=
      if numSta < leNat (bytesAt param unionOff 2) ∨ leNat (bytesAt param unionOff 2) = 0 then
        numSta
      else leNat (bytesAt param unionOff 2) } param h14
  obtain ⟨r, hr⟩ := hfine
  exact fine_bind.mpr ⟨r, hr, fine_ok _⟩

/-- An SSID that is behind `bcn_ie.buf` and has room in the fields. -/
theorem takeSsid_iff {buf : List UInt8} {ssidIe ssidLen : ℕ} (hpos : 0 < ssidLen) :
    Fine (takeSsid d buf ssidIe ssidLen) ↔
      ssidIe + 2 + ssidLen ≤ buf.length ∧ ssidLen ≤ lengthSsid := by
  rw [takeSsid, fine_readBytes, inside_iff hpos]
  refine and_congr_right fun hbuf => ?_
  have hlen := length_bytesAt ((inside_iff hpos).mpr hbuf)
  rw [fine_copyIn, hlen, Nat.zero_add]
  constructor
  · rintro ⟨-, h⟩
    rw [fine_copyIn, fine_readBytes] at h
    obtain ⟨-, hname, h⟩ := h
    rw [fine_copyIn, length_bytesAt hname, Nat.zero_add] at h
    exact h.1
  · intro hle
    have hname : ∀ a : Area (lengthSsid + 1), Inside a.bytes 0 ssidLen := fun a => by
      rw [inside_iff hpos, a.length_eq]
      omega
    have hput : ∀ a : Area (lengthSsid + 1), 0 + (bytesAt a.bytes 0 ssidLen).length ≤ lengthSsid :=
      fun a => by
        rw [length_bytesAt (hname a)]
        omega
    refine ⟨Nat.le_succ_of_le hle, (fine_copyIn _ _).mpr ⟨?_, (fine_readBytes _).mpr ⟨hname _, ?_⟩⟩⟩
    · rw [if_neg (Nat.not_lt.mpr hle), List.length_singleton]
      omega
    · exact (fine_copyIn _ _).mpr ⟨hput _, (fine_copyIn _ _).mpr ⟨hput _, fine_ok _⟩⟩

/-- The search for the SSID comes to its end, and the SSID that is found is there and has room. -/
def SsidFits (buf : List UInt8) : Prop :=
  LookFits 0 (parse buf).1 (parse buf).2 ∧
    ∀ n s, hit 0 (parse buf).1 (parse buf).2 = some (n, s) → n ≤ s.length ∧ n ≤ lengthSsid

theorem hiddenSsid_iff :
    Fine (rtwSetHiddenSsid d param) ↔ (d.apState = true → 13 ≤ param.length ∧
      (param.getD unionOff 0 = 0xea → 14 ≤ param.length ∧ SsidFits (param.drop bcnIeBuf))) := by
  rw [rtwSetHiddenSsid, apOnly_iff, fine_readByte, unionOff]
  refine forall_congr' fun _ => and_congr_right fun _ => ?_
  by_cases hmagic : param.getD 12 0 = 0xea
  · rw [if_neg (not_not.mpr hmagic), fine_readByte, forall_prop_of_true hmagic]
    refine and_congr_right fun h14 => ?_
    obtain ⟨es, t, hbuf, ht⟩ := exists_parse (param.drop bcnIeBuf)
    have hlen : (ieLen param).toNat = (param.drop bcnIeBuf).length := by
      rw [ieLen, List.length_drop, bcnIeBuf]
      omega
    obtain ⟨hin, hout⟩ := @getIe_found (param.drop bcnIeBuf) t 0 es hbuf ht
    have hparse : parse (param.drop bcnIeBuf) = (es, t) := by
      rw [hbuf, parse_append es ht]
    simp only [SsidFits, hparse, hlen]
    by_cases hlook : LookFits 0 es t
    · rw [and_iff_right hlook]
      have hfound := hin hlook
      cases hhit : hit 0 es t with
      | none =>
        rw [hhit] at hfound
        rw [show Mlme.getIe _ 0 _ 0 = _ from hfound, bind_ok]
        exact iff_of_true (fine_ok _) fun n s h => by cases h
      | some r =>
        obtain ⟨n, s⟩ := r
        rw [hhit] at hfound
        obtain ⟨pre, id, len, hf, rfl, hget⟩ := hfound
        rw [hget, bind_ok]
        have hall : (∀ n s', some (len.toNat, s) = some (n, s') → n ≤ s'.length ∧ n ≤ lengthSsid) ↔
            len.toNat ≤ s.length ∧ len.toNat ≤ lengthSsid := by
          simp only [Option.some_inj, Prod.mk.injEq, and_imp, forall_eq', forall_apply_eq_imp_iff]
        rw [hall]
        dsimp only
        by_cases hzero : len.toNat = 0
        · rw [if_pos hzero, hzero]
          exact iff_of_true (fine_ok _) ⟨Nat.zero_le _, Nat.zero_le _⟩
        · have hroom : pre.length + 2 + len.toNat ≤ (param.drop 14).length ↔
              len.toNat ≤ s.length := by
            rw [show param.drop 14 = _ from hf, List.length_append, List.length_cons,
              List.length_cons]
            omega
          rw [if_neg hzero, ← hroom, ← takeSsid_iff (d := { d with hiddenSsidMode := _ })
            (Nat.pos_of_ne_zero hzero), fine_bind]
          exact exists_congr fun a => and_iff_left (fine_ok _)
    · rw [hout hlook, bind_error]
      exact iff_of_false (not_fine_error _) fun h => hlook h.1
  · rw [if_pos hmagic]
    exact iff_of_true (fine_ok _) fun h => absurd h hmagic

end handlers

/-! ## Requests -/

/-- The command of a request. -/
def reqCmd (data : List UInt8) : Cmd := cmdOf (leNat (bytesAt data 0 4))

/-- The request is copied and handled. -/
def Enters (e : Env) (d : Driver) : Prop :=
  d.hwInitCompleted = true ∧ e.pointer = true ∧ e.malloc = true ∧ e.copyFrom = true

/-- Handlers that subtract the header from the length. -/
def Cmd.Subtracts : Cmd → Prop
  | .setBeacon | .setWpsBeacon | .setWpsProbeResp | .setWpsAssocResp | .setHiddenSsid => True
  | _ => False

/-- A length that is less than the header is refused. -/
def ShortRefused (d : Driver) (data : List UInt8) (c : Cmd) (x : Except Fault Outcome) : Prop :=
  c.Subtracts → data.length < 14 → ∀ out, x = .ok out → out.ret ≠ 0 ∧ out.drv = d

/-- Nothing is read or written outside, and a length is refused before too much is subtracted
    from it. -/
def Right (e : Env) (d : Driver) (data : List UInt8) : Prop :=
  Fine (rtwHostapdIoctl e d data) ∧
    (Enters e d → ShortRefused d data (reqCmd data) (handle e d data (reqCmd data)))

/-- What a handler relies on without looking. -/
def HandlerFits (e : Env) (d : Driver) (data : List UInt8) : Cmd → Prop
  | .flush | .other => True
  | .addSta => 14 ≤ data.length ∧ ∀ psta, FoundSta d data psta →
      36 ≤ data.length ∧ ((addFlags data).testBit 11 = true → 62 ≤ data.length)
  | .removeSta => 10 ≤ data.length
  | .getInfoSta => 10 ≤ data.length ∧ ∀ psta, FoundSta d data psta →
      (d.sta psta).bssratelen ≤ 16 ∧ 122 ≤ data.length
  | .getWpaieSta => 10 ≤ data.length ∧ ∀ psta, FoundSta d data psta →
      ∀ n, (d.sta psta).copyLen = some n → 16 + n ≤ data.length
  | .setEncryption => Fine (e.rtwSetEncryption d data)
  | .setBeacon | .setWpsBeacon | .setWpsProbeResp | .setWpsAssocResp =>
      d.apState = true → 14 ≤ data.length
  | .setHiddenSsid => d.apState = true → 13 ≤ data.length ∧
      (data.getD unionOff 0 = 0xea → 14 ≤ data.length ∧ SsidFits (data.drop bcnIeBuf))
  | .setMacaddrAcl => d.apState = true → 16 ≤ data.length
  | .aclAddSta | .aclRemoveSta => d.apState = true → 10 ≤ data.length

/-- The driver is not there, or the request has a command and fits its handler. -/
def Fits (e : Env) (d : Driver) (data : List UInt8) : Prop :=
  Enters e d → 4 ≤ data.length ∧ HandlerFits e d data (reqCmd data)

section requests

variable {e : Env} {d : Driver} {data : List UInt8}

/-- What an access point's handler does in another state. -/
theorem refused_of_not_ap {c : Cmd} {ret : ℤ} {x : Except Fault Outcome} (hret : ret ≠ 0)
    (hap : ¬ d.apState = true) :
    ShortRefused d data c (if (!d.apState) = true then .ok ⟨ret, d, data⟩ else x) := by
  intro _ _ out hout
  rw [Bool.not_eq_true] at hap
  rw [hap, if_pos (by decide)] at hout
  obtain rfl := Except.ok.inj hout
  exact ⟨hret, rfl⟩

/-- A request without a whole header for a WPS element frees the old one. -/
theorem setWps_refused_iff {c : Cmd} (hc : c.Subtracts)
    {store : Option (List UInt8) → Driver → Driver} {after : Driver → Driver} :
    ShortRefused d data c (setWps e store after d data) ↔
      (d.apState = true → 14 ≤ data.length) := by
  by_cases hap : d.apState = true
  · rw [forall_prop_of_true hap]
    constructor
    · intro h
      by_contra hlen
      have hpos : ¬ 0 < ieLen data := by
        rw [ieLen]
        omega
      refine (h hc (Nat.lt_of_not_le hlen) ⟨0, store none d, data⟩ ?_).1 rfl
      rw [setWps, hap, if_neg (by decide)]
      exact if_neg hpos
    · exact fun hlen _ hlt => absurd hlt (Nat.not_lt.mpr hlen)
  · rw [setWps]
    exact iff_of_true (refused_of_not_ap (by decide) hap) fun h => absurd h hap

theorem setWps_right_iff {c : Cmd} (hc : c.Subtracts)
    {store : Option (List UInt8) → Driver → Driver} {after : Driver → Driver} :
    Fine (setWps e store after d data) ∧ ShortRefused d data c (setWps e store after d data) ↔
      (d.apState = true → 14 ≤ data.length) :=
  (and_iff_right setWps_iff).trans (setWps_refused_iff hc)

/-- A short beacon is not even read. -/
theorem setBeacon_right_iff {c : Cmd} :
    Fine (rtwSetBeacon e d data) ∧ ShortRefused d data c (rtwSetBeacon e d data) ↔
      (d.apState = true → 14 ≤ data.length) := by
  rw [setBeacon_iff]
  refine and_iff_left_of_imp fun hfit => ?_
  by_cases hap : d.apState = true
  · exact fun _ hlt => absurd (hfit hap) (Nat.not_le.mpr hlt)
  · rw [rtwSetBeacon]
    exact refused_of_not_ap (by decide) hap

theorem hiddenSsid_right_iff {c : Cmd} :
    Fine (rtwSetHiddenSsid d data) ∧ ShortRefused d data c (rtwSetHiddenSsid d data) ↔
      HandlerFits e d data .setHiddenSsid := by
  rw [hiddenSsid_iff]
  refine and_iff_left_of_imp fun hfit => ?_
  by_cases hap : d.apState = true
  · obtain ⟨h13, hmagic⟩ := hfit hap
    intro _ hlt out hout
    have hno : data.getD unionOff 0 ≠ 0xea := fun h => Nat.not_le.mpr hlt (hmagic h).1
    have hread : readByte data unionOff = .ok (data.getD unionOff 0) :=
      readByte_of_lt (Nat.lt_of_succ_le h13)
    rw [rtwSetHiddenSsid, hap, if_neg (by decide), hread, bind_ok, if_pos hno] at hout
    obtain rfl := Except.ok.inj hout
    exact ⟨show einval ≠ 0 by decide, rfl⟩
  · rw [rtwSetHiddenSsid]
    exact refused_of_not_ap (by decide) hap

/-- One case for each command. -/
theorem handle_right_iff (c : Cmd) :
    Fine (handle e d data c) ∧ ShortRefused d data c (handle e d data c) ↔
      HandlerFits e d data c := by
  have hall : ∀ {c : Cmd} {x : Except Fault Outcome}, ¬ c.Subtracts → ShortRefused d data c x :=
    fun hc h => absurd h hc
  cases c with
  | flush => exact iff_of_true ⟨fine_ok _, hall id⟩ trivial
  | other => exact iff_of_true ⟨fine_ok _, hall id⟩ trivial
  | addSta => exact (and_iff_left (hall id)).trans addSta_iff
  | removeSta => exact (and_iff_left (hall id)).trans delSta_iff
  | getInfoSta => exact (and_iff_left (hall id)).trans staData_iff
  | getWpaieSta => exact (and_iff_left (hall id)).trans wpaie_iff
  | setEncryption => exact and_iff_left (hall id)
  | setBeacon => exact setBeacon_right_iff
  | setWpsBeacon =>
    rw [handle, rtwSetWpsBeacon]
    exact setWps_right_iff (c := .setWpsBeacon) trivial
  | setWpsProbeResp =>
    rw [handle, rtwSetWpsProbeResp]
    exact setWps_right_iff (c := .setWpsProbeResp) trivial
  | setWpsAssocResp =>
    rw [handle, rtwSetWpsAssocResp]
    exact setWps_right_iff (c := .setWpsAssocResp) trivial
  | setHiddenSsid => exact hiddenSsid_right_iff
  | setMacaddrAcl => exact (and_iff_left (hall id)).trans macaddrAcl_iff
  | aclAddSta => exact (and_iff_left (hall id)).trans (acl_iff (f := rtwAclAddSta d.aclList))
  | aclRemoveSta =>
    exact (and_iff_left (hall id)).trans
      (acl_iff (f := fun addr => (rtwAclRemoveSta d.aclList addr, 0)))

theorem not_enters (h : ¬ Enters e d) : Fine (rtwHostapdIoctl e d data) := by
  rw [rtwHostapdIoctl]
  split_ifs with h1 h2 h3 h4
  · exact fine_ok _
  · exact fine_ok _
  · exact fine_ok _
  · exact fine_ok _
  · refine absurd ⟨?_, ?_, ?_, ?_⟩ h
    · simpa using h1
    · simpa using h2
    · simpa using h3
    · simpa using h4

theorem hostapdIoctl_fine_iff (h : Enters e d) :
    Fine (rtwHostapdIoctl e d data) ↔
      4 ≤ data.length ∧ Fine (handle e d data (reqCmd data)) := by
  obtain ⟨h1, h2, h3, h4⟩ := h
  have hno : ¬ (!true) = true := by decide
  rw [rtwHostapdIoctl, h1, h2, h3, h4, if_neg hno, if_neg hno, if_neg hno, if_neg hno,
    fine_readLe, inside_iff (by decide), fine_bind, Nat.zero_add]
  exact and_congr_right fun _ => exists_congr fun a => and_iff_left (fine_ok _)

variable (e d data) in
theorem hostapd_right_iff : Right e d data ↔ Fits e d data := by
  rw [Right, Fits]
  by_cases h : Enters e d
  · rw [forall_prop_of_true h, forall_prop_of_true h, hostapdIoctl_fine_iff h, and_assoc,
      handle_right_iff]
  · exact iff_of_true ⟨not_enters h, fun hc => absurd hc h⟩ fun hc => absurd hc h

end requests

/-! ## A hidden SSID of 33 bytes -/

/-- An access point without stations, whose callees do nothing. -/
def idleStation : Station where
  aid := 0
  capability := 0
  flags := 0
  nonerpSet := 0
  noShortSlotTimeSet := 0
  noShortPreambleSet := 0
  noHtGfSet := 0
  noHtSet := 0
  ht20mhzSet := 0
  bssrateset := .zero 16
  bssratelen := 0
  qosOption := 0
  htOption := false
  htCap := .zero htCapSize
  rxDataPkts := 0
  rxBytes := 0
  rxDrops := 0
  txPkts := 0
  txBytes := 0
  txDrops := 0
  wpaIe := .zero 32

def idleAp : Driver where
  hwInitCompleted := true
  apState := true
  linked := false
  apMode := true
  qosOption := 0
  htOption := false
  stainfo _ := none
  sta _ := idleStation
  maxNumSta := numSta
  ieLength := 0
  ies := .zero maxIeSz
  wpsBeaconIe := none
  wpsProbeRespIe := none
  wpsAssocRespIe := none
  bstartBss := true
  hiddenSsidMode := 0
  curSsid := ⟨0, .zero lengthSsid⟩
  extSsid := ⟨0, .zero lengthSsid⟩
  aclList :=
    { mode := 0
      num := 0
      aclnode := fun _ => { addr := macOf [], valid := false }
      aclNodeQ := [] }

def idleEnv : Env where
  pointer := true
  malloc := true
  copyFrom := true
  copyTo := true
  mallocWps := true
  run _ d := (1, d)
  rtwSetEncryption d param := .ok ⟨0, d, param⟩

/-- `RTL871X_HOSTAPD_SET_HIDDEN_SSID` with an SSID element of 33 bytes. -/
def longSsid : List UInt8 :=
  [20, 0, 0, 0] ++ List.replicate 8 0 ++ [0xea, 1] ++ [0, 33] ++ List.replicate 33 0x41

/-- The local buffer has room for it, the SSID of the network has not. -/
theorem longSsid_beyond : ¬ Right idleEnv idleAp longSsid := by
  rintro ⟨⟨out, hout⟩, -⟩
  have hfault : rtwHostapdIoctl idleEnv idleAp longSsid = .error .beyond := rfl
  rw [hfault] at hout
  cases hout

end Rtl8821au.Ap.HostapdIoctl
