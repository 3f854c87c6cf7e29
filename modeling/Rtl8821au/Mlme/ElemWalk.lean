import Mathlib.Algebra.Group.Nat.Defs
import Rtl8821au.Lib.Checked
import Rtl8821au.Lib.Elements

/-!
# Element loops over received frames

The loops over the elements of association responses, beacons and association requests
(`rtw_mlme_ext.c`, `rtw_wlan_util.c`), with what they and the handlers of the elements read of
the frame. A frame is its bytes; every read is checked against its end.

* `loop_ne_timeout`, `wmmSearch_ne_timeout`: every loop ends.
* `walks_inside_iff`: when none of them reads behind the frame.

`_rtw_memcmp` is counted as reading all its bytes. The bounds are unsigned differences, which
wrap for a frame that is too short.
-/

namespace Rtl8821au.Mlme

open Checked Elements

/-! ## Handlers of elements -/

/-- `HT_IOT_PEER_E` as far as `check_assoc_AP` returns it. -/
inductive IotPeer where
  | unknown
  | realtek
  | realtek92se
  | broadcom
  | ralink
  | atheros
  | cisco
  | marvell
  | realtekSoftap
  | airgo
  | realtekJaguarBcutap
  | realtekJaguarCcutap
  deriving DecidableEq, Repr

/-- What the handlers look at of the driver, and `cur_bwmode`, `cur_ch_offset`,
    `assoc_AP_vendor`, which they set. -/
structure ElemState where
  htOption : Bool
  vhtOption : Bool
  qosOption : Bool
  curBwmode : ℕ := 0
  curChOffset : ℕ := 0
  assocApVendor : IotPeer := .unknown
  deriving DecidableEq, Repr

/-- `WMM_PARA_OUI`. -/
def wmmParaOui : List UInt8 := [0x00, 0x50, 0xf2, 0x02, 0x01, 0x01]

/-- The memory comparison with `WMM_PARA_OUI` and `WMM_param_handler`, which copies 18 bytes
    (`rtw_wlan_util.c`, lines 643–658). -/
def wmmParamHandler (f : List UInt8) (s : ElemState) (i : ℕ) :
    Except Fault (ElemState × Bool) := do
  let oui ← readBytes f (i + 2) 6
  if oui = wmmParaOui ∧ s.qosOption then do
    let _ ← readBytes f (i + 8) 18
    .ok (s, false)
  else .ok (s, false)

/-- `HT_caps_handler` (lines 896–974) reads as many bytes as the length says. -/
def htCapsHandler (f : List UInt8) (s : ElemState) (i : ℕ) :
    Except Fault (ElemState × Bool) :=
  if !s.htOption then .ok (s, false)
  else do
    let length ← readByte f (i + 1)
    let _ ← readBytes f (i + 2) length.toNat
    .ok (s, false)

/-- `sizeof(struct HT_info_element)`. -/
def htInfoSize : ℕ := 22

/-- `HT_info_handler` (lines 976–994). -/
def htInfoHandler (f : List UInt8) (s : ElemState) (i : ℕ) :
    Except Fault (ElemState × Bool) :=
  if !s.htOption then .ok (s, false)
  else do
    let length ← readByte f (i + 1)
    if htInfoSize < length.toNat then .ok (s, false)
    else do
      let _ ← readBytes f (i + 2) length.toNat
      .ok (s, false)

/-- `VHT_caps_handler` (`rtw_vht.c`, lines 215–306): the last byte that is read is the second of
    the receive map at 4. -/
def vhtCapsHandler (f : List UInt8) (s : ElemState) (i : ℕ) :
    Except Fault (ElemState × Bool) :=
  if !s.vhtOption then .ok (s, false)
  else do
    let _ ← readBytes f (i + 2) 6
    .ok (s, false)

/-- `VHT_operation_handler` (lines 308–328). -/
def vhtOperationHandler (f : List UInt8) (s : ElemState) (i : ℕ) :
    Except Fault (ElemState × Bool) :=
  if !s.vhtOption then .ok (s, false)
  else do
    let _ ← readBytes f (i + 2) 1
    .ok (s, false)

/-- `ERP_IE_handler` (`rtw_wlan_util.c`, lines 1032–1042). -/
def erpIeHandler (f : List UInt8) (s : ElemState) (i : ℕ) :
    Except Fault (ElemState × Bool) := do
  let length ← readByte f (i + 1)
  if 1 < length.toNat then .ok (s, false)
  else do
    let _ ← readBytes f (i + 2) length.toNat
    .ok (s, false)

/-- The bandwidth and the channel offset in `infos[0]` (lines 820–843); `cbw40_enable` is 1 on
    all channels. -/
def newBwmode (infos0 : UInt8) : ℕ × ℕ :=
  if infos0 &&& 4 ≠ 0 then (1, if infos0 &&& 3 = 1 then 1 else if infos0 &&& 3 = 3 then 2 else 0)
  else (0, 0)

/-- `bwmode_update_check` (lines 788–891). -/
def bwmodeUpdateCheck (f : List UInt8) (s : ElemState) (i : ℕ) :
    Except Fault (ElemState × Bool) :=
  if !s.htOption then .ok (s, false)
  else if 2 ≤ s.curBwmode then .ok (s, false)
  else do
    let length ← readByte f (i + 1)
    if htInfoSize < length.toNat then .ok (s, false)
    else do
      let infos0 ← readByte f (i + 3)
      if newBwmode infos0 ≠ (s.curBwmode, s.curChOffset) then
        htInfoHandler f
          { s with curBwmode := (newBwmode infos0).1, curChOffset := (newBwmode infos0).2 } i
      else .ok (s, false)

/-- The channel number of an announcement (lines 1338–1341). -/
def csaHandler (f : List UInt8) (s : ElemState) (i : ℕ) : Except Fault (ElemState × Bool) := do
  let _ ← readByte f (i + 3)
  .ok (s, false)

/-- `REALTEK_OUI`. -/
def realtekOui : List UInt8 := [0x00, 0xe0, 0x4c]

/-- The vendors but Realtek, in the order in which they are compared (lines 1698–1766);
    `BROADCOM_OUI2` stands for `BROADCOM_OUI3` too. -/
def vendorOf (oui : List UInt8) : IotPeer :=
  if oui = [0x00, 0x03, 0x7f] ∨ oui = [0x00, 0x13, 0x74] then .atheros
  else if oui = [0x00, 0x10, 0x18] ∨ oui = [0x00, 0x0a, 0xf7] then .broadcom
  else if oui = [0x00, 0x50, 0x43] then .marvell
  else if oui = [0x00, 0x0c, 0x43] then .ralink
  else if oui = [0x00, 0x40, 0x96] then .cisco
  else if oui = [0x00, 0x0a, 0xf5] then .airgo
  else .unknown

/-- The kinds of Realtek peers by the bytes 4, 5 and 6 of the data (lines 1726–1755). -/
def realtekPeer (b4 b5 b6 : UInt8) : IotPeer :=
  let vender := if b4 = 1 ∧ b5 &&& 0x20 ≠ 0 then IotPeer.realtek92se else .realtek
  let vender := if b5 &&& 0x10 ≠ 0 then .realtekSoftap else vender
  if b4 = 2 then
    if b6 &&& 4 ≠ 0 then .realtekJaguarCcutap
    else if b6 &&& 2 ≠ 0 then .realtekJaguarBcutap
    else vender
  else vender

/-- The vendor specific element in `check_assoc_AP` (lines 1696–1769). -/
def vendorHandler (f : List UInt8) (s : ElemState) (i : ℕ) :
    Except Fault (ElemState × Bool) := do
  let oui ← readBytes f (i + 2) 3
  if oui = realtekOui then do
    let length ← readByte f (i + 1)
    if length.toNat < 5 then .ok ({ s with assocApVendor := .realtek }, true)
    else do
      let b4 ← readByte f (i + 6)
      let b5 ← readByte f (i + 7)
      if b4 = 2 then do
        let b6 ← readByte f (i + 8)
        .ok ({ s with assocApVendor := realtekPeer b4 b5 b6 }, true)
      else .ok ({ s with assocApVendor := realtekPeer b4 b5 0 }, true)
  else if vendorOf oui = .unknown then .ok (s, false)
  else .ok ({ s with assocApVendor := vendorOf oui }, true)

/-! ## What they read -/

section handlers

variable {f : List UInt8} {s : ElemState} {i : ℕ}

/-- The length of an element. -/
def ieLength (f : List UInt8) (i : ℕ) : ℕ := (f.getD (i + 1) 0).toNat

theorem readLength (h : i + 1 < f.length) : readByte f (i + 1) = .ok (f.getD (i + 1) 0) :=
  readByte_of_lt h

theorem not_inside_short (h : f.length ≤ i + 1) {n : ℕ} : ¬ Inside f (i + 2) (n + 1) := by
  rw [inside_succ]
  omega

/-- Bytes of the data that are read for nothing but their values. -/
theorem readBytes_bind {α : Type} (n : ℕ) (r : α) :
    (do let _ ← readBytes f (i + 2) n; (.ok r : Except Fault α)) =
      if Inside f (i + 2) n then .ok r else .error .beyond := by
  by_cases h : Inside f (i + 2) n
  · rw [readBytes_of_inside h, if_pos h, bind_ok]
  · rw [readBytes_of_not_inside h, if_neg h, bind_error]

theorem readByte_bind {α : Type} (k : ℕ) (g : UInt8 → Except Fault α) :
    (do let b ← readByte f (i + 2 + k); g b) =
      if Inside f (i + 2) (k + 1) then g (f.getD (i + 2 + k) 0) else .error .beyond := by
  by_cases h : i + 2 + k < f.length
  · rw [readByte_of_lt h, if_pos (inside_succ.mpr h), bind_ok]
  · rw [readByte_of_le (Nat.not_lt.mp h), if_neg fun hin => h (inside_succ.mp hin), bind_error]

def wmmParam : Handler ElemState where
  run := wmmParamHandler
  need f s i := if bytesAt f (i + 2) 6 = wmmParaOui ∧ s.qosOption then 24 else 6
  next _ s _ := (s, false)
  run_eq f s i h := by
    have hadd := inside_add (n := 6) (show i + 2 ≤ f.length by omega) 18
    rw [wmmParamHandler]
    by_cases h6 : Inside f (i + 2) 6
    · rw [readBytes_of_inside h6, bind_ok]
      by_cases hm : bytesAt f (i + 2) 6 = wmmParaOui ∧ s.qosOption = true
      · rw [if_pos hm, if_pos hm]
        by_cases h18 : Inside f (i + 2 + 6) 18
        · rw [readBytes_of_inside h18, bind_ok, if_pos (hadd.mp ⟨h6, h18⟩)]
        · rw [readBytes_of_not_inside h18, bind_error, if_neg fun h24 => h18 (hadd.mpr h24).2]
      · rw [if_neg hm, if_neg hm, if_pos h6]
    · have h24 : ¬ Inside f (i + 2) (6 + 18) := fun h24 => h6 (hadd.mpr h24).1
      rw [readBytes_of_not_inside h6, bind_error]
      split_ifs
      · rfl
      · rfl
  run_short f s i h := by
    left
    rw [wmmParamHandler, readBytes_of_not_inside (not_inside_short h), bind_error]

def htCaps : Handler ElemState where
  run := htCapsHandler
  need f s i := if s.htOption then ieLength f i else 0
  next _ s _ := (s, false)
  run_eq f s i h := by
    rw [htCapsHandler]
    by_cases ho : s.htOption = true
    · rw [if_neg (by simp [ho]), if_pos ho, readLength h, bind_ok, readBytes_bind]
      rfl
    · rw [if_pos (by simp [ho]), if_neg ho, if_pos inside_zero]
  run_short f s i h := by
    rw [htCapsHandler]
    by_cases ho : s.htOption = true
    · left
      rw [if_neg (by simp [ho]), readByte_of_le h, bind_error]
    · right
      exact ⟨s, if_pos (by simp [ho])⟩

/-- What `HT_info_handler` reads. -/
def htInfoNeed (f : List UInt8) (s : ElemState) (i : ℕ) : ℕ :=
  if s.htOption ∧ ieLength f i ≤ htInfoSize then ieLength f i else 0

theorem htInfoHandler_eq (h : i + 1 < f.length) :
    htInfoHandler f s i =
      if Inside f (i + 2) (htInfoNeed f s i) then .ok (s, false) else .error .beyond := by
  rw [htInfoHandler]
  by_cases ho : s.htOption = true
  · rw [if_neg (by simp [ho]), readLength h, bind_ok]
    by_cases hl : (f.getD (i + 1) 0).toNat ≤ htInfoSize
    · have hneed : htInfoNeed f s i = (f.getD (i + 1) 0).toNat := if_pos ⟨ho, hl⟩
      rw [hneed, if_neg (Nat.not_lt.mpr hl), readBytes_bind]
    · have hneed : htInfoNeed f s i = 0 := if_neg fun hc => hl hc.2
      rw [hneed, if_pos (Nat.not_le.mp hl), if_pos inside_zero]
  · have hneed : htInfoNeed f s i = 0 := if_neg fun hc => ho hc.1
    rw [hneed, if_pos (by simp [ho]), if_pos inside_zero]

def htInfo : Handler ElemState where
  run := htInfoHandler
  need := htInfoNeed
  next _ s _ := (s, false)
  run_eq _ _ _ h := htInfoHandler_eq h
  run_short f s i h := by
    rw [htInfoHandler]
    by_cases ho : s.htOption = true
    · left
      rw [if_neg (by simp [ho]), readByte_of_le h, bind_error]
    · right
      exact ⟨s, if_pos (by simp [ho])⟩

def vhtCaps : Handler ElemState where
  run := vhtCapsHandler
  need _ s _ := if s.vhtOption then 6 else 0
  next _ s _ := (s, false)
  run_eq f s i _ := by
    rw [vhtCapsHandler]
    by_cases ho : s.vhtOption = true
    · rw [if_neg (by simp [ho]), if_pos ho, readBytes_bind]
    · rw [if_pos (by simp [ho]), if_neg ho, if_pos inside_zero]
  run_short f s i h := by
    rw [vhtCapsHandler]
    by_cases ho : s.vhtOption = true
    · left
      rw [if_neg (by simp [ho]), readBytes_bind, if_neg (not_inside_short h)]
    · right
      exact ⟨s, if_pos (by simp [ho])⟩

def vhtOperation : Handler ElemState where
  run := vhtOperationHandler
  need _ s _ := if s.vhtOption then 1 else 0
  next _ s _ := (s, false)
  run_eq f s i _ := by
    rw [vhtOperationHandler]
    by_cases ho : s.vhtOption = true
    · rw [if_neg (by simp [ho]), if_pos ho, readBytes_bind]
    · rw [if_pos (by simp [ho]), if_neg ho, if_pos inside_zero]
  run_short f s i h := by
    rw [vhtOperationHandler]
    by_cases ho : s.vhtOption = true
    · left
      rw [if_neg (by simp [ho]), readBytes_bind, if_neg (not_inside_short h)]
    · right
      exact ⟨s, if_pos (by simp [ho])⟩

def erpIe : Handler ElemState where
  run := erpIeHandler
  need f _ i := if ieLength f i ≤ 1 then ieLength f i else 0
  next _ s _ := (s, false)
  run_eq f s i h := by
    rw [erpIeHandler, readLength h, bind_ok, ieLength]
    by_cases hl : (f.getD (i + 1) 0).toNat ≤ 1
    · rw [if_pos hl, if_neg (Nat.not_lt.mpr hl), readBytes_bind]
    · rw [if_neg hl, if_pos (Nat.not_le.mp hl), if_pos inside_zero]
  run_short f s i h := by
    left
    rw [erpIeHandler, readByte_of_le h, bind_error]

/-- What `bwmode_update_check` reads: `infos[0]`, and the whole element if the bandwidth changes. -/
def bwmodeNeed (f : List UInt8) (s : ElemState) (i : ℕ) : ℕ :=
  if s.htOption ∧ s.curBwmode < 2 ∧ ieLength f i ≤ htInfoSize then
    if newBwmode (f.getD (i + 3) 0) ≠ (s.curBwmode, s.curChOffset) then max 2 (ieLength f i) else 2
  else 0

/-- The bandwidth that it leaves. -/
def bwmodeNext (f : List UInt8) (s : ElemState) (i : ℕ) : ElemState :=
  if s.htOption ∧ s.curBwmode < 2 ∧ ieLength f i ≤ htInfoSize then
    { s with
      curBwmode := (newBwmode (f.getD (i + 3) 0)).1
      curChOffset := (newBwmode (f.getD (i + 3) 0)).2 }
  else s

theorem bwmodeUpdateCheck_eq (h : i + 1 < f.length) :
    bwmodeUpdateCheck f s i =
      if Inside f (i + 2) (bwmodeNeed f s i) then .ok (bwmodeNext f s i, false)
      else .error .beyond := by
  by_cases hgo : s.htOption = true ∧ s.curBwmode < 2 ∧ ieLength f i ≤ htInfoSize
  · obtain ⟨ho, hb, hl⟩ := hgo
    have hl' : ¬ htInfoSize < (f.getD (i + 1) 0).toNat := Nat.not_lt.mpr hl
    have hnext : bwmodeNext f s i =
        { s with
          curBwmode := (newBwmode (f.getD (i + 3) 0)).1
          curChOffset := (newBwmode (f.getD (i + 3) 0)).2 } := if_pos ⟨ho, hb, hl⟩
    rw [bwmodeUpdateCheck, if_neg (by simp [ho]), if_neg (Nat.not_le.mpr hb), readLength h,
      bind_ok, if_neg hl', hnext, readByte_bind 1]
    by_cases hnew : newBwmode (f.getD (i + 3) 0) = (s.curBwmode, s.curChOffset)
    · have hneed : bwmodeNeed f s i = 2 := by
        rw [bwmodeNeed, if_pos ⟨ho, hb, hl⟩, if_neg (not_not.mpr hnew)]
      rw [hneed, if_neg (not_not.mpr hnew), hnew]
    · have hneed : bwmodeNeed f s i = max 2 (ieLength f i) := by
        rw [bwmodeNeed, if_pos ⟨ho, hb, hl⟩, if_pos hnew]
      rw [hneed, if_pos hnew, htInfoHandler_eq h]
      have hinfo : htInfoNeed f
          { s with
            curBwmode := (newBwmode (f.getD (i + 3) 0)).1
            curChOffset := (newBwmode (f.getD (i + 3) 0)).2 } i = ieLength f i := if_pos ⟨ho, hl⟩
      rw [hinfo]
      by_cases h2 : Inside f (i + 2) 2
      · rw [if_pos h2]
        by_cases hlen : Inside f (i + 2) (ieLength f i)
        · rw [if_pos hlen, if_pos ((inside_max _).mpr ⟨h2, hlen⟩)]
        · rw [if_neg hlen, if_neg fun hmax => hlen ((inside_max _).mp hmax).2]
      · rw [if_neg h2, if_neg fun hmax => h2 ((inside_max _).mp hmax).1]
  · have hneed : bwmodeNeed f s i = 0 := if_neg hgo
    have hnext : bwmodeNext f s i = s := if_neg hgo
    rw [hneed, hnext, if_pos inside_zero, bwmodeUpdateCheck]
    by_cases ho : s.htOption = true
    · rw [if_neg (by simp [ho])]
      by_cases hb : s.curBwmode < 2
      · have hl : htInfoSize < (f.getD (i + 1) 0).toNat :=
          Nat.not_le.mp fun hl => hgo ⟨ho, hb, hl⟩
        rw [if_neg (Nat.not_le.mpr hb), readLength h, bind_ok, if_pos hl]
      · rw [if_pos (Nat.not_lt.mp hb)]
    · rw [if_pos (by simp [ho])]

def bwmode : Handler ElemState where
  run := bwmodeUpdateCheck
  need := bwmodeNeed
  next f s i := (bwmodeNext f s i, false)
  run_eq _ _ _ h := bwmodeUpdateCheck_eq h
  run_short f s i h := by
    rw [bwmodeUpdateCheck]
    by_cases ho : s.htOption = true
    · rw [if_neg (by simp [ho])]
      by_cases hb : 2 ≤ s.curBwmode
      · right
        exact ⟨s, if_pos hb⟩
      · left
        rw [if_neg hb, readByte_of_le h, bind_error]
    · right
      exact ⟨s, if_pos (by simp [ho])⟩

def csa : Handler ElemState where
  run := csaHandler
  need _ _ _ := 2
  next _ s _ := (s, false)
  run_eq f s i _ := readByte_bind 1 fun _ => .ok (s, false)
  run_short f s i h := by
    left
    rw [csaHandler, readByte_of_le (by omega), bind_error]

/-- What the vendor specific element is read for. -/
def vendorNeed (f : List UInt8) (_s : ElemState) (i : ℕ) : ℕ :=
  if bytesAt f (i + 2) 3 = realtekOui ∧ 5 ≤ ieLength f i then
    if f.getD (i + 6) 0 = 2 then 7 else 6
  else 3

/-- The vendor that is found. -/
def vendorNext (f : List UInt8) (s : ElemState) (i : ℕ) : ElemState × Bool :=
  if bytesAt f (i + 2) 3 = realtekOui then
    if ieLength f i < 5 then ({ s with assocApVendor := .realtek }, true)
    else
      ({ s with
          assocApVendor := realtekPeer (f.getD (i + 6) 0) (f.getD (i + 7) 0)
            (if f.getD (i + 6) 0 = 2 then f.getD (i + 8) 0 else 0) }, true)
  else if vendorOf (bytesAt f (i + 2) 3) = .unknown then (s, false)
  else ({ s with assocApVendor := vendorOf (bytesAt f (i + 2) 3) }, true)

theorem vendorHandler_eq (h : i + 1 < f.length) :
    vendorHandler f s i =
      if Inside f (i + 2) (vendorNeed f s i) then .ok (vendorNext f s i) else .error .beyond := by
  have h3le : 3 ≤ vendorNeed f s i := by
    rw [vendorNeed]
    split_ifs <;> omega
  by_cases h3 : Inside f (i + 2) 3
  · rw [vendorHandler, readBytes_of_inside h3, bind_ok, vendorNext]
    by_cases hr : bytesAt f (i + 2) 3 = realtekOui
    · rw [if_pos hr, if_pos hr, readLength h, bind_ok]
      by_cases hl : (f.getD (i + 1) 0).toNat < 5
      · have hneed : vendorNeed f s i = 3 := if_neg fun hc => Nat.not_le.mpr hl hc.2
        rw [hneed, if_pos h3, if_pos hl]
        exact congrArg _ (if_pos hl).symm
      · have hneed : vendorNeed f s i = if f.getD (i + 6) 0 = 2 then 7 else 6 :=
          if_pos ⟨hr, Nat.not_lt.mp hl⟩
        have hnext : ¬ ieLength f i < 5 := hl
        rw [hneed, if_neg hl, if_neg hnext, readByte_bind 4, readByte_bind 5]
        by_cases h6 : Inside f (i + 2) 6
        · rw [if_pos (h6.mono (Nat.le_succ 5)), if_pos h6]
          by_cases h2 : f.getD (i + 6) 0 = 2
          · rw [if_pos h2, if_pos h2, if_pos h2, readByte_bind 6]
          · rw [if_neg h2, if_neg h2, if_neg h2, if_pos h6]
        · have hout : ¬ Inside f (i + 2) (if f.getD (i + 6) 0 = 2 then 7 else 6) := fun hin =>
            h6 (hin.mono (by split_ifs <;> omega))
          rw [if_neg h6, if_neg hout, ite_self]
    · have hneed : vendorNeed f s i = 3 := if_neg fun hc => hr hc.1
      rw [hneed, if_pos h3, if_neg hr, if_neg hr]
      split_ifs
      · rfl
      · rfl
  · rw [vendorHandler, readBytes_of_not_inside h3, bind_error,
      if_neg fun hin => h3 (hin.mono h3le)]

def vendor : Handler ElemState where
  run := vendorHandler
  need := vendorNeed
  next := vendorNext
  run_eq _ _ _ h := vendorHandler_eq h
  run_short f s i h := by
    left
    rw [vendorHandler, readBytes_of_not_inside (not_inside_short h), bind_error]

end handlers

/-! ## The loops over all elements -/

/-- `a - b` of `unsigned int`s. -/
def wrapSub (a b : ℕ) : ℕ := if a < b then a + 2 ^ 32 - b else a - b

/-- The loops of `OnAssocRsp`, `update_beacon_info`, `process_csa_ie` and `check_assoc_AP`. -/
inductive ElemLoop where
  | onAssocRsp
  | updateBeaconInfo
  | processCsaIe
  | checkAssocAp
  deriving DecidableEq, Repr

/-- `switch (pIE->ElementID)`. -/
def ElemLoop.handler : ElemLoop → UInt8 → Handler ElemState
  | .onAssocRsp, id =>
    if id = 221 then wmmParam
    else if id = 45 then htCaps
    else if id = 61 then htInfo
    else if id = 191 then vhtCaps
    else if id = 192 then vhtOperation
    else if id = 42 then erpIe
    else .skip
  | .updateBeaconInfo, id => if id = 61 then bwmode else if id = 42 then erpIe else .skip
  | .processCsaIe, id => if id = 37 then csa else .skip
  | .checkAssocAp, id => if id = 221 then vendor else .skip

/-- The place of the first element: behind 24 bytes of header and 6 or 12 bytes of fixed fields. -/
def ElemLoop.start : ElemLoop → ℕ
  | .onAssocRsp => 30
  | _ => 36

/-- Where the loop is to end. `len` is what is left behind the fixed fields of a beacon, and for
    `check_assoc_AP` what is left behind the header. -/
def ElemLoop.bound (l : ElemLoop) (pktLen : ℕ) : ℕ :=
  match l with
  | .onAssocRsp => pktLen
  | .updateBeaconInfo | .processCsaIe => 36 + wrapSub pktLen 36
  | .checkAssocAp => 24 + wrapSub pktLen 24

/-- The loop on a frame. `check_assoc_AP` finds no vendor unless it finds one. -/
def ElemLoop.run (l : ElemLoop) (s : ElemState) (f : List UInt8) : Except Fault ElemState :=
  let s := if l = .checkAssocAp then { s with assocApVendor := .unknown } else s
  walk l.handler f (l.bound f.length) (f.length + 1) s l.start

/-- The elements that it comes to, with their places. -/
def ElemLoop.elements (l : ElemLoop) (s : ElemState) (f : List UInt8) : List (ElemState × ℕ) :=
  let s := if l = .checkAssocAp then { s with assocApVendor := .unknown } else s
  trail l.handler f (l.bound f.length) (f.length + 1) s l.start

/-- Every element that the loop comes to has its id, its length and the bytes that are looked at
    inside the frame. -/
def ElemLoop.Fits (l : ElemLoop) (s : ElemState) (f : List UInt8) : Prop :=
  ∀ p ∈ l.elements s f, ElementInside l.handler f p

instance (l : ElemLoop) (s : ElemState) (f : List UInt8) : Decidable (l.Fits s f) :=
  inferInstanceAs (Decidable (∀ p ∈ _, _))

theorem loop_fine_iff (l : ElemLoop) (s : ElemState) (f : List UInt8) :
    Fine (l.run s f) ↔ l.Fits s f :=
  walk_fine_iff (Nat.succ_pos _) (by omega)

theorem loop_ne_timeout (l : ElemLoop) (s : ElemState) (f : List UInt8) :
    l.run s f ≠ .error .timeout :=
  walk_ne_timeout (Nat.succ_pos _) (by omega)

/-! ## The search for the WMM element -/

/-- The loop of `rtw_get_ie` (`rtw_ieee80211.c`, lines 227–258): the place and the length of the
    element. -/
def getIeLoop (f : List UInt8) (index : UInt8) (limit : ℕ) :
    ℕ → ℕ → ℕ → Except Fault (Option (ℕ × ℕ))
  | 0, _, _ => .error .timeout
  | fuel + 1, p, i => do
    let id ← readByte f p
    let len ← readByte f (p + 1)
    if id = index then .ok (some (p, len.toNat))
    else if limit ≤ i + (len.toNat + 2) then .ok none
    else getIeLoop f index limit fuel (p + (len.toNat + 2)) (i + (len.toNat + 2))

/-- `rtw_get_ie`. -/
def getIe (f : List UInt8) (index : UInt8) (limit p : ℕ) : Except Fault (Option (ℕ × ℕ)) :=
  if limit < 1 then .ok none else getIeLoop f index limit (f.length + 1) p 0

/-- `WMM_IE` of `OnAssocReq`. -/
def wmmIe : List UInt8 := [0x00, 0x50, 0xf2, 0x02, 0x00, 0x01]

/-- The search in `OnAssocReq` (`rtw_mlme_ext.c`, lines 1468–1518) from `p` on; `limit` is not
    brought up to date. The result is `qos_info`. -/
def wmmSearch (f : List UInt8) (limit : ℕ) : ℕ → ℕ → Except Fault (Option UInt8)
  | 0, _ => .error .timeout
  | fuel + 1, p => do
    let found ← getIe f 221 limit p
    match found with
    | none => .ok none
    | some (q, len) => do
      let oui ← readBytes f (q + 2) 6
      if oui = wmmIe then do
        let qosInfo ← readByte f (q + 8)
        .ok (some qosInfo)
      else wmmSearch f limit fuel (q + (len + 2))

/-- `ie_offset` for an association or a reassociation request. -/
def assocReqIeOffset (f : List UInt8) : ℕ := if f.getD 0 0 &&& 0xFC = 0 then 4 else 10

/-- `OnAssocReq` as far as it comes to the search: `accepted` are the other fields of the
    request, `decodeAll` is what `rtw_ieee802_11_parse_elems` asks of the elements (lines 1241 and
    1067–1202 of `rtw_ieee80211.c`). -/
def onAssocReqWmm (accepted : Bool) (s : ElemState) (f : List UInt8) :
    Except Fault (Option UInt8) :=
  let off := 24 + assocReqIeOffset f
  if f.length < off then .ok none
  else
    match decodeAll (f.drop off) with
    | none => .ok none
    | some es =>
      if (es.any fun e => e.id == 0) && accepted && s.qosOption then
        wmmSearch f (f.length - off) (f.length + 1) off
      else .ok none

/-- A search that has passed an element comes to its end only at a WMM element. -/
def WmmEnds : List Elem → Prop
  | [] => False
  | e :: es =>
    if e.id = 221 then
      6 ≤ (e.data ++ encodeAll es).length ∧
        if (e.data ++ encodeAll es).take 6 = wmmIe then 7 ≤ (e.data ++ encodeAll es).length
        else WmmEnds es
    else WmmEnds es

/-- There is no vendor specific element, or a WMM element that the search comes to. -/
def WmmFits (es : List Elem) : Prop := (∀ e ∈ es, e.id ≠ 221) ∨ WmmEnds es

section search

variable {f : List UInt8} {pre : List UInt8}

theorem encode_header {e : Elem} {es : List Elem} (hf : f = pre ++ encodeAll (e :: es)) :
    readByte f pre.length = .ok e.id ∧
      readByte f (pre.length + 1) = .ok (UInt8.ofNat e.data.length) := by
  have hlen : f.length = pre.length + (e.data.length + 2 + (encodeAll es).length) := by
    rw [hf, encodeAll_cons, List.length_append, List.length_append, Elem.encode_length]
  have hbytes : f = pre ++ e.id :: UInt8.ofNat e.data.length :: (e.data ++ encodeAll es) := hf
  have h0 : f.getD pre.length 0 = e.id := by
    rw [hbytes]
    simp
  have h1 : f.getD (pre.length + 1) 0 = UInt8.ofNat e.data.length := by
    rw [hbytes]
    simp
  rw [readByte_of_lt (by omega), readByte_of_lt (by omega), h0, h1]
  exact ⟨rfl, rfl⟩

theorem encode_rest {e : Elem} {es : List Elem} (hf : f = pre ++ encodeAll (e :: es)) :
    f = (pre ++ e.encode) ++ encodeAll es := by
  rw [hf, encodeAll_cons, List.append_assoc]

theorem encode_next (pre : List UInt8) (e : Elem) :
    pre.length + (e.data.length + 2) = (pre ++ e.encode).length := by
  rw [List.length_append, Elem.encode_length]

/-- The search passes an element with another id. -/
theorem getIeLoop_step {index : UInt8} {limit : ℕ} {e : Elem} {es : List Elem}
    (hf : f = pre ++ encodeAll (e :: es)) (he : e.id ≠ index) (fuel i : ℕ) :
    getIeLoop f index limit (fuel + 1) pre.length i =
      if limit ≤ i + (e.data.length + 2) then .ok none
      else getIeLoop f index limit fuel (pre ++ e.encode).length (i + (e.data.length + 2)) := by
  obtain ⟨hid, hlen⟩ := encode_header hf
  rw [getIeLoop, hid, bind_ok, hlen, bind_ok, if_neg he, e.toNat_length, encode_next]

theorem getIeLoop_first {index : UInt8} {limit : ℕ} {es₁ es₂ : List Elem} {e : Elem}
    (hf : f = pre ++ encodeAll (es₁ ++ e :: es₂)) (he : e.id = index)
    (hes : ∀ x ∈ es₁, x.id ≠ index) {fuel i : ℕ} (hfuel : es₁.length < fuel)
    (hlim : i + (encodeAll (es₁ ++ e :: es₂)).length ≤ limit) :
    getIeLoop f index limit fuel pre.length i =
      .ok (some (pre.length + (encodeAll es₁).length, e.data.length)) := by
  obtain ⟨fuel, rfl⟩ : ∃ n, fuel = n + 1 := ⟨fuel - 1, by omega⟩
  induction es₁ generalizing pre fuel i with
  | nil =>
    obtain ⟨hid, hlen⟩ := encode_header hf
    rw [getIeLoop, hid, bind_ok, hlen, bind_ok, if_pos he, e.toNat_length]
    rfl
  | cons x es₁ ih =>
    rw [List.length_cons] at hfuel
    obtain ⟨fuel, rfl⟩ : ∃ n, fuel = n + 1 := ⟨fuel - 1, by omega⟩
    rw [List.cons_append, encodeAll_cons, List.length_append, Elem.encode_length] at hlim
    have hrest : 2 ≤ (encodeAll (es₁ ++ e :: es₂)).length := by
      refine Nat.le_trans ?_ (encodeAll_length_le _)
      rw [List.length_append, List.length_cons]
      omega
    have hnext := ih (encode_rest hf) (fun y hy => hes y (List.mem_cons_of_mem _ hy))
      (i := i + (x.data.length + 2)) (by omega) fuel (by omega)
    rw [getIeLoop_step hf (hes x List.mem_cons_self), if_neg (by omega), hnext, ← encode_next,
      encodeAll_cons, List.length_append, Elem.encode_length, Nat.add_assoc]

theorem getIeLoop_none {index : UInt8} {limit : ℕ} {es : List Elem}
    (hf : f = pre ++ encodeAll es) (hes : ∀ x ∈ es, x.id ≠ index) {fuel i : ℕ}
    (hfuel : es.length < fuel) (hi : i < limit) (hlim : i + (encodeAll es).length ≤ limit) :
    getIeLoop f index limit fuel pre.length i =
      if i + (encodeAll es).length = limit then .ok none else .error .beyond := by
  obtain ⟨fuel, rfl⟩ : ∃ n, fuel = n + 1 := ⟨fuel - 1, by omega⟩
  induction es generalizing pre fuel i with
  | nil =>
    have hend : f.length ≤ pre.length :=
      Nat.le_of_eq (by rw [hf, encodeAll_nil, List.append_nil])
    rw [getIeLoop, readByte_of_le hend, bind_error, if_neg]
    exact Nat.ne_of_lt hi
  | cons x es ih =>
    rw [List.length_cons] at hfuel
    obtain ⟨fuel, rfl⟩ : ∃ n, fuel = n + 1 := ⟨fuel - 1, by omega⟩
    rw [encodeAll_cons, List.length_append, Elem.encode_length] at hlim ⊢
    rw [getIeLoop_step hf (hes x List.mem_cons_self)]
    by_cases hend : limit ≤ i + (x.data.length + 2)
    · rw [if_pos hend, if_pos (by omega)]
    · rw [if_neg hend, ih (encode_rest hf) (fun y hy => hes y (List.mem_cons_of_mem _ hy)) (by omega)
        (by omega) fuel (by omega), Nat.add_assoc]

theorem getIe_first {limit : ℕ} {es₁ es₂ : List Elem} {e : Elem} {index : UInt8}
    (hf : f = pre ++ encodeAll (es₁ ++ e :: es₂)) (he : e.id = index)
    (hes : ∀ x ∈ es₁, x.id ≠ index) (hlim : (encodeAll (es₁ ++ e :: es₂)).length ≤ limit) :
    getIe f index limit pre.length =
      .ok (some (pre.length + (encodeAll es₁).length, e.data.length)) := by
  have hlen := encodeAll_length_le (es₁ ++ e :: es₂)
  have hpos : (es₁ ++ e :: es₂).length = es₁.length + es₂.length + 1 := by
    rw [List.length_append, List.length_cons, Nat.add_assoc]
  have hfuel : es₁.length < f.length + 1 := by
    rw [hf, List.length_append]
    omega
  rw [getIe, if_neg (by omega)]
  exact getIeLoop_first hf he hes hfuel (by omega)

theorem getIe_none {limit : ℕ} {es : List Elem} {index : UInt8} (hf : f = pre ++ encodeAll es)
    (hes : ∀ x ∈ es, x.id ≠ index) (hpos : 0 < limit) (hlim : (encodeAll es).length ≤ limit) :
    getIe f index limit pre.length =
      if (encodeAll es).length = limit then .ok none else .error .beyond := by
  have hlen := encodeAll_length_le es
  have hfuel : es.length < f.length + 1 := by
    rw [hf, List.length_append]
    omega
  rw [getIe, if_neg (by omega), getIeLoop_none hf hes hfuel hpos (by omega), Nat.zero_add]

/-! ### The whole search -/

theorem not_wmmEnds {es : List Elem} (hes : ∀ x ∈ es, x.id ≠ 221) : ¬ WmmEnds es := by
  induction es with
  | nil => exact id
  | cons e es ih =>
    rw [WmmEnds, if_neg (hes e List.mem_cons_self)]
    exact ih fun x hx => hes x (List.mem_cons_of_mem _ hx)

theorem wmmEnds_append {es₁ es₂ : List Elem} (hes : ∀ x ∈ es₁, x.id ≠ 221) :
    WmmEnds (es₁ ++ es₂) ↔ WmmEnds es₂ := by
  induction es₁ with
  | nil => exact Iff.rfl
  | cons e es₁ ih =>
    rw [List.cons_append, WmmEnds, if_neg (hes e List.mem_cons_self)]
    exact ih fun x hx => hes x (List.mem_cons_of_mem _ hx)

/-- What is behind the header of an element. -/
theorem bytesAt_data {e : Elem} {es : List Elem} (hf : f = pre ++ encodeAll (e :: es)) (n : ℕ) :
    bytesAt f (pre.length + 2) n = (e.data ++ encodeAll es).take n ∧
      (Inside f (pre.length + 2) (n + 1) ↔ n + 1 ≤ (e.data ++ encodeAll es).length) := by
  have hbytes : f = (pre ++ [e.id, UInt8.ofNat e.data.length]) ++ (e.data ++ encodeAll es) := by
    rw [hf, encodeAll_cons, Elem.encode, List.append_assoc]
    rfl
  have hpre : pre.length + 2 = (pre ++ [e.id, UInt8.ofNat e.data.length]).length := by
    rw [List.length_append]
    rfl
  constructor
  · rw [bytesAt, hpre, hbytes, List.drop_left]
  · have hlen : f.length = pre.length + 2 + (e.data ++ encodeAll es).length := by
      rw [hbytes, List.length_append, ← hpre]
    rw [inside_succ]
    omega

theorem wmmSearch_fine_iff {limit : ℕ} {es : List Elem} (hf : f = pre ++ encodeAll es)
    (hpos : 0 < limit) (hlim : (encodeAll es).length ≤ limit) {fuel : ℕ}
    (hfuel : es.length < fuel) :
    Fine (wmmSearch f limit fuel pre.length) ↔
      ((encodeAll es).length = limit ∧ ∀ e ∈ es, e.id ≠ 221) ∨ WmmEnds es := by
  induction hn : es.length using Nat.strongRecOn generalizing es pre fuel with
  | _ n ih =>
    obtain ⟨fuel, rfl⟩ : ∃ k, fuel = k + 1 := ⟨fuel - 1, by omega⟩
    rcases exists_first 221 es with hnone | ⟨es₁, e, es₂, rfl, he, hes₁⟩
    · rw [wmmSearch, getIe_none hf hnone hpos hlim, or_iff_left (not_wmmEnds hnone)]
      by_cases hlen : (encodeAll es).length = limit
      · rw [if_pos hlen, bind_ok]
        exact iff_of_true (fine_ok _) ⟨hlen, hnone⟩
      · rw [if_neg hlen, bind_error]
        exact iff_of_false (not_fine_error _) fun h => hlen h.1
    · have hvendor : ¬ ∀ x ∈ es₁ ++ e :: es₂, x.id ≠ 221 := fun h =>
        h e (List.mem_append_right _ List.mem_cons_self) he
      have hf' : f = (pre ++ encodeAll es₁) ++ encodeAll (e :: es₂) := by
        rw [hf, encodeAll_append, List.append_assoc]
      have hq : pre.length + (encodeAll es₁).length = (pre ++ encodeAll es₁).length := by
        rw [List.length_append]
      rw [wmmSearch, getIe_first hf he hes₁ hlim, bind_ok, or_iff_right fun h => hvendor h.2,
        wmmEnds_append hes₁, WmmEnds, if_pos he, hq]
      obtain ⟨-, hin6⟩ := bytesAt_data hf' 5
      obtain ⟨htake, -⟩ := bytesAt_data hf' 6
      obtain ⟨-, hin7⟩ := bytesAt_data hf' 6
      show Fine (readBytes f ((pre ++ encodeAll es₁).length + 2) 6 >>= _) ↔ _
      by_cases h6 : Inside f ((pre ++ encodeAll es₁).length + 2) 6
      · rw [readBytes_of_inside h6, bind_ok, htake, and_iff_right (hin6.mp h6)]
        by_cases hm : (e.data ++ encodeAll es₂).take 6 = wmmIe
        · rw [if_pos hm, if_pos hm, ← hin7, inside_succ]
          by_cases h8 : (pre ++ encodeAll es₁).length + 2 + 6 < f.length
          · rw [readByte_of_lt h8, bind_ok]
            exact iff_of_true (fine_ok _) h8
          · rw [readByte_of_le (Nat.not_lt.mp h8), bind_error]
            exact iff_of_false (not_fine_error _) h8
        · have hlen : (encodeAll es₂).length < limit := by
            rw [encodeAll_append, List.length_append, encodeAll_cons, List.length_append,
              Elem.encode_length] at hlim
            omega
          have hcount : es₂.length < (es₁ ++ e :: es₂).length := by
            rw [List.length_append, List.length_cons]
            omega
          have hlater := ih es₂.length (by omega) (encode_rest hf') (Nat.le_of_lt hlen)
            (show es₂.length < fuel by omega) rfl
          rw [if_neg hm, if_neg hm, encode_next, hlater,
            or_iff_right fun h => Nat.ne_of_lt hlen h.1]
      · rw [readBytes_of_not_inside h6, bind_error]
        exact iff_of_false (not_fine_error _) fun h => h6 (hin6.mpr h.1)

/-! ### Every search ends -/

theorem getIeLoop_ends {index : UInt8} {limit fuel p i : ℕ} (hpos : 0 < fuel)
    (hfuel : f.length < fuel + p) :
    getIeLoop f index limit fuel p i ≠ .error .timeout ∧
      ∀ q len, getIeLoop f index limit fuel p i = .ok (some (q, len)) → p ≤ q := by
  induction fuel generalizing p i with
  | zero => exact absurd hpos (Nat.lt_irrefl 0)
  | succ fuel ih =>
    rw [getIeLoop]
    rcases Nat.lt_or_ge (p + 1) f.length with hlt | hge
    · rw [readByte_of_lt (by omega), bind_ok, readByte_of_lt hlt, bind_ok]
      split_ifs
      · refine ⟨nofun, fun q len h => ?_⟩
        obtain ⟨rfl, -⟩ := Prod.mk.inj (Option.some.inj (Except.ok.inj h))
        exact Nat.le_refl _
      · exact ⟨nofun, fun q len h => nomatch Except.ok.inj h⟩
      · obtain ⟨hto, hle⟩ := ih (p := p + ((f.getD (p + 1) 0).toNat + 2))
          (i := i + ((f.getD (p + 1) 0).toNat + 2)) (by omega) (by omega)
        refine ⟨hto, fun q len h => ?_⟩
        have := hle q len h
        omega
    · rcases Nat.lt_or_ge p f.length with hlt | hge'
      · rw [readByte_of_lt hlt, bind_ok, readByte_of_le hge, bind_error]
        exact ⟨nofun, nofun⟩
      · rw [readByte_of_le hge', bind_error]
        exact ⟨nofun, nofun⟩

theorem getIe_ends (index : UInt8) (limit p : ℕ) :
    getIe f index limit p ≠ .error .timeout ∧
      ∀ q len, getIe f index limit p = .ok (some (q, len)) → p ≤ q := by
  rw [getIe]
  split_ifs
  · exact ⟨nofun, fun q len h => nomatch Except.ok.inj h⟩
  · exact getIeLoop_ends (Nat.succ_pos _) (by omega)

theorem wmmSearch_ne_timeout {limit fuel p : ℕ} (hpos : 0 < fuel) (hfuel : f.length < fuel + p) :
    wmmSearch f limit fuel p ≠ .error .timeout := by
  induction fuel generalizing p with
  | zero => exact absurd hpos (Nat.lt_irrefl 0)
  | succ fuel ih =>
    obtain ⟨hto, hle⟩ := getIe_ends (f := f) 221 limit p
    rw [wmmSearch]
    cases hfound : getIe f 221 limit p with
    | error e =>
      rw [bind_error]
      exact fun h => hto (hfound.trans (congrArg _ (Except.error.inj h)))
    | ok found =>
      rw [bind_ok]
      rcases found with _ | ⟨q, len⟩
      · exact nofun
      · have hpq := hle q len hfound
        show (readBytes f (q + 2) 6 >>= _) ≠ _
        by_cases h6 : Inside f (q + 2) 6
        · have hq : q + 2 + 6 ≤ f.length := h6.resolve_left (by decide)
          rw [readBytes_of_inside h6, bind_ok]
          split_ifs
          · rcases Nat.lt_or_ge (q + 8) f.length with hlt | hge
            · rw [readByte_of_lt hlt, bind_ok]
              exact nofun
            · rw [readByte_of_le hge, bind_error]
              exact nofun
          · exact ih (by omega) (by omega)
        · rw [readBytes_of_not_inside h6, bind_error]
          exact nofun

end search

/-! ## The result -/

/-- What has to hold of the elements of an association request that is looked through. -/
def AssocReqFits (accepted : Bool) (s : ElemState) (f : List UInt8) : Prop :=
  ∀ es, 24 + assocReqIeOffset f ≤ f.length → f.drop (24 + assocReqIeOffset f) = encodeAll es →
    (∃ e ∈ es, e.id = 0) → accepted = true → s.qosOption = true → WmmFits es

theorem onAssocReqWmm_ne_timeout (accepted : Bool) (s : ElemState) (f : List UInt8) :
    onAssocReqWmm accepted s f ≠ .error .timeout := by
  rw [onAssocReqWmm]
  split_ifs with hshort
  · exact nofun
  · split
    · exact nofun
    · split_ifs
      · exact wmmSearch_ne_timeout (Nat.succ_pos _) (by omega)
      · exact nofun

theorem onAssocReqWmm_fine_iff (accepted : Bool) (s : ElemState) (f : List UInt8) :
    Fine (onAssocReqWmm accepted s f) ↔ AssocReqFits accepted s f := by
  rw [onAssocReqWmm]
  by_cases hshort : f.length < 24 + assocReqIeOffset f
  · rw [if_pos hshort]
    exact iff_of_true (fine_ok _) fun es hlen => absurd hlen (Nat.not_le.mpr hshort)
  · rw [if_neg hshort]
    cases hdec : decodeAll (f.drop (24 + assocReqIeOffset f)) with
    | none =>
      refine iff_of_true (fine_ok _) fun es _ hes => ?_
      rw [hes, decodeAll_encodeAll] at hdec
      cases hdec
    | some es =>
      have hes := encodeAll_of_decodeAll hdec
      have honly : AssocReqFits accepted s f ↔
          ((∃ e ∈ es, e.id = 0) → accepted = true → s.qosOption = true → WmmFits es) := by
        constructor
        · intro h
          exact h es (Nat.not_lt.mp hshort) hes
        · intro h es' _ hes'
          rw [encodeAll_injective (hes'.symm.trans hes)]
          exact h
      rw [honly]
      dsimp only
      by_cases hgo : ((es.any fun e => e.id == 0) && accepted && s.qosOption) = true
      · obtain ⟨⟨hany, hacc⟩, hqos⟩ : ((es.any fun e => e.id == 0) = true ∧ accepted = true) ∧
            s.qosOption = true := by
          simpa only [Bool.and_eq_true] using hgo
        have hssid : ∃ e ∈ es, e.id = 0 := by
          simpa only [List.any_eq_true, beq_iff_eq] using hany
        have hf : f = f.take (24 + assocReqIeOffset f) ++ encodeAll es := by
          rw [← hes, List.take_append_drop]
        have hoff : (f.take (24 + assocReqIeOffset f)).length = 24 + assocReqIeOffset f := by
          rw [List.length_take, Nat.min_eq_left (Nat.not_lt.mp hshort)]
        have hlen : (encodeAll es).length = f.length - (24 + assocReqIeOffset f) := by
          rw [← hes, List.length_drop]
        have htwo := encodeAll_length_le es
        have hone : 0 < es.length := by
          obtain ⟨e, he, -⟩ := hssid
          exact List.length_pos_of_mem he
        have hsearch := wmmSearch_fine_iff hf (show 0 < f.length - (24 + assocReqIeOffset f) by omega)
          (Nat.le_of_eq hlen) (show es.length < f.length + 1 by omega)
        rw [hoff] at hsearch
        rw [if_pos hgo, hsearch, and_iff_right hlen]
        exact ⟨fun h _ _ _ => h, fun h => h hssid hacc hqos⟩
      · rw [if_neg hgo]
        refine iff_of_true (fine_ok _) fun hssid hacc hqos => absurd ?_ hgo
        simpa only [Bool.and_eq_true, List.any_eq_true, beq_iff_eq] using ⟨⟨hssid, hacc⟩, hqos⟩

/-- Every loop ends, and reads nothing behind the frame exactly when the elements that it comes to
    have in the frame what is looked at. -/
theorem walks_inside_iff (accepted : Bool) (s : ElemState) (f : List UInt8) :
    (∀ l : ElemLoop, l.run s f ≠ .error .timeout ∧ (Fine (l.run s f) ↔ l.Fits s f)) ∧
      onAssocReqWmm accepted s f ≠ .error .timeout ∧
      (Fine (onAssocReqWmm accepted s f) ↔ AssocReqFits accepted s f) :=
  ⟨fun l => ⟨loop_ne_timeout l s f, loop_fine_iff l s f⟩,
    onAssocReqWmm_ne_timeout accepted s f, onAssocReqWmm_fine_iff accepted s f⟩

/-- An SSID, a rate and a WPS element. -/
def wpsElements : List Elem :=
  [⟨0, [0x61], by decide⟩, ⟨1, [0x82], by decide⟩,
    ⟨221, [0x00, 0x50, 0xf2, 0x04, 0x10, 0x4a], by decide⟩]

/-- The search goes on behind an association request whose only vendor specific element is WPS. -/
theorem wps_request_read_beyond : ¬ ∀ (accepted : Bool) (s : ElemState) (f : List UInt8),
    (∀ l : ElemLoop, Fine (l.run s f)) ∧ Fine (onAssocReqWmm accepted s f) := by
  intro h
  have hfits := (onAssocReqWmm_fine_iff _ _ _).mp
    (h true ⟨true, true, true, 0, 0, .unknown⟩ (List.replicate 28 0 ++ encodeAll wpsElements)).2
  have hwmm := hfits wpsElements (by decide) (by decide) ⟨_, List.mem_cons_self, rfl⟩ rfl rfl
  rcases hwmm with hnone | hends
  · exact hnone _ (List.mem_cons_of_mem _ (List.mem_cons_of_mem _ List.mem_cons_self)) rfl
  · rw [wpsElements, WmmEnds, if_neg (by decide), WmmEnds, if_neg (by decide), WmmEnds,
      if_pos rfl] at hends
    obtain ⟨-, hends⟩ := hends
    rw [if_neg (by decide)] at hends
    exact hends

end Rtl8821au.Mlme
