import Rtl8821au.Recv.Validate
import Rtl8821au.Security.WepTkip
import Rtl8821au.Sta.Table

/-!
# Authentication and association at the access point

`OnAuth`, `OnAssocReq`, `OnDeAuth`, `OnDisassoc` (`rtw_mlme_ext.c`) and
`expire_timeout_chk` (`rtw_ap.c`) on the station table. What the handlers send, and what
they tell the layers above, is left out.

Results:
* `assocInv_step`: what every event keeps that neither restarts the authentication of an
  associated station nor refuses a request of a station with an association id.
* `assocTable_of_run`: so it is along every run of such events.
-/

namespace Rtl8821au.Sta

open Recv (Bytes MacAddr RecvFrame RxPktAttrib Status Encryption getAddr2 getAddr3 getPrivacy
  getFrameSubType)
open Security (rtwWepDecrypt frameOf)
open Places Run

/-! ## Model of the C code -/

/-- `auth_to`, `assoc_to` and `expire_to` of `struct sta_priv` (`rtw_sta_mgt.c`, lines
    132–142). -/
def authTo : ℕ := 3

def assocTo : ℕ := 3

def expireTo : ℕ := 60

/-- What the element parsers find in a request: `rsn` and `wpa` hold the group and
    pairwise ciphers if the element can be parsed. -/
structure AssocElems where
  parseFailed : Bool := false
  ssid : Option Bytes := none
  rates : Option Bytes := none
  rsn : Option (Option (ℕ × ℕ)) := none
  wpa : Option (Option (ℕ × ℕ)) := none
  ht : Bool := false
  vht : Bool := false
  deriving DecidableEq, Repr

/-- The settings of the access point. `wpa` and `wpa2` are the bits of `wpa_psk`,
    `wpsBeacon` is the selected registrar of `wps_beacon_ie`. -/
structure ApConfig where
  accessCtrl : MacAddr → Bool := fun _ => true
  ssid : Bytes := []
  wpa : Bool := false
  wpa2 : Bool := false
  wpaCipher : ℕ × ℕ := (0, 0)
  wpa2Cipher : ℕ × ℕ := (0, 0)
  wpsBeacon : Option Bool := none
  vhtOption : Bool := false
  parse : RecvFrame → AssocElems

/-- The number of an authentication algorithm. -/
def authMode : AuthAlgrthm → ℕ
  | .openSystem => 0
  | .shared => 1
  | .ieee8021X => 2
  | .auto => 3
  | .wapi => 4

/-- `rtw_get_ie` (`rtw_ieee80211.c`, lines 227–258) from `p` on: where the element is and
    its length. Every round passes two bytes at least, so `limit` rounds are enough. -/
def rtwGetIe (f : RecvFrame) (index : UInt8) (limit : ℕ) : (fuel p i : ℕ) → Option (ℕ × ℕ)
  | 0, _, _ => none
  | fuel + 1, p, i =>
    let tmp := (f.byteAt (p + 1)).toNat
    if f.byteAt p = index then some (p, tmp)
    else if i + (tmp + 2) ≥ limit then none
    else rtwGetIe f index limit fuel (p + (tmp + 2)) (i + (tmp + 2))

/-- What `OnAuth` reads from an authentication frame. -/
structure AuthFrame where
  algorithm : ℕ
  seq : ℕ
  challenge : Option Bytes
  deriving DecidableEq, Repr

/-- Lines 858–879 and 987–989. The challenge is searched behind a WEP header always. -/
def parseAuth (priv : RtlPriv) (f : RecvFrame) : AuthFrame :=
  let iv := f.byteAt (24 + 3)
  let keyed : RxPktAttrib := { f.attrib with
    hdrlen := 24, encrypt := .wep40, keyIndex := iv.toNat / 64, ivLen := 4, icvLen := 4 }
  let (f, offset) :=
    if getPrivacy f then (rtwWepDecrypt priv (f.setAttrib keyed), 4) else (f, 0)
  let limit := f.len - 24 - 6 - 4
  { algorithm := f.le16At (24 + offset)
    seq := f.le16At (24 + offset + 2)
    challenge :=
      match rtwGetIe f 16 limit limit (24 + 4 + 6) 0 with
      | none => none
      | some (p, ieLen) => if ieLen = 0 then none else some (f.bytesAt (p + 2) 128) }

/-- `auth_mode` (lines 881–884). -/
def effectiveAuthMode (priv : RtlPriv) : ℕ :=
  if authMode priv.dot11AuthAlgrthm = 2 ∧ priv.dot11PrivacyAlgrthm ≠ .wep40 ∧
      priv.dot11PrivacyAlgrthm ≠ .wep104 then 0
  else authMode priv.dot11AuthAlgrthm

/-- The frame gets past the algorithm and the access list (lines 886–902). -/
def authAllowed (priv : RtlPriv) (cfg : ApConfig) (f : RecvFrame) : Bool :=
  let algorithm := (parseAuth priv f).algorithm
  let mode := effectiveAuthMode priv
  !((algorithm > 0 && mode == 0) || (algorithm == 0 && mode == 1)) && cfg.accessCtrl (getAddr2 f)

/-- The exchange (lines 948–1034) on the record of the station; `none` is `auth_fail`. -/
def authExchange (mode : ℕ) (a : AuthFrame) (pstat : StaInfo) : Option StaInfo :=
  let pstat := if pstat.authSeq = 0 then { pstat with expireTo := authTo } else pstat
  let next : Option StaInfo :=
    if pstat.authSeq + 1 ≠ a.seq then none
    else if a.algorithm = 0 ∧ (mode = 0 ∨ mode = 2 ∨ mode = 3) then
      if a.seq = 1 then
        some { pstat with
          state := { pstat.state with authNull := false, authSuccess := true }
          expireTo := assocTo }
      else none
    else if a.seq = 1 then
      some { pstat with
        chgTxt := List.replicate 128 78
        state := { pstat.state with authNull := false, authState := true }
        authSeq := 2 }
    else if a.seq = 3 then
      if a.challenge = some pstat.chgTxt then
        some { pstat with
          state := { pstat.state with authState := false, authSuccess := true }
          expireTo := assocTo }
      else none
    else none
  next.map fun pstat =>
    { pstat with authSeq := if pstat.state.authSuccess then 0 else a.seq + 1 }

/-- The record on which `OnAuth` works (lines 904–938): a new one, or the old one off the
    association list. -/
def authRecord (s : StaPriv) (sa : MacAddr) : StaPriv × Option ℕ :=
  match s.rtwGetStainfo sa with
  | some pstat => (s.unlistAsoc pstat, some pstat)
  | none =>
    match s.rtwAllocStainfo sa with
    | (s, none) => (s, none)
    | (s, some pstat) =>
      (s.setSta pstat fun i => { i with state := { authNull := true }, authSeq := 0 }, some pstat)

/-- `OnAuth` (lines 831–1056). -/
def onAuth (priv : RtlPriv) (cfg : ApConfig) (s : StaPriv) (f : RecvFrame) : StaPriv × Status :=
  if authAllowed priv cfg f then
    match authRecord s (getAddr2 f) with
    | (s, none) => (s, .fail)
    | (s, some pstat) =>
      let s := s.listAuth pstat
      match authExchange (effectiveAuthMode priv) (parseAuth priv f) (s.sta pstat) with
      | none => (s.rtwFreeStainfo (some pstat), .fail)
      | some i => (s.setSta pstat fun _ => i, .success)
  else (s, .fail)

/-- The ciphers of an element against those of the access point (lines 1321–1344). -/
def cipherStatus (own : ℕ × ℕ) : Option (ℕ × ℕ) → ℕ
  | none => 40
  | some (group, pairwise) =>
    if pairwise &&& own.2 = 0 then 42 else if group &&& own.1 = 0 then 41 else 0

/-- The checks of `OnAssocReq` (lines 1229–1590): `_STATS_SUCCESSFUL_` or the status with
    which the request is refused. -/
def assocStatus (priv : RtlPriv) (cfg : ApConfig) (e : AssocElems) : ℕ :=
  let psk := cfg.wpa || cfg.wpa2
  let (status, wpaIe) :=
    match cfg.wpa2, e.rsn, cfg.wpa, e.wpa with
    | true, some ciphers, _, _ => (cipherStatus cfg.wpa2Cipher ciphers, true)
    | _, _, true, some ciphers => (cipherStatus cfg.wpaCipher ciphers, true)
    | _, _, _, _ => (0, false)
  if e.parseFailed ∨ e.ssid = none then 1
  else if e.ssid = some [] ∨ e.ssid ≠ some cfg.ssid then 1
  else if e.rates = none then 1
  else if status ≠ 0 then status
  else if !wpaIe ∧ psk ∧ cfg.wpsBeacon = some false then 17
  else if !priv.htOption ∧ e.ht then 1
  else if !cfg.vhtOption ∧ e.vht then 1
  else 0

/-- `OnAssocReqFail` (lines 1686–1694). -/
def assocReqFail (s : StaPriv) (pstat : ℕ) : StaPriv :=
  s.setSta pstat fun i => { i with aid := 0 }

/-- The request enters the association (lines 1210–1225). -/
def assocEnter (st : StaState) : StaState :=
  if st.authSuccess then { st with authSuccess := false, assocState := true }
  else { st with assocSuccess := false, assocState := true }

/-- An accepted request (lines 1629–1658); `update_sta_info_apmode` sets the last two
    members. -/
def assocAccept (priv : RtlPriv) (e : AssocElems) (s : StaPriv) (pstat : ℕ) : StaPriv :=
  let s := s.setSta pstat fun i =>
    { i with state := { i.state with assocState := false, assocSuccess := true } }
  let s := s.unlistAuth pstat
  let s := if pstat ∈ s.asocList then s
    else s.setSta pstat fun i => { i with expireTo := expireTo }
  let s := s.listAsoc pstat
  s.setSta pstat fun i =>
    { i with
      ht := e.ht && e.vht
      aggEnableBitmap := 0
      ieee8021xBlocked := priv.dot11AuthAlgrthm == .ieee8021X
      state := { i.state with linked := true } }

/-- `ie_offset`: an association or a reassociation request. -/
def ieOffset (f : RecvFrame) : ℕ := if getFrameSubType f = 0x00 then 4 else 10

/-- `OnAssocReq` (lines 1159–1701). -/
def onAssocReq (priv : RtlPriv) (cfg : ApConfig) (s : StaPriv) (f : RecvFrame) :
    StaPriv × Status :=
  if f.len < 24 + ieOffset f then (s, .fail)
  else
    match s.rtwGetStainfo (getAddr2 f) with
    | none => (s, .fail)
    | some pstat =>
      let st := (s.sta pstat).state
      if !st.authSuccess ∧ !st.assocSuccess then (s, .fail)
      else
        let s := s.setSta pstat fun i => { i with state := assocEnter i.state }
        let e := cfg.parse f
        if assocStatus priv cfg e ≠ 0 then (assocReqFail s pstat, .fail)
        else
          match s.assignAid pstat with
          | none => (assocReqFail s pstat, .fail)
          | some s => (assocAccept priv e s pstat, .success)

/-- `OnDeAuth` and `OnDisassoc` of an access point (lines 1809–1853 and 1873–1917). -/
def onDeAuth (priv : RtlPriv) (s : StaPriv) (f : RecvFrame) : StaPriv :=
  if getAddr3 f ≠ priv.mybssid then s
  else
    match s.rtwGetStainfo (getAddr2 f) with
    | none => s
    | some psta =>
      if psta ∈ s.asocList then (s.unlistAsoc psta).rtwFreeStainfo (some psta) else s

/-- The walk over the authentication list (`rtw_ap.c`, lines 378–404). -/
def expireAuth (s : StaPriv) (psta : ℕ) : StaPriv :=
  if (s.sta psta).expireTo > 0 then
    let s := s.setSta psta fun i => { i with expireTo := i.expireTo - 1 }
    if (s.sta psta).expireTo = 0 then (s.unlistAuth psta).rtwFreeStainfo (some psta) else s
  else s

/-- The timers of an associated station (lines 425–460); `alive` is what
    `chk_sta_is_alive` finds. -/
def ageAsoc (alive : Bool) (i : StaInfo) : StaInfo :=
  let i :=
    if alive ∨ i.expireTo = 0 then { i with expireTo := expireTo, underExistChecking := false }
    else { i with expireTo := i.expireTo - 1 }
  if i.ht ∧ (i.aggEnableBitmap ≠ 0 ∨ i.underExistChecking) then
    if i.expireTo ≤ expireTo - 50 then { i with underExistChecking := false, expireTo := 0 }
    else if i.expireTo ≤ expireTo - 3 ∧ !i.underExistChecking then
      { i with underExistChecking := true, aggEnableBitmap := 0 }
    else i
  else i

/-- The walk over the association list (lines 421–481). -/
def expireAsoc (alive : ℕ → Bool) (s : StaPriv) (psta : ℕ) : StaPriv :=
  let s := s.setSta psta (ageAsoc (alive psta))
  if (s.sta psta).expireTo = 0 then (s.unlistAsoc psta).rtwFreeStainfo (some psta) else s

/-- `expire_timeout_chk` (lines 358–485). -/
def expireTimeoutChk (alive : ℕ → Bool) (s : StaPriv) : StaPriv :=
  let s := s.authList.foldl expireAuth s
  s.asocList.foldl (expireAsoc alive) s

/-- A management frame or a tick. -/
inductive ApEvent where
  | auth (f : RecvFrame)
  | assocReq (f : RecvFrame)
  | deauth (f : RecvFrame)
  | disassoc (f : RecvFrame)
  | tick (alive : ℕ → Bool)

def apStep (priv : RtlPriv) (cfg : ApConfig) (s : StaPriv) : ApEvent → StaPriv
  | .auth f => (onAuth priv cfg s f).1
  | .assocReq f => (onAssocReq priv cfg s f).1
  | .deauth f | .disassoc f => onDeAuth priv s f
  | .tick alive => expireTimeoutChk alive s

/-! ## Invariant -/

/-- The table of association ids, the two lists and their counters agree with the
    stations. -/
structure AssocTable (s : StaPriv) : Prop where
  aid : ∀ i x, s.staAid i = some x ↔ Placed s.staHash x ∧ (s.sta x).aid = i + 1
  asoc : ∀ x, x ∈ s.asocList ↔ Placed s.staHash x ∧ (s.sta x).state.assocSuccess = true
  disjoint : ∀ x ∈ s.asocList, x ∉ s.authList
  asocListCnt : s.asocListCnt.toNat = s.asocList.length
  authListCnt : s.authListCnt.toNat = s.authList.length

/-- What holds inside a handler that is at work on station `x`. -/
structure AssocInvBut (s : StaPriv) (x : ℕ) : Prop where
  table : TableInv s
  aid : ∀ i y, Placed s.staHash y → (s.sta y).aid = i + 1 → s.staAid i = some y
  asoc : ∀ y, y ≠ x →
    (y ∈ s.asocList ↔ Placed s.staHash y ∧ (s.sta y).state.assocSuccess = true)
  disjoint : ∀ y, y ≠ x → y ∈ s.asocList → y ∉ s.authList
  asocListCnt : s.asocListCnt = UInt8.ofNat s.asocList.length
  authListCnt : s.authListCnt = UInt8.ofNat s.authList.length
  assoc_aid : ∀ y, y ≠ x → y ∈ s.asocList → 0 < (s.sta y).aid

/-- What holds between events. -/
structure AssocInv (s : StaPriv) : Prop where
  but : ∀ x, AssocInvBut s x
  asoc : ∀ x, x ∈ s.asocList ↔ Placed s.staHash x ∧ (s.sta x).state.assocSuccess = true
  disjoint : ∀ x ∈ s.asocList, x ∉ s.authList
  assoc_aid : ∀ x ∈ s.asocList, 0 < (s.sta x).aid

section inv

variable {s : StaPriv} {x : ℕ}

/-- The handler is done when the invariant holds of its station too. -/
theorem AssocInvBut.done (h : AssocInvBut s x)
    (hasoc : x ∈ s.asocList ↔ Placed s.staHash x ∧ (s.sta x).state.assocSuccess = true)
    (hdis : x ∈ s.asocList → x ∉ s.authList) (haid : x ∈ s.asocList → 0 < (s.sta x).aid) :
    AssocInv s := by
  have hasoc' : ∀ y, y ∈ s.asocList ↔
      Placed s.staHash y ∧ (s.sta y).state.assocSuccess = true := by
    intro y
    by_cases hy : y = x
    · exact hy ▸ hasoc
    · exact h.asoc y hy
  have hdis' : ∀ y ∈ s.asocList, y ∉ s.authList := by
    intro y hmem
    by_cases hy : y = x
    · exact hy ▸ hdis (hy ▸ hmem)
    · exact h.disjoint y hy hmem
  have haid' : ∀ y ∈ s.asocList, 0 < (s.sta y).aid := by
    intro y hmem
    by_cases hy : y = x
    · exact hy ▸ haid (hy ▸ hmem)
    · exact h.assoc_aid y hy hmem
  exact ⟨fun z => ⟨h.table, h.aid, fun y _ => hasoc' y, fun y _ => hdis' y, h.asocListCnt,
    h.authListCnt, fun y _ => haid' y⟩, hasoc', hdis', haid'⟩

theorem length_lt {l : List ℕ} (hnd : l.Nodup) (hlt : ∀ y ∈ l, y < numSta) : l.length < 256 := by
  have hsub : l.Subperm (List.range numSta) :=
    hnd.subperm fun y hy => List.mem_range.mpr (hlt y hy)
  have hle := hsub.length_le
  rw [List.length_range] at hle
  exact Nat.lt_of_le_of_lt hle (by decide)

theorem AssocInv.assocTable (h : AssocInv s) : AssocTable s where
  aid i x := by
    refine ⟨fun hx => (h.but x).table.staAid i x hx, fun ⟨hp, hx⟩ => (h.but x).aid i x hp hx⟩
  asoc := h.asoc
  disjoint := h.disjoint
  asocListCnt := by
    have ht := (h.but 0).table
    rw [(h.but 0).asocListCnt, UInt8.toNat_ofNat']
    exact Nat.mod_eq_of_lt (length_lt ht.asoc_nodup fun y hy => ht.lt y (ht.asoc y hy))
  authListCnt := by
    have ht := (h.but 0).table
    rw [(h.but 0).authListCnt, UInt8.toNat_ofNat']
    exact Nat.mod_eq_of_lt (length_lt ht.auth_nodup fun y hy => ht.lt y (ht.auth y hy))

theorem assocInv_init : AssocInv rtwInitStaPriv := by
  have hnil : ∀ y, y ∉ rtwInitStaPriv.asocList := fun y => List.not_mem_nil
  have hplaced : ∀ y, ¬ Placed rtwInitStaPriv.staHash y := fun y ⟨_, hy⟩ => List.not_mem_nil hy
  exact {
    but := fun x => {
      table := tableInv_init
      aid := fun i y hp => absurd hp (hplaced y)
      asoc := fun y _ => iff_of_false (hnil y) fun h => hplaced y h.1
      disjoint := fun y _ hy => absurd hy (hnil y)
      asocListCnt := rfl
      authListCnt := rfl
      assoc_aid := fun y _ hy => absurd hy (hnil y) }
    asoc := fun y => iff_of_false (hnil y) fun h => hplaced y h.1
    disjoint := fun y hy => absurd hy (hnil y)
    assoc_aid := fun y hy => absurd hy (hnil y) }

/-! ## The steps of a handler -/

/-- A change of the record that keeps address and association id. -/
theorem AssocInvBut.setSta (h : AssocInvBut s x) (f : StaInfo → StaInfo)
    (haddr : (f (s.sta x)).hwaddr = (s.sta x).hwaddr) (haid : (f (s.sta x)).aid = (s.sta x).aid) :
    AssocInvBut (s.setSta x f) x := by
  have hkeep : ∀ y, ((s.setSta x f).sta y).aid = (s.sta y).aid := by
    intro y
    by_cases hy : y = x
    · rw [hy, StaPriv.setSta_self, haid]
    · rw [StaPriv.setSta_of_ne s x f hy]
  refine ⟨?_, ?_, ?_, h.disjoint, h.asocListCnt, h.authListCnt, ?_⟩
  · have ht := h.table
    refine ht.relink rfl rfl rfl (fun y => StaPriv.setSta_hwaddr s x f haddr y)
      ⟨ht.asoc_nodup, ht.asoc⟩ ⟨ht.auth_nodup, ht.auth⟩ ?_
      fun ac => ⟨ht.pending_nodup ac, ht.pending ac⟩
    intro i y hy
    rw [hkeep]
    exact ht.staAid i y hy
  · intro i y hp hy
    rw [hkeep] at hy
    exact h.aid i y hp hy
  · intro y hy
    rw [StaPriv.setSta_of_ne s x f hy]
    exact h.asoc y hy
  · intro y hy hmem
    rw [hkeep]
    exact h.assoc_aid y hy hmem

/-- The counter after a change of its list. -/
theorem ofNat_append (l : List ℕ) (x : ℕ) :
    UInt8.ofNat l.length + 1 = UInt8.ofNat (l ++ [x]).length := by
  rw [List.length_append, List.length_singleton, UInt8.ofNat_add]
  rfl

theorem ofNat_erase {l : List ℕ} (hx : x ∈ l) :
    UInt8.ofNat l.length - 1 = UInt8.ofNat (l.erase x).length := by
  have hpos : l.length = (l.erase x).length + 1 := by
    rw [List.length_erase_of_mem hx]
    exact (Nat.sub_add_cancel (List.length_pos_of_mem hx)).symm
  rw [hpos, UInt8.ofNat_add]
  exact UInt8.add_sub_cancel _ _

theorem AssocInvBut.listAuth (h : AssocInvBut s x) (hp : Placed s.staHash x) :
    AssocInvBut (s.listAuth x) x := by
  have ht := h.table.listAuth hp
  unfold StaPriv.listAuth at ht ⊢
  split_ifs at ht ⊢ with hx
  · exact h
  · refine ⟨ht, h.aid, h.asoc, ?_, h.asocListCnt, ?_, h.assoc_aid⟩
    · intro y hy hmem hauth
      rcases List.mem_append.mp hauth with hauth | hauth
      · exact h.disjoint y hy hmem hauth
      · exact hy (List.mem_singleton.mp hauth)
    · rw [← ofNat_append, h.authListCnt]

theorem AssocInvBut.listAsoc (h : AssocInvBut s x) (hp : Placed s.staHash x) :
    AssocInvBut (s.listAsoc x) x := by
  have ht := h.table.listAsoc hp
  unfold StaPriv.listAsoc at ht ⊢
  split_ifs at ht ⊢ with hx
  · exact h
  · have hmem : ∀ y, y ≠ x → (y ∈ s.asocList ++ [x] ↔ y ∈ s.asocList) := by
      intro y hy
      rw [List.mem_append, List.mem_singleton]
      exact or_iff_left hy
    refine ⟨ht, h.aid, ?_, ?_, ?_, h.authListCnt, ?_⟩
    · exact fun y hy => (hmem y hy).trans (h.asoc y hy)
    · exact fun y hy hy' => h.disjoint y hy ((hmem y hy).mp hy')
    · rw [← ofNat_append, h.asocListCnt]
    · exact fun y hy hy' => h.assoc_aid y hy ((hmem y hy).mp hy')

theorem AssocInvBut.unlistAuth (h : AssocInvBut s x) : AssocInvBut (s.unlistAuth x) x := by
  have ht := h.table.unlistAuth x
  rw [StaPriv.unlistAuth_eq] at ht ⊢
  refine ⟨ht, h.aid, h.asoc, ?_, h.asocListCnt, ?_, h.assoc_aid⟩
  · exact fun y hy hmem hauth => h.disjoint y hy hmem (List.mem_of_mem_erase hauth)
  · show (if x ∈ s.authList then s.authListCnt - 1 else s.authListCnt) = _
    split_ifs with hx
    · rw [← ofNat_erase hx, h.authListCnt]
    · rw [List.erase_of_not_mem hx, h.authListCnt]

theorem AssocInvBut.unlistAsoc (h : AssocInvBut s x) : AssocInvBut (s.unlistAsoc x) x := by
  have ht := h.table.unlistAsoc x
  unfold StaPriv.unlistAsoc at ht ⊢
  split_ifs at ht ⊢ with hx
  · have hmem : ∀ y, y ≠ x → (y ∈ s.asocList.erase x ↔ y ∈ s.asocList) := fun y hy =>
      List.mem_erase_of_ne hy
    refine ⟨ht, h.aid, ?_, ?_, ?_, h.authListCnt, ?_⟩
    · exact fun y hy => (hmem y hy).trans (h.asoc y hy)
    · exact fun y hy hy' => h.disjoint y hy ((hmem y hy).mp hy')
    · rw [← ofNat_erase hx, h.asocListCnt]
    · exact fun y hy hy' => h.assoc_aid y hy ((hmem y hy).mp hy')
  · exact h

theorem not_mem_unlistAsoc (h : TableInv s) : x ∉ (s.unlistAsoc x).asocList := by
  unfold StaPriv.unlistAsoc
  split_ifs with hx
  · exact fun hmem => (h.asoc_nodup.mem_erase_iff.mp hmem).1 rfl
  · exact hx

/-- A station off the association list may be released. -/
theorem AssocInvBut.free (h : AssocInvBut s x) (hp : Placed s.staHash x) (hx : x ∉ s.asocList) :
    AssocInv (s.rtwFreeStainfo (some x)) := by
  have r := s.rtwFreeStainfo_released x
  have ht := h.table.free hp hx
  have hhash := h.table.hash
  have hplaced : ∀ y, Placed (s.rtwFreeStainfo (some x)).staHash y ↔
      y ≠ x ∧ Placed s.staHash y := by
    intro y
    rw [r.staHash, placed_del hhash]
  have hout : x ∉ (s.rtwFreeStainfo (some x)).asocList := by rwa [r.asocList]
  have hbut : AssocInvBut (s.rtwFreeStainfo (some x)) x := by
    refine ⟨ht, ?_, ?_, ?_, ?_, ?_, ?_⟩
    · intro i y hy haid
      obtain ⟨hne, hy⟩ := (hplaced y).mp hy
      rw [r.sta y hne] at haid
      have hi := h.aid i y hy haid
      rw [r.staAid, StaPriv.releasedAid]
      split_ifs with hc
      · have hne' : i ≠ (s.sta x).aid - 1 := by
          rintro rfl
          exact hne (Option.some.inj (hi.symm.trans hc.2))
        rw [Function.update_of_ne hne', hi]
      · exact hi
    · intro y hy
      rw [r.asocList, r.sta y hy, hplaced]
      exact (h.asoc y hy).trans (and_congr_left fun _ => (and_iff_right hy).symm)
    · intro y hy hmem hauth
      rw [r.asocList] at hmem
      rw [r.authList] at hauth
      exact h.disjoint y hy hmem (List.mem_of_mem_erase hauth)
    · rw [r.asocListCnt, r.asocList, h.asocListCnt]
    · rw [r.authListCnt, r.authList]
      split_ifs with hmem
      · rw [← ofNat_erase hmem, h.authListCnt]
      · rw [List.erase_of_not_mem hmem, h.authListCnt]
    · intro y hy hmem
      rw [r.asocList] at hmem
      rw [r.sta y hy]
      exact h.assoc_aid y hy hmem
  refine hbut.done (iff_of_false hout fun hp' => ((hplaced x).mp hp'.1).1 rfl) ?_ ?_
  · exact fun hmem => absurd hmem hout
  · exact fun hmem => absurd hmem hout

end inv

/-! ## Handlers -/

section handlers

variable {s : StaPriv} {x : ℕ}

/-- A new station has no association id and is on no list. -/
theorem AssocInv.alloc (h : AssocInv s) {hwaddr : MacAddr} {s' : StaPriv}
    (hs : s.rtwAllocStainfo hwaddr = (s', some x)) :
    AssocInv s' ∧ Placed s'.staHash x ∧ (s'.sta x).state.assocSuccess = false := by
  have ht := (h.but x).table
  have ht' := ht.alloc hwaddr
  rw [hs] at ht'
  unfold StaPriv.rtwAllocStainfo at hs
  cases hfree : s.freeStaQueue with
  | nil =>
    rw [hfree] at hs
    cases hs
  | cons psta rest =>
    rw [hfree] at hs
    obtain ⟨hst, hx⟩ := Prod.mk.inj hs
    obtain rfl := Option.some.inj hx
    subst hst
    have hout : ¬ Placed s.staHash psta :=
      ((ht.mem_free psta).mp (hfree ▸ List.mem_cons_self)).2
    have hsta : ∀ y, y ≠ psta →
        Function.update s.sta psta { hwaddr := hwaddr } y = s.sta y := fun y hy =>
      Function.update_of_ne hy ..
    have hself : (Function.update s.sta psta { hwaddr := hwaddr } psta).state.assocSuccess = false ∧
        (Function.update s.sta psta { hwaddr := hwaddr } psta).aid = 0 := by
      rw [Function.update_self]
      exact ⟨rfl, rfl⟩
    have hasoc : psta ∉ s.asocList := fun hmem => hout (ht.asoc psta hmem)
    have hplaced : ∀ y, y ≠ psta →
        (Placed (put s.staHash (wifiMacHash hwaddr) psta) y ↔ Placed s.staHash y) := fun y hy =>
      placed_put.trans (or_iff_right hy)
    have hbut : AssocInvBut { s with
        freeStaQueue := rest
        sta := Function.update s.sta psta { hwaddr := hwaddr }
        staHash := put s.staHash (wifiMacHash hwaddr) psta
        asocStaCount := s.asocStaCount + 1 } psta := by
      have hb := h.but psta
      refine ⟨ht', ?_, ?_, hb.disjoint, hb.asocListCnt, hb.authListCnt, ?_⟩
      · intro i y hp (haid : (Function.update s.sta psta { hwaddr := hwaddr } y).aid = i + 1)
        by_cases hy : y = psta
        · subst hy
          rw [hself.2] at haid
          cases haid
        · rw [hsta y hy] at haid
          exact hb.aid i y ((hplaced y hy).mp hp) haid
      · intro y hy
        show y ∈ s.asocList ↔ _ ∧ (Function.update s.sta psta _ y).state.assocSuccess = true
        rw [hsta y hy, hplaced y hy]
        exact hb.asoc y hy
      · intro y hy hmem
        show 0 < (Function.update s.sta psta _ y).aid
        rw [hsta y hy]
        exact hb.assoc_aid y hy hmem
    refine ⟨hbut.done (iff_of_false hasoc ?_) (fun hmem => absurd hmem hasoc)
      fun hmem => absurd hmem hasoc, placed_put.mpr (Or.inl rfl), hself.1⟩
    intro hsucc
    exact absurd (hself.1.symm.trans hsucc.2) Bool.false_ne_true

/-- The record on which `OnAuth` works. -/
theorem AssocInv.authRecord (h : AssocInv s) {sa : MacAddr} {s' : StaPriv}
    (hs : Sta.authRecord s sa = (s', some x)) :
    AssocInvBut s' x ∧ Placed s'.staHash x ∧ x ∉ s'.asocList ∧
      ((s'.sta x).state.assocSuccess = true → s.rtwGetStainfo sa = some x ∧ s'.sta x = s.sta x) := by
  unfold Sta.authRecord at hs
  cases hfound : s.rtwGetStainfo sa with
  | some pstat =>
    rw [hfound] at hs
    obtain ⟨hst, hx⟩ := Prod.mk.inj hs
    obtain rfl := Option.some.inj hx
    subst hst
    have ht := (h.but pstat).table
    have hp := ((ht.rtwGetStainfo sa).1 pstat hfound).1
    have heq : (s.unlistAsoc pstat).staHash = s.staHash ∧ (s.unlistAsoc pstat).sta = s.sta := by
      unfold StaPriv.unlistAsoc
      split_ifs
      · exact ⟨rfl, rfl⟩
      · exact ⟨rfl, rfl⟩
    refine ⟨(h.but pstat).unlistAsoc, ?_, not_mem_unlistAsoc ht, fun _ => ⟨rfl, ?_⟩⟩
    · rw [heq.1]
      exact hp
    · rw [heq.2]
  | none =>
    rw [hfound] at hs
    dsimp only at hs
    cases halloc : s.rtwAllocStainfo sa with
    | mk s1 ox =>
      cases ox with
      | none =>
        rw [halloc] at hs
        cases hs
      | some pstat =>
        rw [halloc] at hs
        obtain ⟨hst, hx⟩ := Prod.mk.inj hs
        obtain rfl := Option.some.inj hx
        subst hst
        obtain ⟨h1, hp, hsucc⟩ := h.alloc halloc
        have hout : pstat ∉ s1.asocList := by
          rw [h1.asoc pstat, hsucc]
          exact fun hmem => Bool.false_ne_true hmem.2
        refine ⟨(h1.but pstat).setSta _ rfl rfl, hp, hout, fun hbad => ?_⟩
        rw [StaPriv.setSta_self] at hbad
        cases hbad

/-- The exchange leaves address, association id and association alone. -/
theorem authExchange_keeps {mode : ℕ} {a : AuthFrame} {i j : StaInfo}
    (h : authExchange mode a i = some j) :
    j.hwaddr = i.hwaddr ∧ j.aid = i.aid ∧ j.state.assocSuccess = i.state.assocSuccess := by
  unfold authExchange at h
  dsimp only at h
  split_ifs at h <;>
    first
    | (obtain rfl := Option.some.inj h; exact ⟨rfl, rfl, rfl⟩)
    | cases h

theorem authRecord_none {sa : MacAddr} {s' : StaPriv}
    (hs : Sta.authRecord s sa = (s', none)) : s' = s := by
  unfold Sta.authRecord at hs
  cases hfound : s.rtwGetStainfo sa with
  | some pstat =>
    rw [hfound] at hs
    cases hs
  | none =>
    rw [hfound] at hs
    unfold StaPriv.rtwAllocStainfo at hs
    cases hfree : s.freeStaQueue with
    | nil =>
      rw [hfree] at hs
      exact (Prod.mk.inj hs).1.symm
    | cons psta rest =>
      rw [hfree] at hs
      cases hs

theorem listAuth_keeps (s : StaPriv) (x : ℕ) : (s.listAuth x).sta = s.sta ∧
    (s.listAuth x).staHash = s.staHash ∧ (s.listAuth x).asocList = s.asocList := by
  unfold StaPriv.listAuth
  split_ifs
  · exact ⟨rfl, rfl, rfl⟩
  · exact ⟨rfl, rfl, rfl⟩

/-- No frame gets an associated station through the exchange again. -/
def NotRestarted (priv : RtlPriv) (cfg : ApConfig) (s : StaPriv) (f : RecvFrame) : Prop :=
  ∀ x, s.rtwGetStainfo (getAddr2 f) = some x → (s.sta x).state.assocSuccess = true →
    authAllowed priv cfg f = true →
      authExchange (effectiveAuthMode priv) (parseAuth priv f) (s.sta x) = none

theorem AssocInv.onAuth (h : AssocInv s) {priv : RtlPriv} {cfg : ApConfig} {f : RecvFrame}
    (hg : NotRestarted priv cfg s f) : AssocInv (Sta.onAuth priv cfg s f).1 := by
  unfold Sta.onAuth
  split_ifs with hallowed
  · cases hrec : Sta.authRecord s (getAddr2 f) with
    | mk s' ox =>
      cases ox with
      | none =>
        rw [authRecord_none hrec]
        exact h
      | some x =>
        obtain ⟨hb, hp, hout, hold⟩ := h.authRecord hrec
        obtain ⟨hsta, hhash, hasoc⟩ := listAuth_keeps s' x
        have hb' := hb.listAuth hp
        rw [← hhash] at hp
        rw [← hasoc] at hout
        dsimp only
        cases hex : authExchange (effectiveAuthMode priv) (parseAuth priv f)
            ((s'.listAuth x).sta x) with
        | none => exact hb'.free hp hout
        | some i =>
          obtain ⟨haddr, haid, hsucc⟩ := authExchange_keeps hex
          have hdone := hb'.setSta (fun _ => i) haddr haid
          refine hdone.done (iff_of_false hout ?_) (fun hmem => absurd hmem hout)
            fun hmem => absurd hmem hout
          rintro ⟨-, hi⟩
          rw [StaPriv.setSta_self, hsucc, hsta] at hi
          obtain ⟨hfound, heq⟩ := hold hi
          rw [heq] at hi
          rw [hsta, heq, hg x hfound hi hallowed] at hex
          cases hex
  · exact h

/-- A station gets an unused association id or keeps its own. -/
theorem AssocInvBut.assignAid (h : AssocInvBut s x) (hp : Placed s.staHash x) {s' : StaPriv}
    (hs : s.assignAid x = some s') :
    AssocInvBut s' x ∧ s'.staHash = s.staHash ∧ 0 < (s'.sta x).aid := by
  have ht := h.table.assignAid hp hs
  unfold StaPriv.assignAid at hs
  split_ifs at hs with haid hroom
  · obtain rfl := Option.some.inj hs
    exact ⟨h, rfl, haid⟩
  · obtain rfl := Option.some.inj hs
    have hother : ∀ y, y ≠ x → ({ s with
        staAid := Function.update s.staAid (s.firstAid - 1) (some x) }.setSta x
          fun i => { i with aid := s.firstAid }).sta y = s.sta y :=
      fun y hy => StaPriv.setSta_of_ne _ x _ hy
    have hfirst := s.firstAid_free (Nat.le_of_not_lt hroom)
    refine ⟨⟨ht, ?_, ?_, h.disjoint, h.asocListCnt, h.authListCnt, ?_⟩, rfl, ?_⟩
    · intro i y hy hyaid
      by_cases hxy : y = x
      · subst hxy
        rw [StaPriv.setSta_self] at hyaid
        have hi : i = s.firstAid - 1 := by
          rw [show s.firstAid = i + 1 from hyaid]
          rfl
        rw [hi]
        exact Function.update_self ..
      · rw [hother y hxy] at hyaid
        have hi := h.aid i y hy hyaid
        have hne : i ≠ s.firstAid - 1 := by
          rintro rfl
          rw [hfirst] at hi
          cases hi
        exact (Function.update_of_ne hne ..).trans hi
    · intro y hy
      rw [hother y hy]
      exact h.asoc y hy
    · intro y hy hmem
      rw [hother y hy]
      exact h.assoc_aid y hy hmem
    · rw [StaPriv.setSta_self]
      exact Nat.succ_pos _

/-- A station on its way onto the association list. -/
structure Accepted (s : StaPriv) (x : ℕ) : Prop where
  but : AssocInvBut s x
  placed : Placed s.staHash x
  assocSuccess : (s.sta x).state.assocSuccess = true
  aid : 0 < (s.sta x).aid
  auth : x ∉ s.authList

theorem Accepted.setSta (h : Accepted s x) (f : StaInfo → StaInfo)
    (haddr : (f (s.sta x)).hwaddr = (s.sta x).hwaddr) (haid : (f (s.sta x)).aid = (s.sta x).aid)
    (hsucc : (f (s.sta x)).state.assocSuccess = (s.sta x).state.assocSuccess) :
    Accepted (s.setSta x f) x where
  but := h.but.setSta f haddr haid
  placed := h.placed
  assocSuccess := by rw [StaPriv.setSta_self, hsucc, h.assocSuccess]
  aid := by
    rw [StaPriv.setSta_self, haid]
    exact h.aid
  auth := h.auth

theorem Accepted.listAsoc (h : Accepted s x) :
    Accepted (s.listAsoc x) x ∧ x ∈ (s.listAsoc x).asocList := by
  have hbut := h.but.listAsoc h.placed
  unfold StaPriv.listAsoc at hbut ⊢
  split_ifs at hbut ⊢ with hx
  · exact ⟨h, hx⟩
  · exact ⟨⟨hbut, h.placed, h.assocSuccess, h.aid, h.auth⟩,
      List.mem_append_right _ (List.mem_singleton_self x)⟩

theorem AssocInvBut.assocAccept (h : AssocInvBut s x) (hp : Placed s.staHash x)
    (haid : 0 < (s.sta x).aid) (priv : RtlPriv) (e : AssocElems) :
    AssocInv (Sta.assocAccept priv e s x) := by
  unfold Sta.assocAccept
  dsimp only
  have hb := (h.setSta (fun i =>
    { i with state := { i.state with assocState := false, assocSuccess := true } }) rfl
    rfl).unlistAuth
  have hacc : Accepted ((s.setSta x fun i =>
      { i with state := { i.state with assocState := false, assocSuccess := true } }).unlistAuth x)
      x := by
    refine ⟨hb, ?_, ?_, ?_, ?_⟩
    · rw [StaPriv.unlistAuth_eq]
      exact hp
    · rw [StaPriv.unlistAuth_sta, StaPriv.setSta_self]
    · rw [StaPriv.unlistAuth_sta, StaPriv.setSta_self]
      exact haid
    · rw [StaPriv.unlistAuth_eq]
      exact fun hmem => (h.table.auth_nodup.mem_erase_iff.mp hmem).1 rfl
  generalize (s.setSta x fun i =>
    { i with state := { i.state with assocState := false, assocSuccess := true } }).unlistAuth x =
    s1 at hacc ⊢
  have hacc2 : Accepted (if x ∈ s1.asocList then s1
      else s1.setSta x fun i => { i with expireTo := expireTo }) x := by
    split_ifs
    · exact hacc
    · exact hacc.setSta _ rfl rfl rfl
  obtain ⟨hacc3, hmem⟩ := hacc2.listAsoc
  have hfin := hacc3.setSta (fun i =>
    { i with
      ht := e.ht && e.vht
      aggEnableBitmap := 0
      ieee8021xBlocked := priv.dot11AuthAlgrthm == .ieee8021X
      state := { i.state with linked := true } }) rfl rfl rfl
  exact hfin.but.done (iff_of_true hmem ⟨hfin.placed, hfin.assocSuccess⟩) (fun _ => hfin.auth)
    fun _ => hfin.aid

/-- A request is refused only of stations without an association id. -/
def NotRefused (priv : RtlPriv) (cfg : ApConfig) (s : StaPriv) (f : RecvFrame) : Prop :=
  ∀ x, s.rtwGetStainfo (getAddr2 f) = some x →
    (s.sta x).state.authSuccess = true ∨ (s.sta x).state.assocSuccess = true →
      24 + ieOffset f ≤ f.len → assocStatus priv cfg (cfg.parse f) ≠ 0 → (s.sta x).aid = 0

/-- The way out over `OnAssocReqFail` for a station without an association id. -/
theorem AssocInv.assocReqFail (h : AssocInv s) (haid : (s.sta x).aid = 0) (hp : Placed s.staHash x) :
    AssocInv (Sta.assocReqFail (s.setSta x fun i => { i with state := assocEnter i.state }) x) := by
  have hout : x ∉ s.asocList := fun hmem => absurd (h.assoc_aid x hmem) (by omega)
  have hsucc : (s.sta x).state.assocSuccess = false := by
    by_contra hne
    exact hout ((h.asoc x).mpr ⟨hp, Bool.not_eq_false _ ▸ hne⟩)
  have hb := (h.but x).setSta (fun i => { i with state := assocEnter i.state }) rfl rfl
  have hb' := hb.setSta (fun i => { i with aid := 0 }) rfl (by
    rw [StaPriv.setSta_self]
    exact haid.symm)
  refine hb'.done (iff_of_false hout ?_) (fun hmem => absurd hmem hout)
    fun hmem => absurd hmem hout
  rintro ⟨-, hbad⟩
  rw [StaPriv.setSta_self, StaPriv.setSta_self] at hbad
  dsimp only [assocEnter] at hbad
  split_ifs at hbad
  rw [hsucc] at hbad
  cases hbad

theorem AssocInv.onAssocReq (h : AssocInv s) {priv : RtlPriv} {cfg : ApConfig} {f : RecvFrame}
    (hg : NotRefused priv cfg s f) : AssocInv (Sta.onAssocReq priv cfg s f).1 := by
  unfold Sta.onAssocReq
  split_ifs with hlen
  · exact h
  · cases hfound : s.rtwGetStainfo (getAddr2 f) with
    | none => exact h
    | some x =>
      have hp := (((h.but x).table.rtwGetStainfo (getAddr2 f)).1 x hfound).1
      dsimp only
      split_ifs with hst hstatus
      · exact h
      · refine h.assocReqFail (hg x hfound ?_ (Nat.le_of_not_lt hlen) hstatus) hp
        by_contra hno
        simp only [not_or, Bool.not_eq_true] at hno
        exact hst (by simp [hno])
      · have hb := (h.but x).setSta (fun i => { i with state := assocEnter i.state }) rfl rfl
        cases hassign : (s.setSta x fun i =>
            { i with state := assocEnter i.state }).assignAid x with
        | none =>
          refine h.assocReqFail ?_ hp
          unfold StaPriv.assignAid at hassign
          split_ifs at hassign with haid
          rw [StaPriv.setSta_self] at haid
          exact Nat.eq_zero_of_not_pos haid
        | some s2 =>
          obtain ⟨hb2, hhash, haid⟩ := hb.assignAid hp hassign
          exact hb2.assocAccept (by rw [hhash]; exact hp) haid priv _

/-! ## Departure and expiry -/

theorem AssocInv.setSta (h : AssocInv s) (x : ℕ) (f : StaInfo → StaInfo)
    (haddr : (f (s.sta x)).hwaddr = (s.sta x).hwaddr) (haid : (f (s.sta x)).aid = (s.sta x).aid)
    (hsucc : (f (s.sta x)).state.assocSuccess = (s.sta x).state.assocSuccess) :
    AssocInv (s.setSta x f) := by
  refine ((h.but x).setSta f haddr haid).done ?_ (h.disjoint x) ?_
  · rw [StaPriv.setSta_self, hsucc]
    exact h.asoc x
  · rw [StaPriv.setSta_self, haid]
    exact h.assoc_aid x

theorem unlistAsoc_keeps (s : StaPriv) (x : ℕ) : (s.unlistAsoc x).staHash = s.staHash ∧
    ∀ y ∈ s.asocList, y ≠ x → y ∈ (s.unlistAsoc x).asocList := by
  unfold StaPriv.unlistAsoc
  split_ifs
  · exact ⟨rfl, fun y hy hne => (List.mem_erase_of_ne hne).mpr hy⟩
  · exact ⟨rfl, fun y hy _ => hy⟩

/-- A station leaves the association list and the table. -/
theorem AssocInv.leave (h : AssocInv s) (hx : x ∈ s.asocList) :
    AssocInv ((s.unlistAsoc x).rtwFreeStainfo (some x)) := by
  have ht := (h.but x).table
  refine (h.but x).unlistAsoc.free ?_ (not_mem_unlistAsoc ht)
  rw [(unlistAsoc_keeps s x).1]
  exact ht.asoc x hx

theorem AssocInv.onDeAuth (h : AssocInv s) (priv : RtlPriv) (f : RecvFrame) :
    AssocInv (Sta.onDeAuth priv s f) := by
  unfold Sta.onDeAuth
  split_ifs
  · exact h
  · cases hfound : s.rtwGetStainfo (getAddr2 f) with
    | none => exact h
    | some x =>
      dsimp only
      split_ifs with hx
      · exact h.leave hx
      · exact h

theorem AssocInv.expireAuth (h : AssocInv s) (hx : x ∈ s.authList) :
    AssocInv (Sta.expireAuth s x) ∧
      ∀ y ∈ s.authList, y ≠ x → y ∈ (Sta.expireAuth s x).authList := by
  unfold Sta.expireAuth
  dsimp only
  split_ifs
  · have hb := (h.but x).setSta (fun i => { i with expireTo := i.expireTo - 1 }) rfl rfl
    have hout : x ∉ s.asocList := fun hmem => h.disjoint x hmem hx
    have hp := (h.but x).table.auth x hx
    refine ⟨hb.unlistAuth.free ?_ ?_, ?_⟩
    · rw [StaPriv.unlistAuth_eq]
      exact hp
    · rw [StaPriv.unlistAuth_eq]
      exact hout
    · intro y hy hne
      have r := ((s.setSta x fun i =>
        { i with expireTo := i.expireTo - 1 }).unlistAuth x).rtwFreeStainfo_released x
      rw [r.authList, StaPriv.unlistAuth_eq]
      exact (List.mem_erase_of_ne hne).mpr ((List.mem_erase_of_ne hne).mpr hy)
  · exact ⟨h.setSta x _ rfl rfl rfl, fun y hy _ => hy⟩
  · exact ⟨h, fun y hy _ => hy⟩

/-- Aging concerns the timers only. -/
theorem ageAsoc_keeps (alive : Bool) (i : StaInfo) : (ageAsoc alive i).hwaddr = i.hwaddr ∧
    (ageAsoc alive i).aid = i.aid ∧
      (ageAsoc alive i).state.assocSuccess = i.state.assocSuccess := by
  unfold ageAsoc
  dsimp only
  split_ifs <;> exact ⟨rfl, rfl, rfl⟩

theorem AssocInv.expireAsoc (h : AssocInv s) (alive : ℕ → Bool) (hx : x ∈ s.asocList) :
    AssocInv (Sta.expireAsoc alive s x) ∧
      ∀ y ∈ s.asocList, y ≠ x → y ∈ (Sta.expireAsoc alive s x).asocList := by
  obtain ⟨haddr, haid, hsucc⟩ := ageAsoc_keeps (alive x) (s.sta x)
  have hs := h.setSta x (ageAsoc (alive x)) haddr haid hsucc
  unfold Sta.expireAsoc
  dsimp only
  split_ifs
  · refine ⟨hs.leave hx, fun y hy hne => ?_⟩
    have r := ((s.setSta x (ageAsoc (alive x))).unlistAsoc x).rtwFreeStainfo_released x
    rw [r.asocList]
    exact (unlistAsoc_keeps _ x).2 y hy hne
  · exact ⟨hs, fun y hy _ => hy⟩

theorem AssocInv.expireTimeoutChk (h : AssocInv s) (alive : ℕ → Bool) :
    AssocInv (Sta.expireTimeoutChk alive s) := by
  have hauth : AssocInv (s.authList.foldl Sta.expireAuth s) :=
    foldl_of_mem (M := fun t y => y ∈ t.authList) (fun t y ht hy => ht.expireAuth hy)
      (h.but 0).table.auth_nodup (fun y hy => hy) h
  exact foldl_of_mem (M := fun t y => y ∈ t.asocList) (fun t y ht hy => ht.expireAsoc alive hy)
    (hauth.but 0).table.asoc_nodup (fun y hy => hy) hauth

end handlers

/-! ## Runs -/

/-- The events after which the table is consistent: an associated station is not
    authenticated anew, and no request is refused of a station that has an association
    id. -/
def Steady (priv : RtlPriv) (cfg : ApConfig) (s : StaPriv) : ApEvent → Prop
  | .auth f => NotRestarted priv cfg s f
  | .assocReq f => NotRefused priv cfg s f
  | .deauth _ | .disassoc _ | .tick _ => True

theorem assocInv_step (priv : RtlPriv) (cfg : ApConfig) (s : StaPriv) (e : ApEvent)
    (hg : Steady priv cfg s e) (h : AssocInv s) : AssocInv (apStep priv cfg s e) := by
  cases e with
  | auth f => exact h.onAuth hg
  | assocReq f => exact h.onAssocReq hg
  | deauth f => exact h.onDeAuth priv f
  | disassoc f => exact h.onDeAuth priv f
  | tick alive => exact h.expireTimeoutChk alive

/-- The access point after `_rtw_init_sta_priv` and `rtw_init_bcmc_stainfo`. -/
def rtwInitAp : StaPriv := (rtwInitStaPriv.rtwAllocStainfo bcAddr).1

theorem assocInv_initAp : AssocInv rtwInitAp := by
  have hbc : rtwInitStaPriv.rtwAllocStainfo bcAddr = (rtwInitAp, some 0) := rfl
  exact (assocInv_init.alloc hbc).1

/-- The association table along every steady run. -/
theorem assocTable_of_run (priv : RtlPriv) (cfg : ApConfig) (events : List ApEvent)
    (h : Guarded (apStep priv cfg) (Steady priv cfg) rtwInitAp events) (n : ℕ) :
    AssocTable (run (apStep priv cfg) rtwInitAp (events.take n)) :=
  (invariant_run_take (assocInv_step priv cfg) h assocInv_initAp n).assocTable

/-! ### One station -/

/-- A management frame from a station to the access point with the address zero. -/
def mgtFrame (subtype : UInt8) (body : Bytes) : RecvFrame :=
  frameOf .noPrivacy 0 ([subtype, 0, 0, 0] ++ List.replicate 6 0 ++ List.replicate 6 2 ++
    List.replicate 6 0 ++ [0, 0] ++ body)

/-- An open access point. A request without elements has no SSID. -/
def openAp : ApConfig where
  ssid := [1]
  parse f := if f.len = 28 then {} else { ssid := some [1], rates := some [2] }

/-- Open-system authentication. -/
def authRequest : RecvFrame := mgtFrame 0xb0 [0, 0, 1, 0, 0, 0]

/-- An association request with an SSID and one rate. -/
def assocRequest : RecvFrame := mgtFrame 0x00 [0, 0, 0, 0, 0, 1, 1, 1, 1, 2]

/-- An association request without elements. -/
def emptyRequest : RecvFrame := mgtFrame 0x00 [0, 0, 0, 0]

/-- A station comes, stays for a tick and goes. -/
def visit : List ApEvent :=
  [.auth authRequest, .assocReq assocRequest, .tick fun _ => true, .deauth (mgtFrame 0xc0 [3, 0])]

theorem assocTable_of_visit : AssocTable (run (apStep {} openAp) rtwInitAp (visit.take 4)) := by
  have hguard : Guarded (apStep {} openAp) (Steady {} openAp) rtwInitAp visit := by
    refine ⟨?_, ?_, trivial, trivial, trivial⟩
    · intro x hx
      have hnone : rtwInitAp.rtwGetStainfo (getAddr2 authRequest) = none := by decide
      rw [hnone] at hx
      cases hx
    · intro x hx hst hlen hstatus
      exact absurd (by decide) hstatus
  exact assocTable_of_run {} openAp visit hguard 4

/-- An associated station whose next request is refused keeps its place in `sta_aid` and
    loses its association id. -/
theorem refused_leaks_aid : ¬ AssocTable (run (apStep {} openAp) rtwInitAp
    [.auth authRequest, .assocReq assocRequest, .assocReq emptyRequest]) := by
  intro h
  have haid := ((h.aid 0 1).mp (by decide)).2
  revert haid
  decide

end Rtl8821au.Sta
