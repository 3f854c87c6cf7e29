import Rtl8821au.Xmit.Coalesce

/-!
# The readers of a fragmented packet

Four functions walk the fragments that `rtw_xmitframe_coalesce` wrote, each with its own
arithmetic: `xmitframe_addmic` (`rtw_xmit.c`, lines 884–1015), the software encryption
(`rtw_wep_encrypt`, `rtw_tkip_encrypt`, `rtw_aes_encrypt` in `rtw_security.c`) and
`rtw_dump_xframe` (`trx.c`, lines 434–499). Here each of them is the list of the byte
ranges it touches.

* `addmicLoop`, `encryptLoop`, `dumpLoop`: the walks.
* `LayoutAgrees`: the walks touch the bytes that were written for each fragment.
* `fragment_walks_agree_iff`: when they do.
-/

namespace Rtl8821au.Xmit

open Recv (Bytes MacAddr Encryption)

/-! ## What was written -/

/-- The bytes between the IV and the ICV of each fragment; the last has `mic` bytes
    more. -/
def payloads (a : TxAttrib) (mic : ℕ) : List TxFragment → List Span
  | [] => []
  | [f] => [⟨f.memStart + a.hdrlen.toNat + a.ivLen, f.llc.length + f.body.length + mic⟩]
  | f :: g :: fs =>
    ⟨f.memStart + a.hdrlen.toNat + a.ivLen, f.llc.length + f.body.length⟩ ::
      payloads a mic (g :: fs)

@[simp] theorem payloads_length (a : TxAttrib) (mic : ℕ) (fs : List TxFragment) :
    (payloads a mic fs).length = fs.length := by
  fun_induction payloads a mic fs with
  | case1 => rfl
  | case2 f => rfl
  | case3 f g fs ih => exact congrArg (· + 1) ih

/-! ## The walks -/

/-- Lines 980–995 of `xmitframe_addmic`: the bytes that the MIC covers. The first
    argument counts the fragments still to come. -/
def addmicLoop (a : TxAttrib) (fragLen : UInt32) (lastTxcmdsz : ℕ) : ℕ → ℤ → List Span
  | 0, _ => []
  | n + 1, payload =>
    let payload := rnd4 payload + a.hdrlen.toNat + a.ivLen
    if n = 0 then
      let length := (lastTxcmdsz : ℤ) - a.hdrlen.toNat - a.ivLen - a.swIcvLen
      ⟨payload, length⟩ :: addmicLoop a fragLen lastTxcmdsz n (payload + length)
    else
      let length := (fragLen.toNat : ℤ) - a.hdrlen.toNat - a.ivLen - a.swIcvLen
      ⟨payload, length⟩ :: addmicLoop a fragLen lastTxcmdsz n (payload + length + a.icvLen)

/-- `xmitframe_addmic`: only TKIP has a MIC of its own. -/
def xmitframeAddmic (a : TxAttrib) (fragLen : UInt32) (bufAddr : ℤ) (pktOffset : ℕ)
    (r : Coalesced) : Option (List Span) :=
  if a.encrypt = .tkip then
    some (addmicLoop a fragLen r.lastTxcmdsz r.nrFrags (bufAddr + hwHdrOffset pktOffset))
  else none

/-- Lines 996–999: the MIC is written and counted. -/
def Coalesced.addMic (a : TxAttrib) (r : Coalesced) : Coalesced :=
  { r with lastTxcmdsz := r.lastTxcmdsz + micLen a }

/-- The loop of the three encryption functions (`rtw_security.c`, lines 203–231, 707–743
    and 1568–1583): the bytes that are encrypted, `skip` behind the header's start. -/
def encryptLoop (a : TxAttrib) (fragLen : UInt32) (lastTxcmdsz skip : ℕ) : ℕ → ℤ → List Span
  | 0, _ => []
  | n + 1, pframe =>
    if n = 0 then
      ⟨pframe + skip, lastTxcmdsz - a.hdrlen.toNat - a.ivLen - a.icvLen⟩ ::
        encryptLoop a fragLen lastTxcmdsz skip n pframe
    else
      ⟨pframe + skip, fragLen.toNat - a.hdrlen.toNat - a.ivLen - a.icvLen⟩ ::
        encryptLoop a fragLen lastTxcmdsz skip n (rnd4 (pframe + fragLen.toNat))

/-- `rtw_wep_encrypt`: the payload starts behind the IV. -/
def rtwWepEncrypt (a : TxAttrib) (fragLen : UInt32) (pframe : ℤ) (r : Coalesced) : List Span :=
  encryptLoop a fragLen r.lastTxcmdsz (a.ivLen + a.hdrlen.toNat) r.nrFrags pframe

/-- `rtw_tkip_encrypt`. -/
def rtwTkipEncrypt (a : TxAttrib) (fragLen : UInt32) (pframe : ℤ) (r : Coalesced) : List Span :=
  encryptLoop a fragLen r.lastTxcmdsz (a.ivLen + a.hdrlen.toNat) r.nrFrags pframe

/-- `rtw_aes_encrypt`: `aes_cipher` takes 8 bytes for the IV. -/
def rtwAesEncrypt (a : TxAttrib) (fragLen : UInt32) (pframe : ℤ) (r : Coalesced) : List Span :=
  encryptLoop a fragLen r.lastTxcmdsz (a.hdrlen.toNat + 8) r.nrFrags pframe

/-- `xmitframe_swencrypt` (`rtw_xmit.c`, lines 1017–1048). -/
def xmitframeSwencrypt (a : TxAttrib) (fragLen : UInt32) (bufAddr : ℤ) (pktOffset : ℕ)
    (r : Coalesced) : Option (List Span) :=
  let pframe := bufAddr + hwHdrOffset pktOffset
  if a.bswenc then
    match a.encrypt with
    | .wep40 | .wep104 => some (rtwWepEncrypt a fragLen pframe r)
    | .tkip => some (rtwTkipEncrypt a fragLen pframe r)
    | .aes => some (rtwAesEncrypt a fragLen pframe r)
    | .noPrivacy | .reserved | .cmac => none
  else none

/-- `usb_speed`. -/
inductive UsbSpeed where
  | full
  | high
  | super
  deriving DecidableEq, Repr

/-- `rtw_usb_bulk_size_boundary` (`trx.c`, lines 247–258); the test for super speed is
    overwritten by the one for full speed. -/
def rtwUsbBulkSizeBoundary : UsbSpeed → ℤ → Bool
  | .high, bufLen => bufLen % 512 == 0
  | .full, bufLen | .super, bufLen => bufLen % 64 == 0

/-- `update_txdesc` moves the descriptor of a frame of `sz` bytes by 8 (lines 274–278). -/
def Pulled (usb : UsbSpeed) (sz : ℤ) : Prop :=
  rtwUsbBulkSizeBoundary usb (txdescSize + sz) = false

instance (usb : UsbSpeed) (sz : ℤ) : Decidable (Pulled usb sz) :=
  inferInstanceAs (Decidable (_ = false))

/-- `sz` of a fragment that others follow (lines 458–460). -/
def dumpSz (sec : SecurityPriv) (a : TxAttrib) (fragLen : UInt32) : ℤ :=
  (fragLen.toNat : ℤ) - 4 - if sec.swEncrypt then 0 else a.icvLen

/-- Lines 454–492 of `rtw_dump_xframe`: the bytes of each fragment that are sent, the
    last `sz` of the `w_sz` bytes from `buf_addr` on. Only a pulled descriptor moves
    `buf_addr`. -/
def dumpLoop (sec : SecurityPriv) (usb : UsbSpeed) (a : TxAttrib) (fragLen : UInt32)
    (lastTxcmdsz : ℕ) : ℕ → ℤ → ℤ → List Span
  | 0, _, _ => []
  | n + 1, memAddr, bufAddr =>
    let sz := if n = 0 then (lastTxcmdsz : ℤ) else dumpSz sec a fragLen
    if Pulled usb sz then
      let memAddr := memAddr + packetOffsetSz
      let wSz := sz + txdescSize
      ⟨memAddr + (wSz - sz), sz⟩ ::
        dumpLoop sec usb a fragLen lastTxcmdsz n (rnd4 (memAddr + wSz)) memAddr
    else
      let wSz := sz + txdescSize + packetOffsetSz
      ⟨bufAddr + (wSz - sz), sz⟩ ::
        dumpLoop sec usb a fragLen lastTxcmdsz n (rnd4 (memAddr + wSz)) bufAddr

/-- `rtw_dump_xframe`. -/
def rtwDumpXframe (sec : SecurityPriv) (usb : UsbSpeed) (a : TxAttrib) (fragLen : UInt32)
    (bufAddr : ℤ) (r : Coalesced) : List Span :=
  dumpLoop sec usb a fragLen r.lastTxcmdsz r.nrFrags bufAddr bufAddr

/-- Every reader touches the bytes that were written for each fragment: the MIC covers
    the payloads, the encryption and the USB layer have the MIC in the last one. -/
structure WalksAgree (sec : SecurityPriv) (usb : UsbSpeed) (a : TxAttrib) (fragLen : UInt32)
    (bufAddr : ℤ) (pktOffset : ℕ) (r : Coalesced) : Prop where
  addmic : ∀ l, xmitframeAddmic a fragLen bufAddr pktOffset r = some l → l = payloads a 0 r.frags
  swencrypt : ∀ l, xmitframeSwencrypt a fragLen bufAddr pktOffset (r.addMic a) = some l →
    l = payloads a (micLen a) r.frags
  dump : rtwDumpXframe sec usb a fragLen bufAddr (r.addMic a) = wholes a (micLen a) r.frags

/-- A packet sent by `xmitframe_direct` from the start of a transmit buffer, with the
    `pkt_offset` that `rtw_init_xmitframe` sets. -/
def LayoutAgrees (sec : SecurityPriv) (usb : UsbSpeed) (a : TxAttrib) (fragLen : UInt32)
    (skb : Skb) : Prop :=
  ∃ r, rtwXmitframeCoalesce a fragLen 0 1 skb = some r ∧ WalksAgree sec usb a fragLen 0 1 r

/-! ## Walks of one fragment -/

section one

variable {sec : SecurityPriv} {usb : UsbSpeed} {a : TxAttrib} {fragLen : UInt32}
  {bufAddr mem m : ℤ} {last skip n : ℕ} {f : TxFragment} {r : Coalesced}

theorem hwHdrOffset_one : hwHdrOffset 1 = 48 := rfl

theorem size_sub (a : TxAttrib) (f : TxFragment) :
    (f.size a : ℤ) - a.hdrlen.toNat - a.ivLen - a.swIcvLen = f.llc.length + f.body.length := by
  simp only [TxFragment.size]
  omega

theorem dumpLoop_pulled (h : Pulled usb (if n = 0 then (last : ℤ) else dumpSz sec a fragLen)) :
    dumpLoop sec usb a fragLen last (n + 1) mem bufAddr =
      ⟨mem + 48, if n = 0 then (last : ℤ) else dumpSz sec a fragLen⟩ ::
        dumpLoop sec usb a fragLen last n
          (rnd4 (mem + 48 + if n = 0 then (last : ℤ) else dumpSz sec a fragLen)) (mem + 8) := by
  simp only [dumpLoop, if_pos h, txdescSize, packetOffsetSz]
  congr 2
  · omega
  · congr 1
    omega

theorem dumpLoop_not_pulled
    (h : ¬Pulled usb (if n = 0 then (last : ℤ) else dumpSz sec a fragLen)) :
    dumpLoop sec usb a fragLen last (n + 1) mem bufAddr =
      ⟨bufAddr + 48, if n = 0 then (last : ℤ) else dumpSz sec a fragLen⟩ ::
        dumpLoop sec usb a fragLen last n
          (rnd4 (mem + 48 + if n = 0 then (last : ℤ) else dumpSz sec a fragLen)) bufAddr := by
  simp only [dumpLoop, if_neg h, txdescSize, packetOffsetSz]
  congr 2
  · omega
  · congr 1
    omega

/-- The first fragment is sent from the right place whether its descriptor is pulled or
    not. -/
theorem dumpLoop_fresh (sec : SecurityPriv) (usb : UsbSpeed) (a : TxAttrib) (fragLen : UInt32)
    (last n : ℕ) (mem : ℤ) :
    ∃ b, b ≤ mem + 8 ∧ dumpLoop sec usb a fragLen last (n + 1) mem mem =
      ⟨mem + 48, if n = 0 then (last : ℤ) else dumpSz sec a fragLen⟩ ::
        dumpLoop sec usb a fragLen last n
          (rnd4 (mem + 48 + if n = 0 then (last : ℤ) else dumpSz sec a fragLen)) b := by
  by_cases h : Pulled usb (if n = 0 then (last : ℤ) else dumpSz sec a fragLen)
  · exact ⟨mem + 8, Int.le_refl _, dumpLoop_pulled h⟩
  · exact ⟨mem, by omega, dumpLoop_not_pulled h⟩

theorem dumpLoop_length : ∀ (n : ℕ) (mem bufAddr : ℤ),
    (dumpLoop sec usb a fragLen last n mem bufAddr).length = n
  | 0, _, _ => rfl
  | n + 1, mem, bufAddr => by
    by_cases h : Pulled usb (if n = 0 then (last : ℤ) else dumpSz sec a fragLen)
    · rw [dumpLoop_pulled h, List.length_cons, dumpLoop_length]
    · rw [dumpLoop_not_pulled h, List.length_cons, dumpLoop_length]

theorem encryptLoop_length : ∀ (n : ℕ) (pframe : ℤ),
    (encryptLoop a fragLen last skip n pframe).length = n
  | 0, _ => rfl
  | n + 1, pframe => by
    rw [encryptLoop]
    split_ifs
    · rw [List.length_cons, encryptLoop_length]
    · rw [List.length_cons, encryptLoop_length]

/-- The walk of the encryption over a single fragment. -/
theorem encryptLoop_one (hsw : a.bswenc) (mic : ℕ) (hm : f.memStart = m)
    (hskip : skip = a.hdrlen.toNat + a.ivLen) :
    encryptLoop a fragLen (f.size a + mic) skip 1 m = payloads a mic [f] := by
  have hicv : a.swIcvLen = a.icvLen := if_pos hsw
  have hsz := size_sub a f
  simp only [encryptLoop, if_pos, payloads, List.cons.injEq, Span.mk.injEq, and_true]
  constructor
  · omega
  · rw [hicv] at hsz
    omega

/-- `update_attrib` derives the lengths from the cipher. -/
structure AttribOk (sec : SecurityPriv) (a : TxAttrib) : Prop where
  ice : (a.ivLen, a.icvLen) = iceIvLen a.encrypt
  bswenc : a.bswenc = (a.encrypt != .noPrivacy && (sec.swEncrypt || !sec.hwDecrypted))

theorem AttribOk.iceOk (ha : AttribOk sec a) : IceOk a := by
  obtain ⟨hiv, hicv⟩ := Prod.mk.inj ha.ice
  constructor
  · rw [hiv]
    split <;> decide
  · rw [hicv]
    split <;> decide

theorem swencrypt_none (h : a.bswenc = false ∨ a.icvLen = 0) (ha : AttribOk sec a) :
    xmitframeSwencrypt a fragLen bufAddr n r = none := by
  rw [xmitframeSwencrypt]
  split_ifs with hsw
  · have hicv := (Prod.mk.inj ha.ice).2
    rw [h.resolve_left (by simp [hsw])] at hicv
    cases henc : a.encrypt <;> rw [henc] at hicv
    case wep40 => exact absurd hicv (by decide)
    case wep104 => exact absurd hicv (by decide)
    case tkip => exact absurd hicv (by decide)
    case aes => exact absurd hicv (by decide)
  · rfl

/-- The three encryption functions walk alike. -/
theorem swencrypt_some (hsw : a.bswenc) (hicv : a.icvLen ≠ 0) (ha : AttribOk sec a) :
    xmitframeSwencrypt a fragLen bufAddr n r = some
      (encryptLoop a fragLen r.lastTxcmdsz (a.ivLen + a.hdrlen.toNat) r.nrFrags
        (bufAddr + hwHdrOffset n)) := by
  obtain ⟨hiv, hicv'⟩ := Prod.mk.inj ha.ice
  rw [xmitframeSwencrypt, if_pos hsw]
  cases henc : a.encrypt <;> rw [henc] at hiv hicv'
  case noPrivacy => exact absurd hicv' hicv
  case reserved => exact absurd hicv' hicv
  case cmac => exact absurd hicv' hicv
  case aes =>
    rw [hiv, Nat.add_comm]
    rfl
  all_goals rfl

/-- Every walk of an undivided packet. -/
theorem walksAgree_one (ha : AttribOk sec a) (hm : f.memStart = 48) :
    WalksAgree sec usb a fragLen 0 1 ⟨[f], 1, f.size a⟩ where
  addmic l hl := by
    rw [xmitframeAddmic] at hl
    split_ifs at hl with htkip
    have hsz := size_sub a f
    rw [← Option.some.inj hl, hwHdrOffset_one]
    simp only [addmicLoop, if_pos, payloads, hm, Int.zero_add, hsz]
    rfl
  swencrypt l hl := by
    by_cases hsw : a.bswenc = false ∨ a.icvLen = 0
    · rw [swencrypt_none hsw ha] at hl
      exact absurd hl.symm (Option.some_ne_none l)
    · obtain ⟨hb, hicv⟩ := not_or.mp hsw
      rw [swencrypt_some (Bool.of_not_eq_false hb) hicv ha] at hl
      rw [← Option.some.inj hl]
      exact encryptLoop_one (Bool.of_not_eq_false hb) (micLen a) hm (Nat.add_comm _ _)
  dump := by
    obtain ⟨b, -, hdump⟩ := dumpLoop_fresh sec usb a fragLen (f.size a + micLen a) 0 0
    show dumpLoop sec usb a fragLen (f.size a + micLen a) 1 0 0 = _
    rw [hdump]
    simp only [if_pos, dumpLoop, wholes, hm]
    rfl

end one

/-! ## Walks of several fragments -/

section several

variable {sec : SecurityPriv} {usb : UsbSpeed} {a : TxAttrib} {fragLen : UInt32}
  {buf m : ℤ} {last b : ℕ} {f g : TxFragment} {fs : List TxFragment} {r : Coalesced} {skb : Skb}

/-- Without an ICV the USB layer sends every fragment from its place exactly if the
    descriptors of all fragments after the first are pulled: otherwise `buf` is still
    the address of an earlier fragment. -/
theorem dumpLoop_stale (sec : SecurityPriv) (usb : UsbSpeed) (hicv : a.icvLen = 0)
    (hlaid : LaidOut a (fragLen.toNat - 4) 48 m fs)
    (hlast : ∃ x, fs.getLast? = some x ∧ last = x.size a) (hbuf : buf < m - 48) :
    dumpLoop sec usb a fragLen last fs.length (m - 48) buf = wholes a 0 fs ↔
      ∀ x ∈ fs, Pulled usb (x.size a) := by
  have hsz : dumpSz sec a fragLen = fragLen.toNat - 4 := by
    simp [dumpSz, hicv]
  induction fs generalizing m buf with
  | nil => exact hlaid.elim
  | cons f fs ih =>
    cases fs with
    | nil =>
      obtain ⟨x, hx, rfl⟩ := hlast
      obtain rfl : f = x := Option.some.inj hx
      have hm : f.memStart = m := hlaid
      rw [List.forall_mem_singleton]
      by_cases hp : Pulled usb (f.size a)
      · rw [List.length_singleton, dumpLoop_pulled (by simpa using hp)]
        simp [dumpLoop, wholes, hp, hm]
      · rw [List.length_singleton, dumpLoop_not_pulled (by simpa using hp)]
        simp only [dumpLoop, wholes, hp, hm, iff_false, List.cons.injEq, Span.mk.injEq]
        rintro ⟨⟨h, -⟩, -⟩
        omega
    | cons g gs =>
      obtain ⟨hm, hf, htail⟩ := hlaid
      rw [List.forall_mem_cons, List.length_cons, hf]
      by_cases hp : Pulled usb (fragLen.toNat - 4)
      · rw [dumpLoop_pulled (by simpa [hsz] using hp)]
        have hle := le_rnd4 (m + (fragLen.toNat - 4))
        have hnext : rnd4 (m + (fragLen.toNat - 4)) + (48 : ℕ) - 48 =
            rnd4 (m - 48 + 48 + (fragLen.toNat - 4)) := by
          rw [Int.sub_add_cancel]
          omega
        have htl := ih htail hlast (show m - 48 + 8 < _ by omega)
        rw [hnext] at htl
        simp only [wholes, hm, hf, hp, true_and, ← htl, List.length_cons, Nat.succ_ne_zero, if_false,
          hsz, Int.sub_add_cancel, List.cons.injEq]
      · rw [dumpLoop_not_pulled (by simpa [hsz] using hp)]
        simp only [wholes, hm, hp, false_and, iff_false, List.cons.injEq, Span.mk.injEq]
        rintro ⟨⟨h, -⟩, -⟩
        omega

theorem micLen_of_icvLen (ha : AttribOk sec a) (hicv : a.icvLen = 0) : micLen a = 0 := by
  have h := (Prod.mk.inj ha.ice).2
  rw [hicv] at h
  apply if_neg
  intro htkip
  rw [htkip] at h
  exact absurd h (by decide)

theorem dump_divided (sec : SecurityPriv) (usb : UsbSpeed) (hicv : a.icvLen = 0)
    (hd : Divided a fragLen 0 1 skb r b f g fs) :
    rtwDumpXframe sec usb a fragLen 0 r = wholes a 0 r.frags ↔
      r.frags.length < 256 ∧ ∀ x ∈ g :: fs, Pulled usb (x.size a) := by
  by_cases hlen : r.frags.length < 256
  · obtain ⟨x, hx, hsize⟩ := hd.lastSize
    have hnr : r.nrFrags = (g :: fs).length + 1 := by
      rw [hd.nrFrags_eq, Nat.mod_eq_of_lt hlen, hd.frags_eq, List.length_cons]
    have hsz : dumpSz sec a fragLen = fragLen.toNat - 4 := by
      simp [dumpSz, hicv]
    have hlaid := hd.laidOut
    rw [hd.frags_eq] at hlaid hx
    obtain ⟨hm, hf, htail⟩ := hlaid
    rw [hwHdrOffset_one, show (0 : ℤ) + (48 : ℕ) = 0 + 48 from rfl] at hm htail
    obtain ⟨buf, hbuf, hdump⟩ :=
      dumpLoop_fresh sec usb a fragLen r.lastTxcmdsz (g :: fs).length 0
    have hle := le_rnd4 (0 + 48 + (fragLen.toNat - 4))
    have hnext : rnd4 (0 + 48 + (fragLen.toNat - 4)) + (48 : ℕ) - 48 =
        rnd4 (0 + 48 + (fragLen.toNat - 4)) := by
      omega
    have hstale := dumpLoop_stale sec usb hicv htail ⟨x, hx, hsize⟩
      (show buf < _ by have := hd.laterRoom_eq; omega)
    rw [hnext] at hstale
    rw [rtwDumpXframe, hnr, hdump, hd.frags_eq]
    rw [hd.frags_eq, List.length_cons, List.length_cons] at hlen
    simp only [wholes, hm, hf, hsz, ← hstale, List.length_cons, Nat.succ_ne_zero, if_false,
      List.cons.injEq, true_and]
    exact ⟨fun h => ⟨hlen, h⟩, And.right⟩
  · refine iff_of_false (fun h => ?_) (fun h => hlen h.1)
    have hl := congrArg List.length h
    rw [rtwDumpXframe, dumpLoop_length, wholes_length, hd.nrFrags_eq] at hl
    omega

/-- With an ICV no packet is divided rightly: the software encryption takes `frag_len`
    bytes for a fragment where `frag_len - 4` were written, and the USB layer leaves
    room for an ICV of the hardware that the writer did not leave. -/
theorem divided_icv (ha : AttribOk sec a) (hicv : a.icvLen ≠ 0)
    (hd : Divided a fragLen 0 1 skb r b f g fs) : ¬WalksAgree sec usb a fragLen 0 1 r := by
  intro h
  have hlaid := hd.laidOut
  have hsize := size_sub a f
  rw [hd.frags_eq] at hlaid
  obtain ⟨-, hf, -⟩ := hlaid
  by_cases hsw : a.bswenc
  · have henc := h.swencrypt _ (swencrypt_some hsw hicv ha)
    have hlen := congrArg List.length henc
    have hsicv : a.swIcvLen = a.icvLen := if_pos hsw
    rw [encryptLoop_length, payloads_length, hd.frags_eq, List.length_cons] at hlen
    rw [hlen, hd.frags_eq, encryptLoop, if_neg (by simp), payloads, List.cons.injEq,
      Span.mk.injEq] at henc
    obtain ⟨⟨-, hl⟩, -⟩ := henc
    rw [hsicv] at hsize
    omega
  · have hdump := h.dump
    have hlen := congrArg List.length hdump
    have hnsw : sec.swEncrypt = false := by
      have hb := ha.bswenc
      have hne : a.encrypt ≠ .noPrivacy := by
        intro hno
        have := (Prod.mk.inj ha.ice).2
        rw [hno] at this
        exact hicv this
      rw [Bool.of_not_eq_true hsw] at hb
      cases hs : sec.swEncrypt with
      | false => rfl
      | true => simp [hs, hne] at hb
    rw [rtwDumpXframe, dumpLoop_length, wholes_length, hd.frags_eq, List.length_cons] at hlen
    obtain ⟨buf, -, hfresh⟩ := dumpLoop_fresh sec usb a fragLen (r.addMic a).lastTxcmdsz
      (g :: fs).length 0
    rw [rtwDumpXframe, hlen, hfresh, hd.frags_eq, wholes, List.cons.injEq, Span.mk.injEq,
      if_neg (by simp), hf] at hdump
    simp only [dumpSz, hnsw] at hdump
    obtain ⟨⟨-, hl⟩, -⟩ := hdump
    simp at hl
    omega

/-- The descriptors of all fragments after the first are pulled, and `nr_frags` can count
    the fragments: the fragments in the middle have `frag_len - 4` bytes, the last takes
    what they leave of the packet. -/
structure LaterPulled (usb : UsbSpeed) (a : TxAttrib) (fragLen : UInt32) (skb : Skb) : Prop where
  few : restLen a fragLen skb ≤ 254 * (laterRoom a fragLen).toNat
  middle : (laterRoom a fragLen).toNat < restLen a fragLen skb → Pulled usb (fragLen.toNat - 4)
  last : Pulled usb
    (lastSize a ((restLen a fragLen skb - 1) % (laterRoom a fragLen).toNat + 1))

theorem length_lt_iff {rest b : ℕ} (hb : 0 < b) : (rest - 1) / b + 2 < 256 ↔ rest ≤ 254 * b := by
  have h : (rest - 1) / b < 254 ↔ rest - 1 < 254 * b := Nat.div_lt_iff_lt_mul hb
  omega

/-- Without an ICV only the USB layer walks. -/
theorem divided_plain (ha : AttribOk sec a) (hicv : a.icvLen = 0)
    (hd : Divided a fragLen 0 1 skb r b f g fs) :
    WalksAgree sec usb a fragLen 0 1 r ↔ LaterPulled usb a fragLen skb := by
  have hmic := micLen_of_icvLen ha hicv
  have hadd : r.addMic a = r := by
    rw [Coalesced.addMic, hmic]
    rfl
  have htkip : a.encrypt ≠ .tkip := by
    intro h
    rw [micLen, if_pos h] at hmic
    exact absurd hmic (by decide)
  have hb : (laterRoom a fragLen).toNat = b := by
    rw [hd.laterRoom_eq, Int.toNat_natCast]
  have hpos : 0 < b := Nat.lt_of_lt_of_le (by decide) hd.room_ge
  have hdump := dump_divided sec usb hicv hd
  rw [hd.later_iff, hd.length_eq, length_lt_iff hpos] at hdump
  constructor
  · intro h
    have hdmp := h.dump
    rw [hadd, hmic] at hdmp
    obtain ⟨hfew, hmid, hfin⟩ := hdump.mp hdmp
    exact ⟨hb ▸ hfew, hb ▸ hmid, hb ▸ hfin⟩
  · rintro ⟨hfew, hmid, hfin⟩
    rw [hb] at hfew hmid hfin
    refine ⟨fun l hl => ?_, fun l hl => ?_, ?_⟩
    · rw [xmitframeAddmic, if_neg htkip] at hl
      exact absurd hl.symm (Option.some_ne_none l)
    · rw [swencrypt_none (Or.inr hicv) ha] at hl
      exact absurd hl.symm (Option.some_ne_none l)
    · rw [hadd, hmic]
      exact hdump.mpr ⟨hfew, hmid, hfin⟩

end several

/-! ## When the walks agree -/

theorem updateAttrib_ok (sec : SecurityPriv) (encrypt : Encryption) (hdrlen : UInt16)
    (ra : MacAddr) (etherType : ℕ) (skb : Skb) :
    AttribOk sec (updateAttrib sec encrypt hdrlen ra etherType skb) :=
  ⟨rfl, rfl⟩

/-- For every packet, threshold, header length and cipher, the four readers touch the bytes
    that `rtw_xmitframe_coalesce` wrote for each fragment exactly if the packet is not
    divided, or is sent without encryption and every descriptor after the first is
    pulled. -/
theorem fragment_walks_agree_iff (sec : SecurityPriv) (usb : UsbSpeed) (encrypt : Encryption)
    (hdrlen : UInt16) (ra : MacAddr) (etherType : ℕ) (fragLen : UInt32) (skb : Skb) :
    LayoutAgrees sec usb (updateAttrib sec encrypt hdrlen ra etherType skb) fragLen skb ↔
      FitsFirst (updateAttrib sec encrypt hdrlen ra etherType skb) fragLen skb ∨
        (iceIvLen encrypt).2 = 0 ∧
          LaterPulled usb (updateAttrib sec encrypt hdrlen ra etherType skb) fragLen skb := by
  have ha := updateAttrib_ok sec encrypt hdrlen ra etherType skb
  have hicv : (updateAttrib sec encrypt hdrlen ra etherType skb).icvLen = (iceIvLen encrypt).2 := rfl
  generalize updateAttrib sec encrypt hdrlen ra etherType skb = a at ha hicv ⊢
  rw [← hicv]
  by_cases hfit : FitsFirst a fragLen skb
  · obtain ⟨f, hm, -, -, hone⟩ := coalesce_one 0 1 hfit
    exact iff_of_true ⟨_, hone, walksAgree_one ha hm⟩ (Or.inl hfit)
  · obtain ⟨r, b, f, g, fs, hr, hd⟩ := coalesce_divided 0 1 ha.iceOk hfit
    have hiff : LayoutAgrees sec usb a fragLen skb ↔ WalksAgree sec usb a fragLen 0 1 r := by
      constructor
      · rintro ⟨r', hr', h⟩
        obtain rfl := Option.some.inj (hr.symm.trans hr')
        exact h
      · exact fun h => ⟨r, hr, h⟩
    rw [hiff, or_iff_right hfit]
    by_cases hz : a.icvLen = 0
    · rw [divided_plain ha hz hd, and_iff_right hz]
    · exact iff_of_false (divided_icv ha hz hd) (fun h => hz h.1)

/-- A packet of 300 bytes behind its Ethernet header. -/
def longPacket : Skb where
  data := List.replicate 314 0
  ethHlen_le := by rw [List.length_replicate]; decide
  length_lt := by rw [List.length_replicate]; decide

/-- CCMP in software for one station. -/
def softwareCcmp : TxAttrib :=
  updateAttrib ⟨true, false⟩ .aes 24 (Vector.replicate 6 2) 0x0800 longPacket

theorem longPacket_divided : ¬FitsFirst softwareCcmp 256 longPacket := by
  have hlen : payloadLen softwareCcmp longPacket = 300 := by
    rw [payloadLen, longPacket, List.length_replicate]
    rfl
  have hroom : toUint (laterRoom softwareCcmp 256 - 8) = 204 := by decide
  rintro (h | h)
  · exact absurd h (by decide)
  · omega

/-- `rtw_aes_encrypt` misses the fragments of a packet of 300 bytes when the threshold is
    256. -/
theorem fragment_walks_disagree : ¬LayoutAgrees ⟨true, false⟩ .high softwareCcmp 256 longPacket := by
  rintro ⟨r, hr, h⟩
  have ha : AttribOk ⟨true, false⟩ softwareCcmp := updateAttrib_ok _ _ _ _ _ _
  obtain ⟨r', b, f, g, fs, hr', hd⟩ := coalesce_divided 0 1 ha.iceOk longPacket_divided
  obtain rfl := Option.some.inj (hr'.symm.trans hr)
  exact divided_icv ha (by decide) hd h

end Rtl8821au.Xmit
