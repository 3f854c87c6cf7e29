import Rtl8821au.Lib.Checked
import Rtl8821au.Recv.Decrypt

/-!
# Bounds of software CCMP

`aes_decipher` (`rtw_security.c`, lines 1603–1865) has its lengths as `uint`. `plen - 8` is not
compared with anything, and of the accesses to `message` only the first copy is guarded by
`MAX_MSG_SIZE`.

* `pframeAccesses`, `messageAccesses`: the indices that are read and written.
* `aesDecipherWith_unread`: the frame is not changed elsewhere.
* `aesDecrypt_inside_iff`: when all of them are inside, for a data frame that was accepted.
-/

namespace Rtl8821au.Recv.CcmpBounds

open Buffer Security

/-! ## Indices -/

/-- `buf[index + j]` for `j < n`; an index is a `uint`. -/
def span (index n : ℕ) : List ℕ := (List.range n).map fun j => (index + j) % 2 ^ 32

/-- `bitwise_xor(aes_out, &buf[index], …)`. -/
def blockReads (index : ℕ) : List ℕ := (List.range 16).map fun j => index % 2 ^ 32 + j

/-- `pn_vector` (lines 1645–1650). -/
def pnReads (hdrlen : ℕ) : List ℕ := [0, 1, 4, 5, 6, 7].map (hdrlen + ·)

/-- `mpdu` in `construct_mic_iv` and `construct_ctr_preload` (lines 1141–1168, 1260–1292). -/
def nonceReads (h : CcmpHdr) : List ℕ :=
  (if h.qcExists then (if h.a4Exists then [30] else [24]) else []) ++ [10, 11, 12, 13, 14, 15]

/-- `mpdu` in `construct_mic_header1` and `construct_mic_header2` (lines 1176–1252). -/
def headerReads (h : CcmpHdr) : List ℕ :=
  [0, 1, 4, 5, 6, 7, 8, 9, 10, 11, 12, 13, 14, 15] ++ [16, 17, 18, 19, 20, 21] ++
    match h.qcExists, h.a4Exists with
    | false, false => []
    | false, true => [24, 25, 26, 27, 28, 29]
    | true, false => [24, 25]
    | true, true => [24, 25, 26, 27, 28, 29, 30, 31]

/-- The counter loop over whole blocks: a block is read and written back. -/
def ctrBlocksAccesses (h : CcmpHdr) : (numBlocks payloadIndex : ℕ) → List ℕ
  | 0, _ => []
  | n + 1, payloadIndex =>
    nonceReads h ++ blockReads payloadIndex ++ span payloadIndex 16 ++
      ctrBlocksAccesses h n (payloadIndex + 16)

/-- The payload in counter mode (lines 1688–1724 and 1783–1818). -/
def ctrAccesses (h : CcmpHdr) (payloadIndex plen : ℕ) : List ℕ :=
  ctrBlocksAccesses h (plen / 16) payloadIndex ++
    if plen % 16 > 0 then
      nonceReads h ++ span (payloadIndex + 16 * (plen / 16)) (plen % 16) ++
        span (payloadIndex + 16 * (plen / 16)) (plen % 16)
    else []

/-- The MIC loop over whole blocks (lines 1754–1760). -/
def micBlocksReads : (numBlocks payloadIndex : ℕ) → List ℕ
  | 0, _ => []
  | n + 1, payloadIndex => blockReads payloadIndex ++ micBlocksReads n (payloadIndex + 16)

/-- `Calculate MIC` (lines 1747–1774). -/
def micReads (payloadIndex plen : ℕ) : List ℕ :=
  micBlocksReads (plen / 16) payloadIndex ++
    if plen % 16 > 0 then span (payloadIndex + 16 * (plen / 16)) (plen % 16) else []

/-- `plen - 8`. -/
def payloadLen (plen : ℕ) : ℕ := (plen + 2 ^ 32 - 8) % 2 ^ 32

/-- The copy of the frame to `message` (lines 1727–1728). -/
def messageCopy (hdrlen plen : ℕ) : List ℕ :=
  if (hdrlen + plen + 8) % 2 ^ 32 ≤ maxMsgSize then List.range ((hdrlen + plen + 8) % 2 ^ 32)
  else []

/-- The indices into `pframe`. -/
def pframeAccesses (hdrlen : ℕ) (pframe : Bytes) (plen : ℕ) : List ℕ :=
  let h := ccmpHdr hdrlen pframe
  [0, 1] ++ pnReads hdrlen ++ ctrAccesses h (h.hdrlen + 8) (payloadLen plen) ++
    messageCopy h.hdrlen plen ++ pnReads h.hdrlen ++ span (h.hdrlen + plen) 8

/-- The indices into `message`. -/
def messageAccesses (hdrlen : ℕ) (pframe : Bytes) (plen : ℕ) : List ℕ :=
  let h := ccmpHdr hdrlen pframe
  let n := payloadLen plen
  messageCopy h.hdrlen plen ++ nonceReads h ++ headerReads h ++ micReads (h.hdrlen + 8) n ++
    -- the MIC is inserted, and then encrypted with the payload
    span (h.hdrlen + 8 + n) 8 ++ ctrAccesses h (h.hdrlen + 8) n ++ nonceReads h ++
    span (h.hdrlen + plen) 8 ++ span (h.hdrlen + 8 + n) 8 ++
    -- the comparison
    span (h.hdrlen + plen) 8

/-! ## The call -/

/-- `rtw_aes_decrypt` has a key and calls `aes_decipher`. -/
def Deciphers (priv : RtlPriv) (f : RecvFrame) : Prop :=
  f.attrib.encrypt = .aes ∧ (rxKey priv f).isSome ∧
    ¬(isMulticast f.attrib.ra ∧ priv.dot118021XGrpKeyid ≠ f.attrib.keyIndex)

/-- `length`, an `int`. -/
def aesLength (f : RecvFrame) : ℤ := if aesPlen f < 2 ^ 31 then aesPlen f else aesPlen f - 2 ^ 32

/-- `pframe`. -/
def pframe (f : RecvFrame) : Bytes := f.mem.drop f.rxData

/-- The lengths do not wrap, and nothing is accessed outside of the frame and of `message`. -/
structure DecipherInside (f : RecvFrame) : Prop where
  length : 0 ≤ aesLength f
  payload : 8 ≤ aesPlen f
  frame : ∀ k ∈ pframeAccesses f.attrib.hdrlen (pframe f) (aesPlen f), k < f.len
  message : ∀ k ∈ messageAccesses f.attrib.hdrlen (pframe f) (aesPlen f), k < maxMsgSize

/-- Header, IV and MIC are there, the frame fits into `message`, and no HT Control field stands
    between a QoS field and the IV. -/
structure CcmpRoom (f : RecvFrame) : Prop where
  order : f.attrib.qos = 1 → isNullData f = false → f.attrib.order = 0
  long : f.attrib.hdrlen + f.attrib.ivLen + 8 ≤ f.len
  short : f.len ≤ maxMsgSize

theorem rtwAesDecrypt_deciphers {priv : RtlPriv} {f : RecvFrame} (message : Bytes)
    (h : Deciphers priv f) :
    ∃ key, rxKey priv f = some key ∧
      let r := aesDecipher message key f.attrib.hdrlen (pframe f) (aesPlen f)
      rtwAesDecrypt priv message f =
        { res := r.status, frame := f.memcpy f.rxData r.pframe, message := r.message } := by
  obtain ⟨henc, hkey, hgrp⟩ := h
  obtain ⟨key, hkey⟩ := Option.isSome_iff_exists.mp hkey
  refine ⟨key, hkey, ?_⟩
  rw [rtwAesDecrypt, if_pos henc, hkey]
  dsimp only
  rw [if_neg hgrp]
  rfl

/-- Else nothing is touched. -/
theorem rtwAesDecrypt_untouched {priv : RtlPriv} {f : RecvFrame} (message : Bytes)
    (h : ¬Deciphers priv f) :
    (rtwAesDecrypt priv message f).frame = f ∧
      (rtwAesDecrypt priv message f).message = message := by
  unfold rtwAesDecrypt
  split
  · next henc =>
    split
    · exact ⟨rfl, rfl⟩
    · next key hkey =>
      have hgrp : isMulticast f.attrib.ra ∧ priv.dot118021XGrpKeyid ≠ f.attrib.keyIndex := by
        by_contra hgrp
        exact h ⟨henc, by rw [hkey]; rfl, hgrp⟩
      rw [if_pos hgrp]
      exact ⟨rfl, rfl⟩
  · exact ⟨rfl, rfl⟩

/-! ## Where the indices are -/

section indices

variable {h : CcmpHdr} {k p n : ℕ}

theorem mem_span (hp : p + n ≤ 2 ^ 32) : k ∈ span p n ↔ p ≤ k ∧ k < p + n := by
  simp only [span, List.mem_map, List.mem_range]
  constructor
  · rintro ⟨j, hj, rfl⟩
    rw [Nat.mod_eq_of_lt (by omega)]
    omega
  · intro ⟨hlo, hhi⟩
    refine ⟨k - p, by omega, ?_⟩
    rw [Nat.mod_eq_of_lt (by omega)]
    omega

theorem mem_blockReads (hp : p < 2 ^ 32) : k ∈ blockReads p ↔ p ≤ k ∧ k < p + 16 := by
  simp only [blockReads, List.mem_map, List.mem_range, Nat.mod_eq_of_lt hp]
  constructor
  · rintro ⟨j, hj, rfl⟩
    omega
  · intro ⟨hlo, hhi⟩
    exact ⟨k - p, by omega, by omega⟩

theorem pnReads_lt (hk : k ∈ pnReads p) : k < p + 8 := by
  simp only [pnReads, List.map_cons, List.map_nil, List.mem_cons, List.not_mem_nil, or_false] at hk
  omega

theorem nonceReads_lt (hk : k ∈ nonceReads h) : k < 32 := by
  unfold nonceReads at hk
  split_ifs at hk <;> simp at hk <;> omega

theorem headerReads_lt (hk : k ∈ headerReads h) : k < 32 := by
  unfold headerReads at hk
  split at hk <;> simp at hk <;> omega

/-- The counter loop stays in the header and in its blocks. -/
theorem ctrBlocksAccesses_lt (hp : p + 16 * n ≤ 2 ^ 32) (hk : k ∈ ctrBlocksAccesses h n p) :
    k < 32 ∨ k < p + 16 * n := by
  induction n generalizing p with
  | zero => exact absurd hk List.not_mem_nil
  | succ n ih =>
    simp only [ctrBlocksAccesses, List.mem_append] at hk
    rcases hk with ((hk | hk) | hk) | hk
    · exact Or.inl (nonceReads_lt hk)
    · have hb := (mem_blockReads (by omega)).mp hk
      omega
    · have hs := (mem_span (by omega)).mp hk
      omega
    · have hrest := ih (by omega) hk
      omega

theorem ctrAccesses_lt (hp : p + n ≤ 2 ^ 32) (hk : k ∈ ctrAccesses h p n) :
    k < 32 ∨ k < p + n := by
  rw [ctrAccesses, List.mem_append] at hk
  rcases hk with hk | hk
  · have hb := ctrBlocksAccesses_lt (by omega) hk
    omega
  · split_ifs at hk
    · simp only [List.mem_append] at hk
      rcases hk with (hk | hk) | hk
      · exact Or.inl (nonceReads_lt hk)
      · have hs := (mem_span (by omega)).mp hk
        omega
      · have hs := (mem_span (by omega)).mp hk
        omega
    · exact absurd hk List.not_mem_nil

theorem micBlocksReads_lt (hp : p + 16 * n ≤ 2 ^ 32) (hk : k ∈ micBlocksReads n p) :
    k < p + 16 * n := by
  induction n generalizing p with
  | zero => exact absurd hk List.not_mem_nil
  | succ n ih =>
    rw [micBlocksReads, List.mem_append] at hk
    rcases hk with hk | hk
    · have hb := (mem_blockReads (by omega)).mp hk
      omega
    · have hrest := ih (by omega) hk
      omega

theorem micReads_lt (hp : p + n ≤ 2 ^ 32) (hk : k ∈ micReads p n) : k < p + n := by
  rw [micReads, List.mem_append] at hk
  rcases hk with hk | hk
  · have hb := micBlocksReads_lt (by omega) hk
    omega
  · split_ifs at hk
    · have hs := (mem_span (by omega)).mp hk
      omega
    · exact absurd hk List.not_mem_nil

end indices

/-! ## What is written -/

section written

variable {E : Block → Block} {preload : Bytes → ℕ → Block} {h : CcmpHdr} {k : ℕ}

variable (E preload) in
/-- The counter loop goes over its blocks and leaves the rest of the buffer. -/
theorem ctrBlocks_unread {n p : ℕ} (i : ℕ) (buf : Bytes) (hp : p + 16 * n ≤ 2 ^ 32)
    (hk : k ∉ ctrBlocksAccesses h n p) :
    (ctrBlocks E preload n i p buf).1 = p + 16 * n ∧
      (ctrBlocks E preload n i p buf).2.getD k 0 = buf.getD k 0 := by
  induction n generalizing i p buf with
  | zero => exact ⟨rfl, rfl⟩
  | succ n ih =>
    simp only [ctrBlocksAccesses, List.mem_append, not_or] at hk
    obtain ⟨⟨⟨-, -⟩, hwrite⟩, hrest⟩ := hk
    rw [mem_span (by omega)] at hwrite
    obtain ⟨hidx, hsame⟩ := ih (i + 1) (overwrite buf p
      (xor128 (E (preload buf (i + 1))) (blockAt buf p)).toList) (by omega) hrest
    rw [ctrBlocks]
    refine ⟨by rw [hidx]; omega, ?_⟩
    rw [hsame, overwrite_getD, if_neg]
    rintro ⟨hlo, hhi, -⟩
    rw [Vector.length_toList] at hhi
    exact hwrite ⟨hlo, hhi⟩

theorem ctrPayload_unread {n p : ℕ} (buf : Bytes) (hp : p + n ≤ 2 ^ 32)
    (hk : k ∉ ctrAccesses h p n) : (ctrPayload E preload buf p n).2.getD k 0 = buf.getD k 0 := by
  rw [ctrAccesses, List.mem_append, not_or] at hk
  obtain ⟨hblocks, hrest⟩ := hk
  obtain ⟨hidx, hsame⟩ := ctrBlocks_unread E preload 0 buf (by omega) hblocks
  unfold ctrPayload
  dsimp only
  rw [hidx]
  split_ifs at hrest ⊢
  · simp only [List.mem_append, not_or] at hrest
    obtain ⟨-, hwrite⟩ := hrest
    rw [mem_span (by omega)] at hwrite
    rw [overwrite_getD, if_neg]
    · exact hsame
    · rintro ⟨hlo, hhi, -⟩
      rw [List.length_take, Vector.length_toList] at hhi
      exact hwrite ⟨hlo, by omega⟩
  · exact hsame

/-- The frame is written by the counter loop only. -/
theorem aesDecipherWith_pframe (message : Bytes) (hdrlen : ℕ) (buf : Bytes) (plen : ℕ) :
    ∃ status message' pframe',
      aesDecipherWith E message hdrlen buf plen =
        { status := status, pframe := pframe', message := message' } ∧
      pframe' = (ctrPayload E (fun mpdu c => constructCtrPreload (ccmpHdr hdrlen buf).a4Exists
        (ccmpHdr hdrlen buf).qcExists mpdu (pnVector buf hdrlen) c) buf
        ((ccmpHdr hdrlen buf).hdrlen + 8) (payloadLen plen)).2 :=
  ⟨_, _, _, rfl, rfl⟩

/-- Only what is among the indices is changed in the frame. -/
theorem aesDecipherWith_unread {hdrlen plen : ℕ} {buf : Bytes} (message : Bytes)
    (hp : (ccmpHdr hdrlen buf).hdrlen + 8 + payloadLen plen ≤ 2 ^ 32)
    (hk : k ∉ pframeAccesses hdrlen buf plen) :
    (aesDecipherWith E message hdrlen buf plen).pframe.getD k 0 = buf.getD k 0 := by
  have hctr : k ∉ ctrAccesses (ccmpHdr hdrlen buf) ((ccmpHdr hdrlen buf).hdrlen + 8)
      (payloadLen plen) := by
    intro hmem
    apply hk
    simp only [pframeAccesses, List.mem_append]
    exact Or.inl (Or.inl (Or.inl (Or.inr hmem)))
  obtain ⟨status, message', pframe', hres, hframe⟩ := aesDecipherWith_pframe message hdrlen buf plen
  rw [hres]
  show pframe'.getD k 0 = buf.getD k 0
  rw [hframe]
  exact ctrPayload_unread buf hp hctr

end written

/-! ## Accepted frames -/

theorem getFrameSubType_pframe (f : RecvFrame) :
    Security.getFrameSubType (pframe f) = Recv.getFrameSubType f := by
  simp only [Security.getFrameSubType, frameControl, pframe, Checked.getD_drop,
    Recv.getFrameSubType, RecvFrame.le16At, RecvFrame.byteAt]

/-- The subtypes with a QoS field. -/
theorem qosSubType_iff {s : ℕ} (hs : s < 256) :
    s >>> 4 ∈ [0x08, 0x09, 0x0a, 0x0b] ↔ s.testBit 7 = true ∧ s.testBit 6 = false := by
  rw [Nat.shiftRight_eq_div_pow, Nat.testBit_eq_decide_div_mod_eq,
    Nat.testBit_eq_decide_div_mod_eq]
  simp only [List.mem_cons, List.not_mem_nil, or_false, decide_eq_true_eq, decide_eq_false_iff_not]
  omega

/-- The header of `aes_decipher` is two bytes too long if an HT Control field follows the QoS
    field: only `hdrlen = 26` is taken for a header that has a QoS field. -/
theorem ccmpHdr_validated {f : RecvFrame} (h : Validated f) :
    (ccmpHdr f.attrib.hdrlen (pframe f)).hdrlen =
      f.attrib.hdrlen + if f.attrib.qos = 1 ∧ isNullData f = false ∧ f.attrib.order ≠ 0 then 2
        else 0 := by
  have hlt : Recv.getFrameSubType f < 256 := Nat.lt_of_le_of_lt Nat.and_le_right (by decide)
  have hqos : f.attrib.qos = 1 ↔ (Recv.getFrameSubType f).testBit 7 = true := by
    rw [h.qos]
    cases (Recv.getFrameSubType f).testBit 7 with
    | false => decide
    | true => decide
  have hcf := getFrameType_not_cf (pframe f)
  have hdr := h.hdrlen
  have hadjust : (Security.getFrameType (pframe f) ∈ wifiDataCf ∨
      Security.getFrameSubType (pframe f) >>> 4 ∈ [0x08, 0x09, 0x0a, 0x0b]) ↔
        f.attrib.qos = 1 ∧ isNullData f = false := by
    rw [or_iff_right hcf, getFrameSubType_pframe, qosSubType_iff hlt, hqos, isNullData]
  by_cases hq : f.attrib.qos = 1 ∧ isNullData f = false
  · have hhdr : (ccmpHdr f.attrib.hdrlen (pframe f)).hdrlen =
        if f.attrib.hdrlen ≠ wlanHdrA3QosLen then f.attrib.hdrlen + 2 else f.attrib.hdrlen := by
      rw [ccmpHdr, if_pos (hadjust.mpr hq)]
    rw [hhdr]
    rw [if_pos hq.1] at hdr
    by_cases ho : f.attrib.order ≠ 0
    · rw [if_pos ho] at hdr
      have hne : f.attrib.hdrlen ≠ wlanHdrA3QosLen := by
        rw [hdr]
        decide
      rw [if_pos hne, if_pos ⟨hq.1, hq.2, ho⟩]
    · rw [if_neg ho] at hdr
      have heq : f.attrib.hdrlen = wlanHdrA3QosLen := hdr
      rw [if_neg (not_not_intro heq), if_neg fun hall => ho hall.2.2]
      rfl
  · rw [ccmpHdr, if_neg fun hmem => hq (hadjust.mp hmem), if_neg fun hall => hq ⟨hall.1, hall.2.1⟩]
    rfl

theorem validateData_validated {priv : RtlPriv} {tidRxseq : ℕ → ℕ → ℕ} {f : RecvFrame}
    (hlen : f.LenOk) (h : (validateData priv tidRxseq f).status = .success) :
    Validated (validateData priv tidRxseq f).frame :=
  validateRecvDataFrame_validated hlen rfl h

theorem validateData_len {priv : RtlPriv} {tidRxseq : ℕ → ℕ → ℕ} {f : RecvFrame}
    (h : (validateData priv tidRxseq f).status = .success) :
    (validateData priv tidRxseq f).frame.len = f.len := by
  obtain ⟨psta, -, -, hframe⟩ := validateRecvDataFrame_success h
  rw [validateData, hframe]
  rfl

/-! ## When all indices are inside -/

section inside

variable {f : RecvFrame}

/-- The lengths are right if there are header, IV and MIC. -/
theorem lengths_iff (hiv : f.attrib.ivLen = 8) (hhdr : f.attrib.hdrlen ≤ 30)
    (hu32 : f.len < 2 ^ 32) :
    (0 ≤ aesLength f ∧ 8 ≤ aesPlen f) ↔
      f.attrib.hdrlen + 16 ≤ f.len ∧ f.len < f.attrib.hdrlen + 8 + 2 ^ 31 := by
  rw [aesLength, aesPlen, hiv]
  split_ifs <;> omega

theorem aesPlen_eq (hiv : f.attrib.ivLen = 8) (hlong : f.attrib.hdrlen + 16 ≤ f.len)
    (hu32 : f.len < 2 ^ 32) : aesPlen f + f.attrib.hdrlen + 8 = f.len := by
  rw [aesPlen, hiv]
  omega

theorem messageCopy_lt {hdrlen plen k : ℕ} (hk : k ∈ messageCopy hdrlen plen) :
    k < hdrlen + plen + 8 ∧ k < maxMsgSize := by
  unfold messageCopy at hk
  split_ifs at hk with hfits
  · rw [List.mem_range] at hk
    have hle := Nat.mod_le (hdrlen + plen + 8) (2 ^ 32)
    omega
  · exact absurd hk List.not_mem_nil

/-- The last byte that is compared. -/
theorem last_mem (hdrlen plen : ℕ) (buf : Bytes)
    (h32 : (ccmpHdr hdrlen buf).hdrlen + plen + 8 ≤ 2 ^ 32) :
    (ccmpHdr hdrlen buf).hdrlen + plen + 7 ∈ pframeAccesses hdrlen buf plen ∧
      (ccmpHdr hdrlen buf).hdrlen + plen + 7 ∈ messageAccesses hdrlen buf plen := by
  have hlast : (ccmpHdr hdrlen buf).hdrlen + plen + 7 ∈
      span ((ccmpHdr hdrlen buf).hdrlen + plen) 8 :=
    (mem_span h32).mpr ⟨by omega, by omega⟩
  exact ⟨List.mem_append_right _ hlast, List.mem_append_right _ hlast⟩

theorem pframeAccesses_lt {hdrlen plen k : ℕ} {buf : Bytes} (hplen : 8 ≤ plen)
    (hhdr : 24 ≤ hdrlen) (h32 : hdrlen + plen + 8 ≤ 2 ^ 32)
    (hsame : (ccmpHdr hdrlen buf).hdrlen = hdrlen) (hk : k ∈ pframeAccesses hdrlen buf plen) :
    k < hdrlen + plen + 8 := by
  have hn : payloadLen plen = plen - 8 := by
    rw [payloadLen]
    omega
  simp only [pframeAccesses, List.mem_append, hsame, hn] at hk
  rcases hk with ((((hk | hk) | hk) | hk) | hk) | hk
  · simp only [List.mem_cons, List.not_mem_nil, or_false] at hk
    omega
  · have := pnReads_lt hk
    omega
  · have := ctrAccesses_lt (by omega) hk
    omega
  · exact (messageCopy_lt hk).1
  · have := pnReads_lt hk
    omega
  · have := (mem_span (by omega)).mp hk
    omega

theorem messageAccesses_lt {hdrlen plen k : ℕ} {buf : Bytes} (hplen : 8 ≤ plen)
    (hhdr : 24 ≤ hdrlen) (h32 : hdrlen + plen + 8 ≤ 2 ^ 32)
    (hsame : (ccmpHdr hdrlen buf).hdrlen = hdrlen) (hk : k ∈ messageAccesses hdrlen buf plen) :
    k < hdrlen + plen + 8 := by
  have hn : payloadLen plen = plen - 8 := by
    rw [payloadLen]
    omega
  simp only [messageAccesses, List.mem_append, hsame, hn] at hk
  rcases hk with ((((((((hk | hk) | hk) | hk) | hk) | hk) | hk) | hk) | hk) | hk
  · exact (messageCopy_lt hk).1
  · have := nonceReads_lt hk
    omega
  · have := headerReads_lt hk
    omega
  · have := micReads_lt (by omega) hk
    omega
  · have := (mem_span (by omega)).mp hk
    omega
  · have := ctrAccesses_lt (by omega) hk
    omega
  · have := nonceReads_lt hk
    omega
  · have := (mem_span (by omega)).mp hk
    omega
  · have := (mem_span (by omega)).mp hk
    omega
  · have := (mem_span (by omega)).mp hk
    omega

theorem decipherInside_iff (h : Validated f) (henc : f.attrib.encrypt = .aes)
    (hu32 : f.len < 2 ^ 32) : DecipherInside f ↔ CcmpRoom f := by
  have hiv : f.attrib.ivLen = 8 := by rw [h.ivLen, henc]; rfl
  have hhdr : 24 ≤ f.attrib.hdrlen ∧ f.attrib.hdrlen ≤ 30 := by
    rw [h.hdrlen]
    split_ifs <;> omega
  have hccmp := ccmpHdr_validated h
  constructor
  · intro hin
    obtain ⟨hlong, hlt⟩ := (lengths_iff hiv hhdr.2 hu32).mp ⟨hin.length, hin.payload⟩
    have hplen := aesPlen_eq hiv hlong hu32
    have hadd : (ccmpHdr f.attrib.hdrlen (pframe f)).hdrlen ≤ f.attrib.hdrlen + 2 := by
      rw [hccmp]
      split_ifs <;> omega
    obtain ⟨hframe, hmessage⟩ := last_mem f.attrib.hdrlen (aesPlen f) (pframe f) (by omega)
    have hframe := hin.frame _ hframe
    have hmessage := hin.message _ hmessage
    refine ⟨?_, by omega, ?_⟩
    · intro hq hnull
      by_contra ho
      rw [hccmp, if_pos ⟨hq, hnull, ho⟩] at hframe
      omega
    · rw [hccmp] at hmessage
      omega
  · intro hroom
    have hlong : f.attrib.hdrlen + 16 ≤ f.len := by
      have := hroom.long
      omega
    have hshort : f.len ≤ 2048 := hroom.short
    have hplen := aesPlen_eq hiv hlong hu32
    have hsame : (ccmpHdr f.attrib.hdrlen (pframe f)).hdrlen = f.attrib.hdrlen := by
      rw [hccmp, if_neg fun ⟨hq, hnull, ho⟩ => ho (hroom.order hq hnull), Nat.add_zero]
    obtain ⟨hlength, hpayload⟩ := (lengths_iff hiv hhdr.2 hu32).mpr ⟨hlong, by omega⟩
    refine ⟨hlength, hpayload, ?_, ?_⟩
    · intro k hk
      have := pframeAccesses_lt hpayload hhdr.1 (by omega) hsame hk
      omega
    · intro k hk
      have hk := messageAccesses_lt hpayload hhdr.1 (by omega) hsame hk
      show k < 2048
      omega

end inside

/-- For an accepted data frame that `aes_decipher` is called on, the lengths do not wrap and all
    indices are inside exactly if the frame has room for header, IV and MIC, fits into `message`,
    and has no HT Control field behind a QoS field. -/
theorem aesDecrypt_inside_iff (priv : RtlPriv) (tidRxseq : ℕ → ℕ → ℕ) (f : RecvFrame)
    (hlen : f.LenOk) (hu32 : f.len < 2 ^ 32)
    (h : (validateData priv tidRxseq f).status = .success)
    (haes : (validateData priv tidRxseq f).frame.attrib.encrypt = .aes) :
    let g := setKeyIndex (validateData priv tidRxseq f).frame
    (Deciphers priv g → DecipherInside g) ↔ (Deciphers priv g → CcmpRoom g) := by
  intro g
  have hvalid : Validated g := (validateData_validated hlen h).setKeyIndex
  have hg : g.len < 2 ^ 32 := by
    rw [setKeyIndex_len, validateData_len h]
    exact hu32
  have henc : g.attrib.encrypt = .aes := (setKeyIndex_encrypt _).trans haes
  exact forall_congr' fun _ => decipherInside_iff hvalid henc hg

/-! ## Frames from the access point -/

/-- The address of the interface and that of its access point. -/
def ownAddr : MacAddr := #v[2, 0, 0, 0, 0, 0x21]

def apAddr : MacAddr := #v[2, 0, 0, 0, 0, 0x22]

/-- A station in a network with CCMP. -/
def ccmpSta : RtlPriv where
  fwState := { station := true, linked := true }
  myhwaddr := ownAddr
  mybssid := apAddr
  lookup := fun _ => some 0
  dot11PrivacyAlgrthm := .aes

/-- A frame from the access point: the two bytes of its frame control, and `n` zeros behind the
    first 24 bytes of the header. -/
def apFrame (fc flags : UInt8) (n : ℕ) : RecvFrame :=
  frameOf .noPrivacy 0 ([fc, flags, 0, 0] ++ ownAddr.toList ++ apAddr.toList ++
    [2, 0, 0, 0, 0, 0x23] ++ [1, 0] ++ List.replicate n 0)

/-- What `rtw_aes_decrypt` gets of it. -/
def apReceived (fc flags : UInt8) (n : ℕ) : ValidateResult :=
  validateData ccmpSta (fun _ _ => 0xffff) (apFrame fc flags n)

/-- A frame of 24 bytes of header, 8 of IV, 3 of payload and 8 of MIC. -/
theorem smallFrame_inside : DecipherInside (setKeyIndex (apReceived 0x08 0x42 19).frame) := by
  have hroom : CcmpRoom (setKeyIndex (apReceived 0x08 0x42 19).frame) :=
    ⟨by decide, by decide, by decide⟩
  have hdeciphers : Deciphers ccmpSta (setKeyIndex (apReceived 0x08 0x42 19).frame) :=
    ⟨by decide, by decide, by decide⟩
  exact (aesDecrypt_inside_iff ccmpSta (fun _ _ => 0xffff) (apFrame 0x08 0x42 19) rfl
    (by decide) (by decide) (by decide)).mpr (fun _ => hroom) hdeciphers

/-- A frame that ends with its IV. -/
theorem noMic_wraps :
    (apReceived 0x08 0x42 8).status = .success ∧
      Deciphers ccmpSta (setKeyIndex (apReceived 0x08 0x42 8).frame) ∧
      ¬DecipherInside (setKeyIndex (apReceived 0x08 0x42 8).frame) := by
  refine ⟨by decide, ⟨by decide, by decide, by decide⟩, ?_⟩
  intro hin
  have hpayload : ¬8 ≤ aesPlen (setKeyIndex (apReceived 0x08 0x42 8).frame) := by decide
  exact hpayload hin.payload

end Rtl8821au.Recv.CcmpBounds
