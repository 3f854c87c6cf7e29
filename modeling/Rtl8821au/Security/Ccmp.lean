import Mathlib.Algebra.Group.Nat.Defs
import Rtl8821au.Lib.AuthEnc
import Rtl8821au.Security.Aes

/-!
# Software CCMP

`aes_cipher` and `aes_decipher` (`rtw_security.c`, lines 1311–1865). Both work in
place on a buffer `header ‖ IV ‖ payload ‖ MIC`; the receiver decrypts, encrypts a
copy again and compares the MICs.

The functions are stated over an arbitrary keyed block cipher `E`;
`aesCipher` and `aesDecipher` are their instances at `aes128k128d`.

Results:
* `ctrPayload_eq`, `micPayload_eq`: the loops over whole blocks and a rest are a
  stream cipher and a chain over padded blocks.
* `ccmpEncrypt_eq`: the common part of both functions is `Scheme.encrypt`.
* `aesCipher_eq`, `aesDecipher_eq`: what sender and receiver do to a frame.
* `ccmp_round_trip`: they fit together.
-/

namespace Rtl8821au.Security

open Recv (Bytes Status)
open Buffer AuthEnc

/-! ## Header -/

/-- The first two bytes of a frame as a little-endian word. -/
def frameControl (pbuf : Bytes) : ℕ := (pbuf.getD 0 0).toNat + 256 * (pbuf.getD 1 0).toNat

/-- `GetFrameType` (`wifi.h`, line 344). -/
def getFrameType (pbuf : Bytes) : ℕ := frameControl pbuf &&& 0x0c

/-- `GetFrameSubType` (`wifi.h`, line 352). -/
def getFrameSubType (pbuf : Bytes) : ℕ := frameControl pbuf &&& 0xfc

/-- `WLAN_HDR_A3_LEN` and `WLAN_HDR_A3_QOS_LEN` (`wifi.h`, lines 38, 40). -/
def wlanHdrA3Len : ℕ := 24

def wlanHdrA3QosLen : ℕ := 26

/-- `WIFI_DATA_CFACK`, `WIFI_DATA_CFPOLL`, `WIFI_DATA_CFACKPOLL` (`wifi.h`, lines
    95–97). -/
def wifiDataCf : List ℕ := [0x18, 0x28, 0x38]

/-- `qc_exists`, `a4_exists` and the adjusted `hdrlen`. -/
structure CcmpHdr where
  qcExists : Bool
  a4Exists : Bool
  hdrlen : ℕ
  deriving DecidableEq, Repr

/-- How both functions read the header (lines 1345–1375 and 1652–1682). -/
def ccmpHdr (hdrlen : ℕ) (pframe : Bytes) : CcmpHdr :=
  let frtype := getFrameType pframe
  let frsubtype := getFrameSubType pframe >>> 4
  let a4Exists := !(hdrlen == wlanHdrA3Len || hdrlen == wlanHdrA3QosLen)
  if frtype ∈ wifiDataCf ∨ frsubtype ∈ [0x08, 0x09, 0x0a, 0x0b] then
    { qcExists := true, a4Exists := a4Exists
      hdrlen := if hdrlen ≠ wlanHdrA3QosLen then hdrlen + 2 else hdrlen }
  else { qcExists := false, a4Exists := a4Exists, hdrlen := hdrlen }

/-- `pn_vector`: the packet number bytes of the IV. -/
def pnVector (pframe : Bytes) (hdrlen : ℕ) : Vector UInt8 6 :=
  let b := fun k => pframe.getD (hdrlen + k) 0
  #v[b 0, b 1, b 4, b 5, b 6, b 7]

/-- The second byte of the nonce blocks: the QoS priority. -/
def qosByte (qcExists a4Exists : Bool) (mpdu : Bytes) : UInt8 :=
  if qcExists then (if a4Exists then mpdu.getD 30 0 else mpdu.getD 24 0) &&& 0x0f else 0x00

/-- `construct_mic_iv` (lines 1141–1168); `CONSISTENT_PN_ORDER` is not defined. -/
def constructMicIv (qcExists a4Exists : Bool) (mpdu : Bytes) (payloadLength : ℕ)
    (pn : Vector UInt8 6) : Block :=
  let m := fun k => mpdu.getD k 0
  #v[0x59, qosByte qcExists a4Exists mpdu, m 10, m 11, m 12, m 13, m 14, m 15,
    pn.getD 5 0, pn.getD 4 0, pn.getD 3 0, pn.getD 2 0, pn.getD 1 0, pn.getD 0 0,
    UInt8.ofNat (payloadLength / 256), UInt8.ofNat (payloadLength % 256)]

/-- `construct_mic_header1` (lines 1176–1200). -/
def constructMicHeader1 (headerLength : ℕ) (mpdu : Bytes) : Block :=
  let m := fun k => mpdu.getD k 0
  #v[UInt8.ofNat ((headerLength - 2) / 256), UInt8.ofNat ((headerLength - 2) % 256),
    m 0 &&& 0xcf, m 1 &&& 0xc7, m 4, m 5, m 6, m 7, m 8, m 9, m 10, m 11, m 12, m 13, m 14, m 15]

/-- `construct_mic_header2` (lines 1208–1252). -/
def constructMicHeader2 (mpdu : Bytes) (a4Exists qcExists : Bool) : Block :=
  let m := fun k => mpdu.getD k 0
  let tail : Vector UInt8 8 :=
    match qcExists, a4Exists with
    | false, false => #v[0, 0, 0, 0, 0, 0, 0, 0]
    | false, true => #v[m 24, m 25, m 26, m 27, m 28, m 29, 0, 0]
    | true, false => #v[m 24 &&& 0x0f, m 25 &&& 0x00, 0, 0, 0, 0, 0, 0]
    | true, true => #v[m 24, m 25, m 26, m 27, m 28, m 29, m 30 &&& 0x0f, m 31 &&& 0x00]
  #v[m 16, m 17, m 18, m 19, m 20, m 21, 0x00, 0x00,
    tail[0], tail[1], tail[2], tail[3], tail[4], tail[5], tail[6], tail[7]]

/-- `construct_ctr_preload` (lines 1260–1292). -/
def constructCtrPreload (a4Exists qcExists : Bool) (mpdu : Bytes) (pn : Vector UInt8 6) (c : ℕ) :
    Block :=
  let m := fun k => mpdu.getD k 0
  #v[0x01, qosByte qcExists a4Exists mpdu, m 10, m 11, m 12, m 13, m 14, m 15,
    pn.getD 5 0, pn.getD 4 0, pn.getD 3 0, pn.getD 2 0, pn.getD 1 0, pn.getD 0 0,
    UInt8.ofNat (c / 256), UInt8.ofNat (c % 256)]

/-! ## Loops -/

/-- `&buf[off]` read as 16 bytes. -/
def blockAt (buf : Bytes) (off : ℕ) : Block := Vector.ofFn fun j => buf.getD (off + j.val) 0

/-- `padded_buffer` with `r` bytes of `buf`. -/
def paddedBuffer (buf : Bytes) (off r : ℕ) : Block :=
  Vector.ofFn fun j => if j.val < r then buf.getD (off + j.val) 0 else 0

section cipher

variable (E : Block → Block)

/-- The MIC loop over whole blocks (lines 1421–1426): `payload_index` and
    `aes_out`. -/
def micBlocks (buf : Bytes) : (numBlocks payloadIndex : ℕ) → (aesOut : Block) → ℕ × Block
  | 0, payloadIndex, aesOut => (payloadIndex, aesOut)
  | n + 1, payloadIndex, aesOut =>
    micBlocks buf n (payloadIndex + 16) (E (xor128 aesOut (blockAt buf payloadIndex)))

/-- `Calculate MIC` (lines 1413–1438 and 1747–1777). -/
def micPayload (micIv micHeader1 micHeader2 : Block) (buf : Bytes) (payloadIndex plen : ℕ) :
    ℕ × Block :=
  let aesOut := E (xor128 (E (xor128 (E micIv) micHeader1)) micHeader2)
  let (payloadIndex, aesOut) := micBlocks E buf (plen / 16) payloadIndex aesOut
  if plen % 16 > 0 then
    (payloadIndex + plen % 16, E (xor128 aesOut (paddedBuffer buf payloadIndex (plen % 16))))
  else (payloadIndex, aesOut)

/-- The counter loop over whole blocks (lines 1448–1461, 1689–1704 and
    1784–1795) from counter `i`; the counter block is built from the buffer as it
    is. -/
def ctrBlocks (preload : Bytes → ℕ → Block) :
    (numBlocks i payloadIndex : ℕ) → Bytes → ℕ × Bytes
  | 0, _, payloadIndex, buf => (payloadIndex, buf)
  | n + 1, i, payloadIndex, buf =>
    let chain := xor128 (E (preload buf (i + 1))) (blockAt buf payloadIndex)
    ctrBlocks preload n (i + 1) (payloadIndex + 16) (overwrite buf payloadIndex chain.toList)

/-- The payload in counter mode (lines 1447–1481, 1688–1724 and 1783–1818). -/
def ctrPayload (preload : Bytes → ℕ → Block) (buf : Bytes) (payloadIndex plen : ℕ) : ℕ × Bytes :=
  let (payloadIndex, buf) := ctrBlocks E preload (plen / 16) 0 payloadIndex buf
  if plen % 16 > 0 then
    let chain := xor128 (E (preload buf (plen / 16 + 1)))
      (paddedBuffer buf payloadIndex (plen % 16))
    (payloadIndex + plen % 16, overwrite buf payloadIndex (chain.toList.take (plen % 16)))
  else (payloadIndex, buf)

/-- From `Calculate MIC` to the end of `aes_cipher` (lines 1405–1496), which
    `aes_decipher` repeats on `message` (lines 1739–1848). -/
def ccmpEncrypt (h : CcmpHdr) (pn : Vector UInt8 6) (micIv micHeader1 micHeader2 : Block)
    (buf : Bytes) (plen : ℕ) : Bytes :=
  let preload := fun mpdu c => constructCtrPreload h.a4Exists h.qcExists mpdu pn c
  let (payloadIndex, aesOut) :=
    micPayload E micIv micHeader1 micHeader2 buf (h.hdrlen + 8) plen
  let buf := overwrite buf payloadIndex (aesOut.toList.take 8)
  let (payloadIndex, buf) := ctrPayload E preload buf (h.hdrlen + 8) plen
  let chain := xor128 (E (preload buf 0)) (paddedBuffer buf (h.hdrlen + 8 + plen) 8)
  overwrite buf payloadIndex (chain.toList.take 8)

/-- `aes_cipher` (lines 1311–1497) over the block cipher `E`: what it leaves in
    `pframe`. It returns `_SUCCESS`. -/
def aesCipherWith (hdrlen : ℕ) (pframe : Bytes) (plen : ℕ) : Bytes :=
  let h := ccmpHdr hdrlen pframe
  let pn := pnVector pframe h.hdrlen
  ccmpEncrypt E h pn (constructMicIv h.qcExists h.a4Exists pframe plen pn)
    (constructMicHeader1 h.hdrlen pframe) (constructMicHeader2 pframe h.a4Exists h.qcExists)
    pframe plen

/-- `MAX_MSG_SIZE` (line 854). -/
def maxMsgSize : ℕ := 2048

/-- What `aes_decipher` returns and leaves in `pframe` and in its static
    `message`. -/
structure DecipherResult where
  status : Status
  pframe : Bytes
  message : Bytes

/-- `aes_decipher` (lines 1603–1865) over the block cipher `E`. `plen` counts the
    MIC; `plen - 8` is computed in `uint`. -/
def aesDecipherWith (message : Bytes) (hdrlen : ℕ) (pframe : Bytes) (plen : ℕ) : DecipherResult :=
  let n := (plen + 2 ^ 32 - 8) % 2 ^ 32
  let pn := pnVector pframe hdrlen
  let h := ccmpHdr hdrlen pframe
  let preload := fun mpdu c => constructCtrPreload h.a4Exists h.qcExists mpdu pn c
  let pframe := (ctrPayload E preload pframe (h.hdrlen + 8) n).2
  let message :=
    if h.hdrlen + plen + 8 ≤ maxMsgSize then
      overwrite message 0 ((List.range (h.hdrlen + plen + 8)).map fun k => pframe.getD k 0)
    else message
  let pn := pnVector pframe h.hdrlen
  let message := ccmpEncrypt E h pn (constructMicIv h.qcExists h.a4Exists message n pn)
    (constructMicHeader1 h.hdrlen message) (constructMicHeader2 message h.a4Exists h.qcExists)
    message n
  let micOk := (List.range 8).all fun i =>
    pframe.getD (h.hdrlen + plen + i) 0 == message.getD (h.hdrlen + plen + i) 0
  { status := if micOk then .success else .fail, pframe := pframe, message := message }

end cipher

/-- `aes_cipher`. -/
def aesCipher (key : Block) (hdrlen : ℕ) (pframe : Bytes) (plen : ℕ) : Bytes :=
  aesCipherWith (aes128k128d key) hdrlen pframe plen

/-- `aes_decipher`. -/
def aesDecipher (message : Bytes) (key : Block) (hdrlen : ℕ) (pframe : Bytes) (plen : ℕ) :
    DecipherResult :=
  aesDecipherWith (aes128k128d key) message hdrlen pframe plen

/-! ## Blocks of a buffer -/

/-- How the functions combine a byte with a byte of the keystream. -/
def xorByte (b k : UInt8) : UInt8 := k ^^^ b

theorem xorByte_xorByte (b k : UInt8) : xorByte (xorByte b k) k = b := by
  rw [xorByte, xorByte, ← UInt8.xor_assoc, UInt8.xor_self, UInt8.zero_xor]

theorem xor128_toList_getD (a b : Block) {j : ℕ} (hj : j < 16) :
    (xor128 a b).toList.getD j 0 = a.get ⟨j, hj⟩ ^^^ b.get ⟨j, hj⟩ := by
  simp [xor128, List.getD_eq_getElem?_getD, hj]

theorem blockAt_get (buf : Bytes) (off : ℕ) {j : ℕ} (hj : j < 16) :
    (blockAt buf off).get ⟨j, hj⟩ = buf.getD (off + j) 0 := by
  exact Vector.getElem_ofFn hj

theorem paddedBuffer_get (buf : Bytes) (off r : ℕ) {j : ℕ} (hj : j < 16) :
    (paddedBuffer buf off r).get ⟨j, hj⟩ = if j < r then buf.getD (off + j) 0 else 0 := by
  exact Vector.getElem_ofFn hj

theorem getD_middle {pre p post : Bytes} {k : ℕ} (hk : k < p.length) :
    (pre ++ p ++ post).getD (pre.length + k) 0 = p.getD k 0 := by
  rw [getD_append_left (by rw [List.length_append]; omega), getD_append_right (by omega),
    Nat.add_sub_cancel_left]

theorem blockAt_middle {pre p post : Bytes} {i : ℕ} (hi : 16 * i + 16 ≤ p.length) :
    blockAt (pre ++ p ++ post) (pre.length + 16 * i) = padBlock 16 0 p i := by
  refine Vector.ext fun j hj => ?_
  simp only [blockAt, padBlock, Vector.getElem_ofFn]
  rw [Nat.add_assoc, getD_middle (by omega)]

theorem paddedBuffer_middle {pre p post : Bytes} :
    paddedBuffer (pre ++ p ++ post) (pre.length + 16 * (p.length / 16)) (p.length % 16) =
      padBlock 16 0 p (p.length / 16) := by
  refine Vector.ext fun j hj => ?_
  simp only [paddedBuffer, padBlock, Vector.getElem_ofFn]
  split_ifs with h
  · rw [Nat.add_assoc, getD_middle (by omega)]
  · exact (List.getD_eq_default _ _ (by omega)).symm

/-! ## The MIC loop -/

section cipher

variable {E : Block → Block}

/-- The chain over the padded payload. -/
def ccmpMac (E : Block → Block) (micIv micHeader1 micHeader2 : Block) (p : Bytes) : Block :=
  cbc E xor128 (padBlock 16 0 p) (E (xor128 (E (xor128 (E micIv) micHeader1)) micHeader2))
    ((p.length + 15) / 16)

theorem micBlocks_eq {buf : Bytes} {f : ℕ → Block} {x : Block} {off : ℕ} (n i : ℕ)
    (h : ∀ j < i + n, blockAt buf (off + 16 * j) = f j) :
    micBlocks E buf n (off + 16 * i) (cbc E xor128 f x i) =
      (off + 16 * (i + n), cbc E xor128 f x (i + n)) := by
  induction n generalizing i with
  | zero => rfl
  | succ n ih =>
    have hnext : off + 16 * (i + 1) = off + 16 * i + 16 := by omega
    have hrest := ih (i + 1) fun j hj => h j (by omega)
    rw [show i + 1 + n = i + (n + 1) by omega, hnext, cbc] at hrest
    rw [micBlocks, h i (by omega)]
    exact hrest

theorem micPayload_eq (micIv micHeader1 micHeader2 : Block) (pre p post : Bytes) :
    micPayload E micIv micHeader1 micHeader2 (pre ++ p ++ post) pre.length p.length =
      (pre.length + p.length, ccmpMac E micIv micHeader1 micHeader2 p) := by
  have hread : ∀ j < 0 + p.length / 16,
      blockAt (pre ++ p ++ post) (pre.length + 16 * j) = padBlock 16 0 p j :=
    fun j hj => blockAt_middle (by omega)
  have hblocks := micBlocks_eq (E := E)
    (x := E (xor128 (E (xor128 (E micIv) micHeader1)) micHeader2)) (p.length / 16) 0 hread
  rw [Nat.mul_zero, Nat.add_zero, Nat.zero_add] at hblocks
  simp only [micPayload]
  rw [show E (xor128 (E (xor128 (E micIv) micHeader1)) micHeader2) = cbc E xor128 (padBlock 16 0 p)
    (E (xor128 (E (xor128 (E micIv) micHeader1)) micHeader2)) 0 from rfl, hblocks]
  unfold ccmpMac
  split_ifs with h
  · have hk : (p.length + 15) / 16 = p.length / 16 + 1 := by omega
    rw [hk, cbc, paddedBuffer_middle]
    refine Prod.ext ?_ rfl
    dsimp only
    omega
  · have hk : (p.length + 15) / 16 = p.length / 16 := by omega
    rw [hk]
    refine Prod.ext ?_ rfl
    dsimp only
    omega

/-! ## The counter loop -/

/-- The buffers agree on the bytes that the header functions read. -/
def SameHead (n : ℕ) (b b' : Bytes) : Prop := ∀ k < n, b.getD k 0 = b'.getD k 0

/-- The counter block depends on the header only. -/
def ReadsHead (preload : Bytes → ℕ → Block) : Prop :=
  ∀ b b' c, SameHead 32 b b' → preload b c = preload b' c

theorem blockSize_pos : 0 < 16 := by decide

/-- The keystream of the payload: counter 0 is left for the MIC. -/
def payloadKs (E : Block → Block) (preload : Bytes → ℕ → Block) (buf : Bytes) : ℕ → UInt8 :=
  keystream blockSize_pos E fun j => preload buf (j + 1)

theorem ctrBlocks_eq {preload : Bytes → ℕ → Block} (hpre : ReadsHead preload) {off : ℕ}
    (hoff : 32 ≤ off) (n i : ℕ) {buf : Bytes} (hlen : off + 16 * (i + n) ≤ buf.length) :
    ∃ buf', ctrBlocks E preload n i (off + 16 * i) buf = (off + 16 * (i + n), buf') ∧
      buf'.length = buf.length ∧ ∀ k, buf'.getD k 0 =
        if off + 16 * i ≤ k ∧ k < off + 16 * (i + n) then
          xorByte (buf.getD k 0) (payloadKs E preload buf (k - off))
        else buf.getD k 0 := by
  induction n generalizing i buf with
  | zero => exact ⟨buf, rfl, rfl, fun k => by rw [if_neg (by omega)]⟩
  | succ n ih =>
    set chain := xor128 (E (preload buf (i + 1))) (blockAt buf (off + 16 * i)) with hchain
    set buf1 := overwrite buf (off + 16 * i) chain.toList with hbuf1
    have hclen : chain.toList.length = 16 := by simp
    have hlen1 : buf1.length = buf.length := by rw [hbuf1, overwrite_length]
    have hget : ∀ k, buf1.getD k 0 = if off + 16 * i ≤ k ∧ k < off + 16 * i + 16 then
        xorByte (buf.getD k 0) (payloadKs E preload buf (k - off)) else buf.getD k 0 := by
      intro k
      rw [hbuf1, overwrite_getD, hclen]
      by_cases hk : off + 16 * i ≤ k ∧ k < off + 16 * i + 16
      · rw [if_pos ⟨hk.1, hk.2, by omega⟩, if_pos hk, hchain, xor128_toList_getD _ _ (by omega),
          blockAt_get, xorByte, payloadKs, keystream]
        have hdiv : (k - off) / 16 = i := by omega
        have hmod : (k - off) % 16 = k - (off + 16 * i) := by omega
        have hback : off + 16 * i + (k - (off + 16 * i)) = k := by omega
        simp only [hdiv, hmod, hback]
      · rw [if_neg (by omega), if_neg hk]
    have hks : payloadKs E preload buf1 = payloadKs E preload buf := by
      have hhead : ∀ c, preload buf1 c = preload buf c := fun c =>
        hpre buf1 buf c fun k hk => by rw [hget, if_neg (by omega)]
      funext j
      simp only [payloadKs, keystream, hhead]
    have hlen' : off + 16 * (i + 1 + n) ≤ buf1.length := by rw [hlen1]; omega
    obtain ⟨buf', h1, h2, h3⟩ := ih (i + 1) hlen'
    refine ⟨buf', ?_, by rw [h2, hlen1], ?_⟩
    · rw [ctrBlocks, ← hchain, ← hbuf1, show off + 16 * i + 16 = off + 16 * (i + 1) by omega, h1,
        show i + 1 + n = i + (n + 1) by omega]
    · intro k
      rw [h3, hks, hget]
      by_cases hk1 : off + 16 * i ≤ k ∧ k < off + 16 * i + 16
      · rw [if_neg (by omega), if_pos hk1, if_pos (by omega)]
      · rw [if_neg hk1]
        by_cases hk2 : off + 16 * (i + 1) ≤ k ∧ k < off + 16 * (i + 1 + n)
        · rw [if_pos hk2, if_pos (by omega)]
        · rw [if_neg hk2, if_neg (by omega)]

theorem ctrPayload_getD {preload : Bytes → ℕ → Block} (hpre : ReadsHead preload) {off plen : ℕ}
    (hoff : 32 ≤ off) {buf : Bytes} (hlen : off + plen ≤ buf.length) :
    ∃ buf', ctrPayload E preload buf off plen = (off + plen, buf') ∧ buf'.length = buf.length ∧
      ∀ k, buf'.getD k 0 =
        if off ≤ k ∧ k < off + plen then
          xorByte (buf.getD k 0) (payloadKs E preload buf (k - off))
        else buf.getD k 0 := by
  have hlen' : off + 16 * (0 + plen / 16) ≤ buf.length := by omega
  obtain ⟨buf1, h1, h2, h3⟩ := ctrBlocks_eq (E := E) hpre hoff (plen / 16) 0 hlen'
  rw [Nat.mul_zero, Nat.add_zero, Nat.zero_add] at h1 h3
  simp only [ctrPayload, h1]
  split_ifs with hr
  · refine ⟨_, by rw [show off + 16 * (plen / 16) + plen % 16 = off + plen by omega], by
      rw [overwrite_length, h2], fun k => ?_⟩
    have hhead : preload buf1 (plen / 16 + 1) = preload buf (plen / 16 + 1) :=
      hpre buf1 buf _ fun k hk => by rw [h3, if_neg (by omega)]
    have hlt : plen % 16 < 16 := Nat.mod_lt _ (by decide)
    rw [overwrite_getD, List.length_take, Vector.length_toList, Nat.min_eq_left (Nat.le_of_lt hlt), h2]
    by_cases hk : off + 16 * (plen / 16) ≤ k ∧ k < off + plen
    · have hj : k - (off + 16 * (plen / 16)) < plen % 16 := by omega
      rw [if_pos ⟨hk.1, by omega, by omega⟩, if_pos ⟨by omega, hk.2⟩, hhead,
        List.getD_eq_getElem?_getD, List.getElem?_take_of_lt hj, ← List.getD_eq_getElem?_getD,
        xor128_toList_getD _ _ (by omega), paddedBuffer_get, if_pos hj, h3, if_neg (by omega),
        xorByte, payloadKs, keystream]
      have hdiv : (k - off) / 16 = plen / 16 := by omega
      have hmod : (k - off) % 16 = k - (off + 16 * (plen / 16)) := by omega
      have hback : off + 16 * (plen / 16) + (k - (off + 16 * (plen / 16))) = k := by omega
      simp only [hdiv, hmod, hback]
    · rw [if_neg (by omega), h3]
      by_cases hk' : off ≤ k ∧ k < off + 16 * (plen / 16)
      · rw [if_pos hk', if_pos (by omega)]
      · rw [if_neg hk', if_neg (by omega)]
  · refine ⟨buf1, by rw [show off + 16 * (plen / 16) = off + plen by omega], h2, fun k => ?_⟩
    rw [h3, show off + 16 * (plen / 16) = off + plen by omega]

theorem SameHead.append_left {n : ℕ} {pre x : Bytes} (h : n ≤ pre.length) :
    SameHead n (pre ++ x) pre := fun _ hk => getD_append_left (by omega)

/-- On a buffer that holds the payload behind a head, the loops are a stream
    cipher. -/
theorem ctrPayload_eq {preload : Bytes → ℕ → Block} (hpre : ReadsHead preload)
    {pre p post : Bytes} (hoff : 32 ≤ pre.length) :
    ctrPayload E preload (pre ++ p ++ post) pre.length p.length =
      (pre.length + p.length, pre ++ xorStream xorByte (payloadKs E preload pre) p ++ post) := by
  have hlen : pre.length + p.length ≤ (pre ++ p ++ post).length := by
    simp only [List.length_append]
    omega
  obtain ⟨buf', h1, h2, h3⟩ := ctrPayload_getD (E := E) hpre hoff hlen
  have hhead : ∀ c, preload (pre ++ p ++ post) c = preload pre c := fun c =>
    hpre _ _ c (by rw [List.append_assoc]; exact SameHead.append_left hoff)
  have hks : payloadKs E preload (pre ++ p ++ post) = payloadKs E preload pre := by
    funext j
    simp only [payloadKs, keystream, hhead]
  rw [h1]
  rw [hks] at h3
  refine Prod.ext rfl ?_
  refine ext_getD 0 (by rw [h2]; simp only [List.length_append, length_xorStream]) fun k _ => ?_
  rw [h3]
  rcases Nat.lt_or_ge k pre.length with hk | hk
  · rw [if_neg (by omega), List.append_assoc, List.append_assoc, getD_append_left hk,
      getD_append_left hk]
  · obtain ⟨j, rfl⟩ := Nat.exists_eq_add_of_le hk
    rcases Nat.lt_or_ge j p.length with hj | hj
    · rw [if_pos (by omega), getD_middle hj, Nat.add_sub_cancel_left,
        getD_middle (by rw [length_xorStream]; exact hj), getD_xorStream hj]
    · rw [if_neg (by omega), getD_append_right (by rw [List.length_append]; omega),
        getD_append_right (by rw [List.length_append, length_xorStream]; omega),
        List.length_append, List.length_append, length_xorStream]

/-! ## The common part -/

/-- The stream cipher, the MAC and its mask for one frame. -/
def ccmpScheme (E : Block → Block) (preload : Bytes → ℕ → Block)
    (micIv micHeader1 micHeader2 : Block) (pre : Bytes) : Scheme UInt8 where
  ks := payloadKs E preload pre
  mac := fun p => (ccmpMac E micIv micHeader1 micHeader2 p).toList.take 8
  mask := keystream blockSize_pos E (preload pre)

theorem readsHead_preload (a4Exists qcExists : Bool) (pn : Vector UInt8 6) :
    ReadsHead fun mpdu c => constructCtrPreload a4Exists qcExists mpdu pn c := by
  intro b b' c h
  simp only [constructCtrPreload, qosByte, h _ (by decide : 10 < 32), h _ (by decide : 11 < 32),
    h _ (by decide : 12 < 32), h _ (by decide : 13 < 32), h _ (by decide : 14 < 32),
    h _ (by decide : 15 < 32), h _ (by decide : 24 < 32), h _ (by decide : 30 < 32)]

/-- The MIC block and its mask, as `ccmpEncrypt` writes them. -/
theorem tag_eq {preload : Bytes → ℕ → Block} (hpre : ReadsHead preload)
    (micIv micHeader1 micHeader2 : Block) {pre x t : Bytes} (post : Bytes)
    (hoff : 32 ≤ pre.length) (p : Bytes)
    (ht : t = (ccmpMac E micIv micHeader1 micHeader2 p).toList.take 8) :
    (xor128 (E (preload (pre ++ x ++ (t ++ post)) 0))
      (paddedBuffer (pre ++ x ++ (t ++ post)) (pre.length + x.length) 8)).toList.take 8 =
      (ccmpScheme E preload micIv micHeader1 micHeader2 pre).tag xorByte p := by
  have htlen : t.length = 8 := by rw [ht, List.length_take, Vector.length_toList]; rfl
  have hhead : preload (pre ++ x ++ (t ++ post)) 0 = preload pre 0 :=
    hpre _ _ 0 (by rw [List.append_assoc]; exact SameHead.append_left hoff)
  have hmac : (ccmpScheme E preload micIv micHeader1 micHeader2 pre).mac p = t := ht.symm
  rw [hhead, Scheme.tag, hmac]
  refine ext_getD 0 (by simp [htlen]) fun k hk => ?_
  have hk8 : k < 8 := by
    simp only [List.length_take, Vector.length_toList] at hk
    omega
  have hdiv : k / 16 = 0 := by omega
  have hmod : k % 16 = k := by omega
  rw [getD_xorStream (by omega), List.getD_eq_getElem?_getD, List.getElem?_take_of_lt hk8,
    ← List.getD_eq_getElem?_getD, xor128_toList_getD _ _ (by omega), paddedBuffer_get, if_pos hk8,
    ← List.length_append, getD_append_right (by omega), Nat.add_sub_cancel_left,
    getD_append_left (by omega), xorByte]
  simp only [ccmpScheme, keystream, hdiv, hmod]

/-- MIC, counter mode and masking together encrypt the payload behind the
    head. -/
theorem ccmpEncrypt_eq (h : CcmpHdr) (pn : Vector UInt8 6) (micIv micHeader1 micHeader2 : Block)
    {pre mic0 : Bytes} (p rest : Bytes) (hpre : pre.length = h.hdrlen + 8) (hoff : 32 ≤ pre.length)
    (hmic : mic0.length = 8) :
    let preload := fun mpdu c => constructCtrPreload h.a4Exists h.qcExists mpdu pn c
    let c := (ccmpScheme E preload micIv micHeader1 micHeader2 pre).encrypt xorByte p
    ccmpEncrypt E h pn micIv micHeader1 micHeader2 (pre ++ p ++ mic0 ++ rest) p.length =
      pre ++ c.1 ++ c.2 ++ rest := by
  intro preload c
  have hread := readsHead_preload h.a4Exists h.qcExists pn
  set t := (ccmpMac E micIv micHeader1 micHeader2 p).toList.take 8 with ht
  have htlen : t.length = 8 := by rw [ht, List.length_take, Vector.length_toList]; rfl
  have hc1 : c.1 = xorStream xorByte (payloadKs E preload pre) p := rfl
  have hm := micPayload_eq (E := E) micIv micHeader1 micHeader2 pre p (mic0 ++ rest)
  rw [← List.append_assoc, hpre] at hm
  simp only [ccmpEncrypt, hm, ← ht]
  rw [show h.hdrlen + 8 + p.length = (pre ++ p).length by rw [List.length_append, hpre],
    overwrite_append rest rfl (hmic.trans htlen.symm), List.append_assoc (pre ++ p), ← hpre,
    ctrPayload_eq hread hoff, List.length_append]
  have htag := tag_eq (E := E) hread micIv micHeader1 micHeader2 rest (x := c.1) hoff p ht
  rw [hc1, length_xorStream] at htag
  rw [htag, ← List.append_assoc]
  exact overwrite_append rest (by rw [List.length_append, length_xorStream])
    (by rw [htlen]; simp [Scheme.tag, ccmpScheme])

/-! ## Sender and receiver -/

/-- Header and IV as the frame functions read them. -/
structure FrameHead (hdrlen : ℕ) (pre : Bytes) : Prop where
  length : pre.length = hdrlen + 8
  long : 24 ≤ hdrlen
  hdrlen : (ccmpHdr hdrlen pre).hdrlen = hdrlen

/-- The scheme that the header and the IV of a frame with `n` payload bytes
    select. -/
def frameScheme (E : Block → Block) (hdrlen : ℕ) (pre : Bytes) (n : ℕ) : Scheme UInt8 :=
  let h := ccmpHdr hdrlen pre
  let pn := pnVector pre h.hdrlen
  ccmpScheme E (fun mpdu c => constructCtrPreload h.a4Exists h.qcExists mpdu pn c)
    (constructMicIv h.qcExists h.a4Exists pre n pn) (constructMicHeader1 h.hdrlen pre)
    (constructMicHeader2 pre h.a4Exists h.qcExists) pre

section head

variable {b b' : Bytes}

theorem ccmpHdr_congr (hdrlen : ℕ) (h : SameHead 32 b b') :
    ccmpHdr hdrlen b = ccmpHdr hdrlen b' := by
  have hfc : frameControl b = frameControl b' := by
    simp only [frameControl, h 0 (by decide), h 1 (by decide)]
  unfold ccmpHdr getFrameType getFrameSubType
  rw [hfc]

theorem pnVector_congr {n : ℕ} (hdrlen : ℕ) (hn : hdrlen + 8 ≤ n) (h : SameHead n b b') :
    pnVector b hdrlen = pnVector b' hdrlen := by
  simp only [pnVector, h (hdrlen + 0) (by omega), h (hdrlen + 1) (by omega),
    h (hdrlen + 4) (by omega), h (hdrlen + 5) (by omega), h (hdrlen + 6) (by omega),
    h (hdrlen + 7) (by omega)]

theorem constructMicIv_congr (q a : Bool) (n : ℕ) (pn : Vector UInt8 6) (h : SameHead 32 b b') :
    constructMicIv q a b n pn = constructMicIv q a b' n pn := by
  simp only [constructMicIv, qosByte, h 10 (by decide), h 11 (by decide), h 12 (by decide),
    h 13 (by decide), h 14 (by decide), h 15 (by decide), h 24 (by decide), h 30 (by decide)]

theorem constructMicHeader1_congr (n : ℕ) (h : SameHead 32 b b') :
    constructMicHeader1 n b = constructMicHeader1 n b' := by
  simp only [constructMicHeader1, h 0 (by decide), h 1 (by decide), h 4 (by decide),
    h 5 (by decide), h 6 (by decide), h 7 (by decide), h 8 (by decide), h 9 (by decide),
    h 10 (by decide), h 11 (by decide), h 12 (by decide), h 13 (by decide), h 14 (by decide),
    h 15 (by decide)]

theorem constructMicHeader2_congr (a q : Bool) (h : SameHead 32 b b') :
    constructMicHeader2 b a q = constructMicHeader2 b' a q := by
  simp only [constructMicHeader2, h 16 (by decide), h 17 (by decide), h 18 (by decide),
    h 19 (by decide), h 20 (by decide), h 21 (by decide), h 24 (by decide), h 25 (by decide),
    h 26 (by decide), h 27 (by decide), h 28 (by decide), h 29 (by decide), h 30 (by decide),
    h 31 (by decide)]

end head

theorem SameHead.mono {m n : ℕ} {b b' : Bytes} (h : SameHead n b b') (hm : m ≤ n) :
    SameHead m b b' := fun k hk => h k (by omega)

/-- `aes_cipher` writes ciphertext and MIC behind header and IV. -/
theorem aesCipherWith_eq {hdrlen : ℕ} {pre p mic0 rest : Bytes} (hh : FrameHead hdrlen pre)
    (hmic : mic0.length = 8) :
    let c := (frameScheme E hdrlen pre p.length).encrypt xorByte p
    aesCipherWith E hdrlen (pre ++ p ++ mic0 ++ rest) p.length = pre ++ c.1 ++ c.2 ++ rest := by
  have hlen := hh.length
  have hlong := hh.long
  have hsame : SameHead (hdrlen + 8) (pre ++ p ++ mic0 ++ rest) pre := by
    rw [List.append_assoc, List.append_assoc]
    exact SameHead.append_left (by omega)
  have hsame32 := hsame.mono (by omega : 32 ≤ hdrlen + 8)
  have hhdr := hh.hdrlen
  have henc := ccmpEncrypt_eq (E := E) (ccmpHdr hdrlen pre)
    (pnVector pre hdrlen)
    (constructMicIv (ccmpHdr hdrlen pre).qcExists (ccmpHdr hdrlen pre).a4Exists pre p.length
      (pnVector pre hdrlen))
    (constructMicHeader1 hdrlen pre)
    (constructMicHeader2 pre (ccmpHdr hdrlen pre).a4Exists (ccmpHdr hdrlen pre).qcExists)
    p rest (by rw [hhdr, hlen]) (by omega) hmic
  simp only [aesCipherWith, ccmpHdr_congr hdrlen hsame32, hhdr,
    pnVector_congr hdrlen (Nat.le_refl _) hsame, constructMicIv_congr _ _ _ _ hsame32,
    constructMicHeader1_congr _ hsame32, constructMicHeader2_congr _ _ hsame32]
  rw [henc]
  simp only [frameScheme, hhdr]

theorem map_range_getD {x y : Bytes} :
    (List.range x.length).map (fun k => (x ++ y).getD k 0) = x := by
  refine List.ext_getElem (by simp) fun k h1 h2 => ?_
  rw [List.getElem_map, List.getElem_range, getD_append_left h2, List.getD_eq_getElem _ _ h2]

/-- Copying a whole string to the start of a longer buffer. -/
theorem overwrite_zero {mem x : Bytes} (h : x.length ≤ mem.length) :
    overwrite mem 0 x = x ++ mem.drop x.length := by
  have hlen : (mem.take x.length).length = x.length := by rw [List.length_take, Nat.min_eq_left h]
  have hcopy := overwrite_append (x := []) (mem.drop x.length) rfl hlen
  rwa [List.nil_append, List.take_append_drop, List.nil_append] at hcopy

/-- The comparison of the MICs. -/
theorem all_getD_iff {x y t u : Bytes} (rest rest' : Bytes) (hx : x.length = y.length)
    (ht : t.length = 8) (hu : u.length = 8) :
    ((List.range 8).all fun i =>
      (x ++ t ++ rest).getD (x.length + i) 0 == (y ++ u ++ rest').getD (x.length + i) 0) = true ↔
      t = u := by
  have hread : ∀ i < 8, ((x ++ t ++ rest).getD (x.length + i) 0 ==
      (y ++ u ++ rest').getD (x.length + i) 0) = (t.getD i 0 == u.getD i 0) := by
    intro i hi
    rw [getD_middle (by omega), hx, getD_middle (by omega)]
  rw [List.all_eq_true]
  constructor
  · intro h
    refine ext_getD 0 (by rw [ht, hu]) fun k hk => ?_
    have := h k (List.mem_range.mpr (by omega))
    rwa [hread k (by omega), beq_iff_eq] at this
  · intro h i hi
    rw [hread i (List.mem_range.mp hi), h, beq_self_eq_true]

/-- `aes_decipher` decrypts in place and accepts exactly what the scheme accepts. -/
theorem aesDecipherWith_eq {hdrlen : ℕ} {pre t message : Bytes} (ct rest : Bytes)
    (hh : FrameHead hdrlen pre) (ht : t.length = 8) (hmsg : message.length = maxMsgSize)
    (hlen : (pre ++ ct ++ t).length ≤ maxMsgSize) :
    let S := frameScheme E hdrlen pre ct.length
    let r := aesDecipherWith E message hdrlen (pre ++ ct ++ t ++ rest) (ct.length + 8)
    r.pframe = pre ++ S.decrypt xorByte ct ++ t ++ rest ∧
      (r.status = .success ↔ S.Accepts xorByte ct t) := by
  intro S
  have hplen := hh.length
  have hlong := hh.long
  have hhdr := hh.hdrlen
  set h := ccmpHdr hdrlen pre with hh_def
  set pn := pnVector pre hdrlen with hpn
  set preload := fun mpdu c => constructCtrPreload h.a4Exists h.qcExists mpdu pn c with hpreload
  have hread : ReadsHead preload := readsHead_preload h.a4Exists h.qcExists pn
  have hsame : ∀ x y z, SameHead (hdrlen + 8) (pre ++ x ++ y ++ z) pre := fun x y z => by
    rw [List.append_assoc, List.append_assoc]
    exact SameHead.append_left (by omega)
  have hsame32 : ∀ x y z, SameHead 32 (pre ++ x ++ y ++ z) pre := fun x y z =>
    (hsame x y z).mono (by omega)
  have htotal : hdrlen + (ct.length + 8) + 8 = (pre ++ S.decrypt xorByte ct ++ t).length := by
    simp only [Scheme.decrypt, List.length_append, length_xorStream]
    omega
  have hn : (ct.length + 8 + 2 ^ 32 - 8) % 2 ^ 32 = ct.length := by
    simp only [List.length_append, maxMsgSize] at hlen
    omega
  have hpt : (S.decrypt xorByte ct).length = ct.length := length_xorStream
  have hdec : ctrPayload E preload (pre ++ ct ++ t ++ rest) (hdrlen + 8) ct.length =
      (hdrlen + 8 + ct.length, pre ++ S.decrypt xorByte ct ++ t ++ rest) := by
    rw [List.append_assoc _ t, ← hplen, ctrPayload_eq hread (by omega), ← List.append_assoc]
    simp only [S, Scheme.decrypt, frameScheme, ccmpScheme, ← hh_def, hhdr, ← hpn, ← hpreload]
  have hcopy : overwrite message 0 ((List.range (hdrlen + (ct.length + 8) + 8)).map fun k =>
      (pre ++ S.decrypt xorByte ct ++ t ++ rest).getD k 0) =
      pre ++ S.decrypt xorByte ct ++ t ++
        message.drop (pre ++ S.decrypt xorByte ct ++ t).length := by
    rw [htotal, map_range_getD, overwrite_zero]
    rw [← htotal, hmsg]
    simp only [List.length_append] at hlen
    omega
  have hfits : hdrlen + (ct.length + 8) + 8 ≤ maxMsgSize := by
    simp only [List.length_append] at hlen
    omega
  have hS : ccmpScheme E preload (constructMicIv h.qcExists h.a4Exists pre ct.length pn)
      (constructMicHeader1 hdrlen pre) (constructMicHeader2 pre h.a4Exists h.qcExists) pre = S := by
    simp only [S, frameScheme, ← hh_def, hhdr, ← hpn, ← hpreload]
  have hback : (S.encrypt xorByte (S.decrypt xorByte ct)).1 = ct :=
    xorStream_xorStream xorByte_xorByte
  have henc := ccmpEncrypt_eq (E := E) h pn
    (constructMicIv h.qcExists h.a4Exists pre ct.length pn) (constructMicHeader1 hdrlen pre)
    (constructMicHeader2 pre h.a4Exists h.qcExists) (S.decrypt xorByte ct)
    (message.drop (pre ++ S.decrypt xorByte ct ++ t).length) (by rw [hhdr, hplen]) (by omega) ht
  simp only [hpt, ← hpreload, hS, hback] at henc
  have hmac : ((pre ++ S.decrypt xorByte ct).length) = (pre ++ ct).length := by
    rw [List.length_append, List.length_append, hpt]
  have hoff : hdrlen + (ct.length + 8) = (pre ++ S.decrypt xorByte ct).length := by
    rw [hmac, List.length_append, hplen]
    omega
  simp only [aesDecipherWith, hn, ccmpHdr_congr hdrlen (hsame32 _ _ _), ← hh_def, hhdr,
    pnVector_congr hdrlen (Nat.le_refl _) (hsame _ _ _), ← hpn, ← hpreload, hdec, if_pos hfits,
    hcopy, constructMicIv_congr _ _ _ _ (hsame32 _ _ _),
    constructMicHeader1_congr _ (hsame32 _ _ _), constructMicHeader2_congr _ _ (hsame32 _ _ _),
    henc, true_and]
  rw [hoff]
  have hiff := all_getD_iff (x := pre ++ S.decrypt xorByte ct) (y := pre ++ ct) rest
    (message.drop (pre ++ S.decrypt xorByte ct ++ t).length) hmac ht
    (u := S.tag xorByte (S.decrypt xorByte ct)) (by simp [Scheme.tag, S, frameScheme, ccmpScheme])
  split_ifs with hall
  · exact iff_of_true rfl (hiff.mp hall)
  · exact iff_of_false (by decide) fun hacc => hall (hiff.mpr hacc)

end cipher

/-! ## Data frames -/

/-- A MAC header without a fourth address: 24 bytes whose subtype has no QoS field,
    or 26 bytes. -/
def DataHeader (hdr : Bytes) : Prop :=
  (hdr.length = wlanHdrA3Len ∧ getFrameSubType hdr >>> 4 ∉ [0x08, 0x09, 0x0a, 0x0b]) ∨
    hdr.length = wlanHdrA3QosLen

instance (hdr : Bytes) : Decidable (DataHeader hdr) := by unfold DataHeader; infer_instance

/-- `GetFrameType` has the two type bits only, so the comparisons with `WIFI_DATA_CF*`
    never hold. -/
theorem getFrameType_not_cf (b : Bytes) : getFrameType b ∉ wifiDataCf := by
  have hle : getFrameType b ≤ 0x0c := Nat.and_le_right
  intro hmem
  simp only [wifiDataCf, List.mem_cons, List.not_mem_nil, or_false] at hmem
  omega

theorem ccmpHdr_hdrlen {hdrlen : ℕ} {b : Bytes}
    (h : hdrlen = wlanHdrA3QosLen ∨ getFrameSubType b >>> 4 ∉ [0x08, 0x09, 0x0a, 0x0b]) :
    (ccmpHdr hdrlen b).hdrlen = hdrlen := by
  have hcf := getFrameType_not_cf b
  dsimp only [ccmpHdr]
  split_ifs with hqos hlen
  · exact absurd (hqos.resolve_left hcf) (h.resolve_left hlen)
  · rfl
  · rfl

theorem frameHead {hdr iv : Bytes} (hhdr : DataHeader hdr) (hiv : iv.length = 8) :
    FrameHead hdr.length (hdr ++ iv) := by
  have hlong : 24 ≤ hdr.length := by
    rcases hhdr with ⟨hlen, -⟩ | hlen <;> rw [hlen] <;> decide
  have hsub : getFrameSubType (hdr ++ iv) = getFrameSubType hdr := by
    have hget : ∀ k < hdr.length, (hdr ++ iv).getD k 0 = hdr.getD k 0 :=
      fun k hk => getD_append_left hk
    simp only [getFrameSubType, frameControl, hget 0 (by omega), hget 1 (by omega)]
  refine ⟨by rw [List.length_append, hiv], hlong, ccmpHdr_hdrlen ?_⟩
  rw [hsub]
  rcases hhdr with ⟨-, hnot⟩ | hlen
  · exact Or.inr hnot
  · exact Or.inl hlen

theorem take_drop_middle {x y z : Bytes} {m n : ℕ} (hx : x.length = m) (hy : y.length = n) :
    ((x ++ y ++ z).drop m).take n = y := by
  rw [List.append_assoc, ← hx, List.drop_left, ← hy, List.take_left]

/-- Sender and receiver fit together: a frame that `aes_cipher` wrote is accepted and
    restored, and any other frame is accepted exactly when its MIC is the one that
    `aes_cipher` writes for the decrypted payload. -/
theorem ccmp_round_trip (key : Block) {hdr iv message : Bytes} (hhdr : DataHeader hdr)
    (hiv : iv.length = 8) (hmsg : message.length = maxMsgSize) :
    (∀ payload scratch rest : Bytes, scratch.length = 8 →
      hdr.length + 8 + payload.length + 8 ≤ maxMsgSize →
      let sent := aesCipher key hdr.length (hdr ++ iv ++ payload ++ scratch ++ rest) payload.length
      let r := aesDecipher message key hdr.length sent (payload.length + 8)
      r.status = .success ∧
        r.pframe.take (hdr.length + 8 + payload.length) = hdr ++ iv ++ payload) ∧
    (∀ body mic scratch rest : Bytes, mic.length = 8 → scratch.length = 8 →
      hdr.length + 8 + body.length + 8 ≤ maxMsgSize →
      let r := aesDecipher message key hdr.length (hdr ++ iv ++ body ++ mic ++ rest)
        (body.length + 8)
      let plain := (r.pframe.drop (hdr.length + 8)).take body.length
      let sent := aesCipher key hdr.length (hdr ++ iv ++ plain ++ scratch ++ rest) plain.length
      r.status = .success ↔ (sent.drop (hdr.length + 8 + body.length)).take 8 = mic) := by
  have hh := frameHead hhdr hiv
  have hplen := hh.length
  constructor
  · intro payload scratch rest hscratch hlen sent r
    set S := frameScheme (aes128k128d key) hdr.length (hdr ++ iv) payload.length with hS
    have hsent : sent = hdr ++ iv ++ (S.encrypt xorByte payload).1 ++
        (S.encrypt xorByte payload).2 ++ rest := aesCipherWith_eq hh hscratch
    have hc1 : (S.encrypt xorByte payload).1.length = payload.length := length_xorStream
    have hc2 : (S.encrypt xorByte payload).2.length = 8 := by
      simp [Scheme.encrypt, Scheme.tag, hS, frameScheme, ccmpScheme]
    have hr := aesDecipherWith_eq (E := aes128k128d key) (S.encrypt xorByte payload).1 rest hh hc2
      hmsg (by
        simp only [List.length_append, hc1, hc2, hiv]
        omega)
    rw [hc1, ← hS, ← hsent] at hr
    obtain ⟨hframe, hstatus⟩ := hr
    obtain ⟨hdec, hacc⟩ := S.decrypt_encrypt xorByte_xorByte payload
    rw [hdec] at hframe
    refine ⟨hstatus.mpr hacc, ?_⟩
    show r.pframe.take _ = _
    rw [show r.pframe = _ from hframe, List.append_assoc _ _ rest]
    exact List.take_left' (by simp only [List.length_append, hiv])
  · intro body mic scratch rest hmic hscratch hlen r plain sent
    set S := frameScheme (aes128k128d key) hdr.length (hdr ++ iv) body.length with hS
    have hr := aesDecipherWith_eq (E := aes128k128d key) body rest hh hmic hmsg (by
        simp only [List.length_append, hmic, hiv]
        omega)
    rw [← hS] at hr
    obtain ⟨hframe, hstatus⟩ := hr
    have hplain : plain = S.decrypt xorByte body := by
      show (r.pframe.drop _).take _ = _
      rw [show r.pframe = _ from hframe, List.append_assoc _ mic rest]
      exact take_drop_middle hplen length_xorStream
    have hpl : plain.length = body.length := by rw [hplain]; exact length_xorStream
    have hsent : sent = hdr ++ iv ++ (S.encrypt xorByte plain).1 ++
        (S.encrypt xorByte plain).2 ++ rest := by
      rw [hS, ← hpl]
      exact aesCipherWith_eq hh hscratch
    have htag : (sent.drop (hdr.length + 8 + body.length)).take 8 = S.tag xorByte plain := by
      rw [hsent]
      refine take_drop_middle ?_ ?_
      · simp only [List.length_append, Scheme.encrypt, length_xorStream, hpl, hiv]
      · simp [Scheme.encrypt, Scheme.tag, hS, frameScheme, ccmpScheme]
    show r.status = .success ↔ _
    rw [show (r.status = .success ↔ S.Accepts xorByte body mic) from hstatus, htag, hplain]
    exact eq_comm

/-- A QoS frame of three payload bytes. -/
theorem ccmp_round_trip_qos :
    let hdr : Bytes := 0x88 :: List.replicate 25 0
    let iv : Bytes := List.replicate 8 0
    let message : Bytes := List.replicate 2048 0
    let key : Block := Vector.replicate 16 0
    let sent := aesCipher key hdr.length (hdr ++ iv ++ [1, 2, 3] ++ List.replicate 8 0 ++ []) 3
    (aesDecipher message key hdr.length sent 11).status = .success := by
  intro hdr iv message key
  have hhdr : DataHeader hdr := by decide
  have hiv : iv.length = 8 := rfl
  have hmsg : message.length = maxMsgSize := List.length_replicate
  exact ((ccmp_round_trip key hhdr hiv hmsg).1 [1, 2, 3] (List.replicate 8 0) [] rfl (by decide)).1

end Rtl8821au.Security
