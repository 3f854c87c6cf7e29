import Mathlib.Data.Int.Notation
import Mathlib.Tactic.SplitIfs
import Rtl8821au.Xmit.Queues

/-!
# Transmit fragments

`rtw_xmitframe_coalesce` (`rtw_xmit.c`, lines 1311–1428) copies a packet into the
transmit buffer, as one MPDU or as several fragments. Addresses are distances from
the start of the transmit buffer, which is aligned to `XMITBUF_ALIGN_SZ = 512` bytes:
rounding an address up to 4 rounds the distance.

* `updateAttrib`: the attributes of the packet that decide the layout.
* `rtwXmitframeCoalesce`: the fragments with `nr_frags` and `last_txcmdsz`.
* `coalesce_whole`: the loop ends for every packet, and the fragments are the packet.
* `LaidOut`, `fragLoop_laidOut`: where the fragments are.
* `length_eq_one_iff`, `fragLoop_later`: how many there are and how long.
-/

namespace Rtl8821au.Xmit

open Recv (Bytes MacAddr Encryption snapSize ethHlen)

/-! ## Attributes -/

/-- A `sk_buff` given to the driver: an Ethernet header, and fewer bytes than an `int`
    can count. -/
structure Skb where
  data : Bytes
  ethHlen_le : ethHlen ≤ data.length
  length_lt : data.length < 2 ^ 31

/-- The members of `struct security_priv` that choose software encryption. -/
structure SecurityPriv where
  swEncrypt : Bool
  hwDecrypted : Bool
  deriving DecidableEq, Repr

/-- `struct tx_pkt_attrib` (`rtw_xmit.h`, lines 148–204): what the layout depends on. -/
structure TxAttrib where
  etherType : ℕ
  pktHdrlen : ℕ
  hdrlen : UInt16
  pktlen : ℕ
  encrypt : Encryption
  ivLen : ℕ
  icvLen : ℕ
  bswenc : Bool
  ra : MacAddr

/-- `iv_len` and `icv_len` of a cipher (`update_attrib_sec_info`, lines 643–685). -/
def iceIvLen : Encryption → ℕ × ℕ
  | .wep40 | .wep104 => (4, 4)
  | .tkip => (8, 4)
  | .aes => (8, 8)
  | .noPrivacy | .reserved | .cmac => (0, 0)

/-- `update_attrib` (lines 723–882). -/
def updateAttrib (sec : SecurityPriv) (encrypt : Encryption) (hdrlen : UInt16) (ra : MacAddr)
    (etherType : ℕ) (skb : Skb) : TxAttrib where
  etherType := etherType
  pktHdrlen := ethHlen
  hdrlen := hdrlen
  pktlen := skb.data.length - ethHlen
  encrypt := encrypt
  ivLen := (iceIvLen encrypt).1
  icvLen := (iceIvLen encrypt).2
  bswenc := encrypt != .noPrivacy && (sec.swEncrypt || !sec.hwDecrypted)
  ra := ra

/-- `TXDESC_SIZE`. -/
def txdescSize : ℕ := 40

/-- `PACKET_OFFSET_SZ`. -/
def packetOffsetSz : ℕ := 8

/-- `hw_hdr_offset`, of type `u8`. -/
def hwHdrOffset (pktOffset : ℕ) : ℕ := (txdescSize + pktOffset * packetOffsetSz) % 256

/-- `RND4` (`osdep_service.h`, line 125). -/
def rnd4 (x : ℤ) : ℤ := (x / 4 + if x % 4 = 0 then 0 else 1) * 4

/-- An `int` passed as a `uint`. -/
def toUint (x : ℤ) : ℕ := (x % 2 ^ 32).toNat

theorem le_rnd4 (x : ℤ) : x ≤ rnd4 x := by
  simp only [rnd4]
  split_ifs <;> omega

/-- A read of a small negative length asks for more than any packet holds. -/
theorem toUint_eq_of_lt {x : ℤ} (h1 : -2 ^ 31 ≤ x) (h2 : x < 2 ^ 32) (h : toUint x < 2 ^ 31) :
    (toUint x : ℤ) = x := by
  simp only [toUint] at *
  omega

theorem toUint_of_nonneg {x : ℤ} (h1 : 0 ≤ x) (h2 : x < 2 ^ 32) : (toUint x : ℤ) = x := by
  simp only [toUint]
  omega

/-! ## Fragments -/

/-- `rtw_put_snap` (lines 1437–1459). -/
def rtwPutSnap (hProto : ℕ) : Bytes :=
  let oui : Bytes :=
    if hProto = 0x8137 ∨ hProto = 0x80f3 then [0x00, 0x00, 0xf8] else [0x00, 0x00, 0x00]
  [0xaa, 0xaa, 0x03] ++ oui ++ [UInt8.ofNat (hProto / 256), UInt8.ofNat hProto]

@[simp] theorem rtwPutSnap_length (hProto : ℕ) : (rtwPutSnap hProto).length = snapSize + 2 := by
  simp only [rtwPutSnap]
  split_ifs <;> rfl

/-- The room for the ICV that is written behind the body. -/
def TxAttrib.swIcvLen (a : TxAttrib) : ℕ := if a.bswenc then a.icvLen else 0

/-- `mpdu_len` (lines 1350–1373): the bytes of the packet that a fragment takes. -/
def TxAttrib.mpduLen (a : TxAttrib) (frgLen : ℤ) (llcSz : ℕ) : ℤ :=
  frgLen - a.hdrlen.toNat - a.ivLen - llcSz - a.swIcvLen

/-- A fragment in the transmit buffer: an 802.11 header at `memStart`, the IV, the
    LLC header, the bytes of the packet and the room for the ICV. -/
structure TxFragment where
  memStart : ℤ
  llc : Bytes
  body : Bytes
  mfrag : Bool

/-- The bytes written for a fragment. -/
def TxFragment.size (a : TxAttrib) (f : TxFragment) : ℕ :=
  a.hdrlen.toNat + a.ivLen + f.llc.length + f.body.length + a.swIcvLen

/-- The fragments and the two attributes that describe them: `nr_frags`, of type `u8`,
    and `last_txcmdsz`. -/
structure Coalesced where
  frags : List TxFragment
  nrFrags : ℕ
  lastTxcmdsz : ℕ

/-- The LLC header stands in the first fragment only. -/
def llcOf (a : TxAttrib) (frgInx : ℕ) : Bytes := if frgInx = 0 then rtwPutSnap a.etherType else []

/-- `rlen`: the bytes that fragment `frgInx` asks for; a multicast packet is not
    divided. -/
def readLen (a : TxAttrib) (frgLen : ℤ) (frgInx : ℕ) : ℕ :=
  if isMulticast a.ra then a.pktlen else toUint (a.mpduLen frgLen (llcOf a frgInx).length)

/-- Fragment `frgInx` at `m`, filled from `file`. -/
def fragAt (a : TxAttrib) (frgLen m : ℤ) (frgInx : ℕ) (file : Bytes) (mfrag : Bool) : TxFragment :=
  ⟨m, llcOf a frgInx, file.take (readLen a frgLen frgInx), mfrag⟩

/-- Lines 1345–1409: fragment `frgInx` at `memStart`, and those after it. -/
def fragLoop (a : TxAttrib) (frgLen : ℤ) (hwHdr : ℕ) : ℕ → ℕ → ℤ → Bytes → Option Coalesced
  | 0, _, _, _ => none
  | fuel + 1, frgInx, memStart, pktfile =>
    let rest := pktfile.drop (readLen a frgLen frgInx)
    let nrFrags := (frgInx + 1) % 256
    if isMulticast a.ra ∨ rest = [] then
      let f := fragAt a frgLen memStart frgInx pktfile false
      some
        { frags := [f]
          nrFrags := nrFrags
          lastTxcmdsz := a.hdrlen.toNat + a.ivLen + (if nrFrags = 1 then f.llc.length else 0) +
            a.swIcvLen + f.body.length }
    else
      let f := fragAt a frgLen memStart frgInx pktfile true
      (fragLoop a frgLen hwHdr fuel (frgInx + 1) (rnd4 (memStart + f.size a) + hwHdr) rest).map
        fun r => { r with frags := f :: r.frags }

/-- `rtw_xmitframe_coalesce` (lines 1311–1428) into the buffer at `bufAddr`, up to the
    MIC and the encryption. -/
def rtwXmitframeCoalesce (a : TxAttrib) (fragLen : UInt32) (bufAddr : ℤ) (pktOffset : ℕ)
    (skb : Skb) : Option Coalesced :=
  fragLoop a (fragLen.toNat - 4) (hwHdrOffset pktOffset) (skb.data.length + 2) 0
    (bufAddr + hwHdrOffset pktOffset) (skb.data.drop a.pktHdrlen)

/-! ## What was written -/

/-- The MIC that `xmitframe_addmic` writes behind the last fragment. -/
def micLen (a : TxAttrib) : ℕ := if a.encrypt = .tkip then 8 else 0

/-- `size` bytes from `start` on. -/
structure Span where
  start : ℤ
  size : ℤ
  deriving DecidableEq, Repr

/-- The fragments as they lie in the buffer; the last has `mic` bytes more. -/
def wholes (a : TxAttrib) (mic : ℕ) : List TxFragment → List Span
  | [] => []
  | [f] => [⟨f.memStart, f.size a + mic⟩]
  | f :: g :: fs => ⟨f.memStart, f.size a⟩ :: wholes a mic (g :: fs)

@[simp] theorem wholes_length (a : TxAttrib) (mic : ℕ) (fs : List TxFragment) :
    (wholes a mic fs).length = fs.length := by
  fun_induction wholes a mic fs with
  | case1 => rfl
  | case2 f => rfl
  | case3 f g fs ih => exact congrArg (· + 1) ih

theorem mem_wholes_last {a : TxAttrib} {mic : ℕ} {fs : List TxFragment} {f : TxFragment}
    (h : fs.getLast? = some f) : ⟨f.memStart, f.size a + mic⟩ ∈ wholes a mic fs := by
  fun_induction wholes a mic fs with
  | case1 => cases h
  | case2 g =>
    obtain rfl : g = f := Option.some.inj h
    exact List.mem_cons_self
  | case3 g g' gs ih => exact List.mem_cons_of_mem _ (ih h)

/-! ## The loop -/

section loop

variable {a : TxAttrib} {frgLen m : ℤ} {hwHdr fuel i : ℕ} {file : Bytes} {r : Coalesced}

/-- The packet ends in fragment `frgInx`. -/
def EndsAt (a : TxAttrib) (frgLen : ℤ) (frgInx : ℕ) (file : Bytes) : Prop :=
  isMulticast a.ra ∨ file.length ≤ readLen a frgLen frgInx

theorem endsAt_iff :
    EndsAt a frgLen i file ↔ isMulticast a.ra ∨ file.drop (readLen a frgLen i) = [] := by
  rw [EndsAt, List.drop_eq_nil_iff]

theorem fragLoop_last (h : EndsAt a frgLen i file) :
    fragLoop a frgLen hwHdr (fuel + 1) i m file =
      some
        { frags := [fragAt a frgLen m i file false]
          nrFrags := (i + 1) % 256
          lastTxcmdsz := (fragAt a frgLen m i file false).size a } := by
  have hllc : (if (i + 1) % 256 = 1 then (llcOf a i).length else 0) = (llcOf a i).length := by
    cases i with
    | zero => rfl
    | succ i => simp [llcOf]
  rw [fragLoop, if_pos (endsAt_iff.mp h)]
  simp only [fragAt, TxFragment.size, hllc, Option.some.injEq, Coalesced.mk.injEq, true_and]
  omega

theorem fragLoop_more (h : ¬EndsAt a frgLen i file) :
    fragLoop a frgLen hwHdr (fuel + 1) i m file =
      (fragLoop a frgLen hwHdr fuel (i + 1)
        (rnd4 (m + (fragAt a frgLen m i file true).size a) + hwHdr)
        (file.drop (readLen a frgLen i))).map
          fun r => { r with frags := fragAt a frgLen m i file true :: r.frags } := by
  rw [fragLoop, if_neg (mt endsAt_iff.mpr h)]

/-- What the lengths of the driver keep: 32-bit thresholds, packets shorter than
    `2 ^ 31`, the IV and ICV of a cipher. -/
structure InRange (a : TxAttrib) (frgLen : ℤ) (file : Bytes) : Prop where
  frgLen_ge : -4 ≤ frgLen
  frgLen_lt : frgLen < 2 ^ 32
  file_lt : file.length < 2 ^ 31
  ivLen_le : a.ivLen ≤ 8
  icvLen_le : a.icvLen ≤ 8

theorem InRange.drop (h : InRange a frgLen file) (n : ℕ) : InRange a frgLen (file.drop n) :=
  { h with file_lt := by have := h.file_lt; rw [List.length_drop]; omega }

/-- A fragment that others follow is filled to `frgLen`. -/
theorem fragAt_size (hb : InRange a frgLen file) (h : ¬EndsAt a frgLen i file) (mfrag : Bool) :
    ((fragAt a frgLen m i file mfrag).size a : ℤ) = frgLen ∧
      0 ≤ a.mpduLen frgLen (llcOf a i).length ∧
      (readLen a frgLen i : ℤ) = a.mpduLen frgLen (llcOf a i).length := by
  obtain ⟨hm, hr⟩ := not_or.mp h
  have hread : readLen a frgLen i = toUint (a.mpduLen frgLen (llcOf a i).length) := if_neg hm
  have hllc : (llcOf a i).length ≤ 8 := by
    simp only [llcOf]
    split_ifs
    · simp [snapSize]
    · exact Nat.zero_le 8
  have hicv : a.swIcvLen ≤ 8 := by
    simp only [TxAttrib.swIcvLen]
    split_ifs
    · exact hb.icvLen_le
    · exact Nat.zero_le 8
  obtain ⟨hfrg, hfrg', hfile, hiv, -⟩ := hb
  have hhdr := a.hdrlen.toNat_lt
  have hlen : (readLen a frgLen i : ℤ) = a.mpduLen frgLen (llcOf a i).length := by
    rw [hread]
    apply toUint_eq_of_lt
    · simp only [TxAttrib.mpduLen]; omega
    · simp only [TxAttrib.mpduLen]; omega
    · omega
  have hbody : (file.take (readLen a frgLen i)).length = readLen a frgLen i := by
    rw [List.length_take]; omega
  refine ⟨?_, by omega, hlen⟩
  simp only [fragAt, TxFragment.size, hbody]
  simp only [TxAttrib.mpduLen] at hlen
  omega

/-- The fragments in the buffer: the first at `m`, all but the last filled to
    `frgLen`, each at the next multiple of 4 behind the one before it and the space of
    its descriptor. -/
def LaidOut (a : TxAttrib) (frgLen : ℤ) (hwHdr : ℕ) : ℤ → List TxFragment → Prop
  | _, [] => False
  | m, [f] => f.memStart = m
  | m, f :: g :: fs =>
    f.memStart = m ∧ (f.size a : ℤ) = frgLen ∧
      LaidOut a frgLen hwHdr (rnd4 (m + frgLen) + hwHdr) (g :: fs)

theorem LaidOut.ne_nil {fs : List TxFragment} (h : LaidOut a frgLen hwHdr m fs) : fs ≠ [] := by
  rintro rfl
  exact h

/-- `last_txcmdsz` is the size of the last fragment. -/
def LastSize (a : TxAttrib) (r : Coalesced) : Prop :=
  ∃ f, r.frags.getLast? = some f ∧ r.lastTxcmdsz = f.size a

theorem fragLoop_laidOut (hb : InRange a frgLen file)
    (h : fragLoop a frgLen hwHdr fuel i m file = some r) :
    LaidOut a frgLen hwHdr m r.frags ∧ r.nrFrags = (i + r.frags.length) % 256 ∧ LastSize a r := by
  induction fuel generalizing i m file r with
  | zero => simp [fragLoop] at h
  | succ fuel ih =>
    by_cases hend : EndsAt a frgLen i file
    · rw [fragLoop_last hend, Option.some.injEq] at h
      subst h
      exact ⟨rfl, rfl, _, rfl, rfl⟩
    · have hsize := (fragAt_size hb hend true (m := m)).1
      rw [fragLoop_more hend, Option.map_eq_some_iff, hsize] at h
      obtain ⟨r', hr', rfl⟩ := h
      obtain ⟨hlaid, hnr, f, hlast, hsz⟩ := ih (hb.drop _) hr'
      obtain ⟨g, gs, hgs⟩ := List.exists_cons_of_ne_nil hlaid.ne_nil
      refine ⟨?_, ?_, f, ?_, hsz⟩
      · rw [hgs] at hlaid ⊢
        exact ⟨rfl, hsize, hlaid⟩
      · simp only [List.length_cons, hnr]
        congr 1
        omega
      · rw [hgs] at hlast ⊢
        exact hlast

/-! ## The fragments after the first -/

/-- The bytes of the packet that a fragment after the first can take. -/
def room (a : TxAttrib) (frgLen : ℤ) : ℤ := a.mpduLen frgLen 0

theorem mpduLen_later (hi : i ≠ 0) : a.mpduLen frgLen (llcOf a i).length = room a frgLen := by
  simp [llcOf, hi, room]

theorem mpduLen_first : a.mpduLen frgLen (llcOf a 0).length = room a frgLen - 8 := by
  simp only [llcOf, if_pos, rtwPutSnap_length, snapSize, room, TxAttrib.mpduLen]
  omega

theorem readLen_later (hi : i ≠ 0) (hm : ¬isMulticast a.ra) :
    readLen a frgLen i = toUint (room a frgLen) := by
  rw [readLen, if_neg hm, mpduLen_later hi]

theorem room_lt (hb : InRange a frgLen file) : room a frgLen < 2 ^ 32 := by
  have h := hb.frgLen_lt
  simp only [room, TxAttrib.mpduLen]
  omega

/-- Every fragment takes a byte, so that the loop ends. -/
theorem fragLoop_isSome (hb : InRange a frgLen file) (hi : i ≠ 0) (hroom : 0 < room a frgLen)
    (hf : file.length < fuel) : (fragLoop a frgLen hwHdr fuel i m file).isSome := by
  induction fuel generalizing i m file with
  | zero => exact absurd hf (Nat.not_lt_zero _)
  | succ fuel ih =>
    by_cases hend : EndsAt a frgLen i file
    · rw [fragLoop_last hend]
      rfl
    · have hread := (fragAt_size hb hend true (m := m)).2.2
      rw [mpduLen_later hi] at hread
      have hlt : readLen a frgLen i < file.length := Nat.not_le.mp (not_or.mp hend).2
      rw [fragLoop_more hend, Option.isSome_map]
      apply ih (hb.drop _) (Nat.succ_ne_zero i)
      rw [List.length_drop]
      omega

/-- The size of a last fragment that takes `k` bytes. -/
def lastSize (a : TxAttrib) (k : ℕ) : ℤ := a.hdrlen.toNat + a.ivLen + k + a.swIcvLen

/-- `n` bytes fill fragments of `b` bytes and a last one of `(n - 1) % b + 1`. -/
theorem fragLoop_later {b : ℕ} (hb : InRange a frgLen file) (hi : i ≠ 0)
    (hm : ¬isMulticast a.ra) (hroom : room a frgLen = b) (hpos : 0 < b) (hne : 0 < file.length)
    (h : fragLoop a frgLen hwHdr fuel i m file = some r) :
    r.frags.length = (file.length - 1) / b + 1 ∧
      ∀ P : ℤ → Prop, (∀ f ∈ r.frags, P (f.size a)) ↔
        (b < file.length → P frgLen) ∧ P (lastSize a ((file.length - 1) % b + 1)) := by
  induction fuel generalizing i m file r with
  | zero => simp [fragLoop] at h
  | succ fuel ih =>
    have hread : readLen a frgLen i = b := by
      have := toUint_of_nonneg (x := room a frgLen) (by omega) (room_lt hb)
      rw [readLen_later hi hm]
      omega
    by_cases hend : EndsAt a frgLen i file
    · have hle : file.length ≤ b := hread ▸ hend.resolve_left hm
      have hmod : (file.length - 1) % b = file.length - 1 := Nat.mod_eq_of_lt (by omega)
      have hdiv : (file.length - 1) / b = 0 := Nat.div_eq_of_lt (by omega)
      have hbody : (file.take b).length = file.length := by rw [List.length_take]; omega
      rw [fragLoop_last hend, Option.some.injEq] at h
      subst h
      have hsize : ((fragAt a frgLen m i file false).size a : ℤ) = lastSize a file.length := by
        simp only [fragAt, TxFragment.size, hread, hbody, lastSize, llcOf, if_neg hi, List.length_nil]
        omega
      refine ⟨by simp [hdiv], fun P => ?_⟩
      simp only [List.forall_mem_singleton, hsize, hmod, Nat.sub_add_cancel hne]
      exact ⟨fun h => ⟨fun hlt => absurd hlt (by omega), h⟩, And.right⟩
    · have hlt : b < file.length := hread ▸ Nat.not_le.mp (not_or.mp hend).2
      have hsize := (fragAt_size hb hend true (m := m)).1
      rw [fragLoop_more hend, Option.map_eq_some_iff, hread] at h
      obtain ⟨r', hr', rfl⟩ := h
      have hdrop : (file.drop b).length = file.length - b := List.length_drop
      obtain ⟨hlen, hP⟩ := ih (hb.drop b) (Nat.succ_ne_zero i) (by omega) hr'
      have hsub : file.length - 1 = file.length - b - 1 + b := by omega
      rw [hdrop] at hlen hP
      refine ⟨?_, fun P => ?_⟩
      · rw [List.length_cons, hlen, hsub, Nat.add_div_right _ hpos]
      · rw [List.forall_mem_cons, hsize, hP P, hsub, Nat.add_mod_right]
        constructor
        · rintro ⟨h1, h2, h3⟩
          exact ⟨fun _ => h1, h3⟩
        · rintro ⟨h1, h2⟩
          exact ⟨h1 (by omega), fun _ => h1 (by omega), h2⟩

/-! ## The bytes of the packet -/

/-- The bytes between the IVs and the ICVs. -/
def bodyBytes (fs : List TxFragment) : Bytes := (fs.map fun f => f.llc ++ f.body).flatten

/-- The bodies of the fragments are the LLC header and the packet. -/
theorem fragLoop_bytes (hm : ¬isMulticast a.ra)
    (h : fragLoop a frgLen hwHdr fuel i m file = some r) :
    bodyBytes r.frags = llcOf a i ++ file := by
  induction fuel generalizing i m file r with
  | zero => simp [fragLoop] at h
  | succ fuel ih =>
    by_cases hend : EndsAt a frgLen i file
    · rw [fragLoop_last hend, Option.some.injEq] at h
      subst h
      simp [bodyBytes, fragAt, List.take_of_length_le (hend.resolve_left hm)]
    · rw [fragLoop_more hend, Option.map_eq_some_iff] at h
      obtain ⟨r', hr', rfl⟩ := h
      have htail := ih hr'
      simp only [bodyBytes, llcOf, Nat.succ_ne_zero, if_false, List.nil_append] at htail
      simp only [bodyBytes, List.map_cons, List.flatten_cons, htail, fragAt, List.append_assoc,
        List.take_append_drop]

/-- The bytes of the headers, IVs and ICVs of `fs` and of the descriptors between
    them. -/
def overhead (a : TxAttrib) (hwHdr : ℕ) (fs : List TxFragment) : ℕ :=
  fs.length * (a.hdrlen.toNat + a.ivLen + a.swIcvLen) + (fs.length - 1) * hwHdr

/-- The last fragment ends behind all bytes written before it. -/
theorem LaidOut.le_end {fs : List TxFragment} {f : TxFragment}
    (h : LaidOut a frgLen hwHdr m fs) (hf : fs.getLast? = some f) :
    m + overhead a hwHdr fs + (bodyBytes fs).length ≤ f.memStart + f.size a := by
  induction fs generalizing m with
  | nil => exact h.elim
  | cons g gs ih =>
    cases gs with
    | nil =>
      obtain rfl : g = f := Option.some.inj hf
      have hm : g.memStart = m := h
      simp only [overhead, bodyBytes, TxFragment.size, List.length_singleton, List.map_cons,
        List.map_nil, List.flatten_cons, List.flatten_nil, List.append_nil, List.length_append]
      omega
    | cons g' gs =>
      obtain ⟨-, hsize, htail⟩ := h
      have hrec := ih htail hf
      have hle := le_rnd4 (m + frgLen)
      simp only [overhead, bodyBytes, TxFragment.size, List.length_cons, List.map_cons,
        List.flatten_cons, List.length_append, Nat.add_sub_cancel, Nat.succ_mul] at hrec hsize ⊢
      omega

end loop

/-! ## The whole packet -/

section packet

variable {a : TxAttrib} {fragLen : UInt32} {skb : Skb}

/-- The bytes of the packet behind its Ethernet header. -/
def payloadLen (a : TxAttrib) (skb : Skb) : ℕ := skb.data.length - a.pktHdrlen

/-- The room of a fragment after the first. -/
def laterRoom (a : TxAttrib) (fragLen : UInt32) : ℤ := room a (fragLen.toNat - 4)

/-- The packet is not divided: it is multicast, or fits behind the LLC header of the
    first fragment. -/
def FitsFirst (a : TxAttrib) (fragLen : UInt32) (skb : Skb) : Prop :=
  isMulticast a.ra ∨ payloadLen a skb ≤ toUint (laterRoom a fragLen - 8)

/-- The bytes that the first fragment leaves to the others. -/
def restLen (a : TxAttrib) (fragLen : UInt32) (skb : Skb) : ℕ :=
  payloadLen a skb - (laterRoom a fragLen - 8).toNat

theorem fitsFirst_iff :
    FitsFirst a fragLen skb ↔ EndsAt a (fragLen.toNat - 4) 0 (skb.data.drop a.pktHdrlen) := by
  by_cases hm : isMulticast a.ra
  · exact iff_of_true (Or.inl hm) (Or.inl hm)
  · rw [FitsFirst, EndsAt, readLen, if_neg hm, mpduLen_first, List.length_drop]
    rfl

/-- The IV and ICV of `update_attrib`. -/
structure IceOk (a : TxAttrib) : Prop where
  ivLen_le : a.ivLen ≤ 8
  icvLen_le : a.icvLen ≤ 8

theorem IceOk.inRange (ha : IceOk a) : InRange a (fragLen.toNat - 4) (skb.data.drop a.pktHdrlen) := by
  have h1 := fragLen.toNat_lt
  have h2 := skb.length_lt
  refine ⟨by omega, by omega, ?_, ha.ivLen_le, ha.icvLen_le⟩
  rw [List.length_drop]
  omega

theorem coalesce_one (bufAddr : ℤ) (pktOffset : ℕ) (h : FitsFirst a fragLen skb) :
    ∃ f : TxFragment, f.memStart = bufAddr + hwHdrOffset pktOffset ∧ f.llc.length = 8 ∧
      f.body.length ≤ payloadLen a skb ∧
      rtwXmitframeCoalesce a fragLen bufAddr pktOffset skb = some ⟨[f], 1, f.size a⟩ := by
  refine ⟨_, rfl, rtwPutSnap_length _, ?_, fragLoop_last (fitsFirst_iff.mp h)⟩
  rw [payloadLen, ← List.length_drop]
  exact List.length_take_le' _ _

/-- What a packet that does not fit becomes. -/
structure Divided (a : TxAttrib) (fragLen : UInt32) (bufAddr : ℤ) (pktOffset : ℕ) (skb : Skb)
    (r : Coalesced) (b : ℕ) (f g : TxFragment) (fs : List TxFragment) : Prop where
  frags_eq : r.frags = f :: g :: fs
  laterRoom_eq : laterRoom a fragLen = b
  room_ge : 8 ≤ b
  laidOut : LaidOut a (fragLen.toNat - 4) (hwHdrOffset pktOffset)
    (bufAddr + hwHdrOffset pktOffset) r.frags
  nrFrags_eq : r.nrFrags = r.frags.length % 256
  lastSize : LastSize a r
  bytes_eq : bodyBytes r.frags = rtwPutSnap a.etherType ++ skb.data.drop a.pktHdrlen
  length_eq : r.frags.length = (restLen a fragLen skb - 1) / b + 2
  later_iff : ∀ P : ℤ → Prop, (∀ x ∈ g :: fs, P (x.size a)) ↔
    (b < restLen a fragLen skb → P (fragLen.toNat - 4)) ∧
      P (Xmit.lastSize a ((restLen a fragLen skb - 1) % b + 1))

theorem coalesce_divided (bufAddr : ℤ) (pktOffset : ℕ) (ha : IceOk a)
    (h : ¬FitsFirst a fragLen skb) :
    ∃ r b f g fs, rtwXmitframeCoalesce a fragLen bufAddr pktOffset skb = some r ∧
      Divided a fragLen bufAddr pktOffset skb r b f g fs := by
  have hb : InRange a (fragLen.toNat - 4) (skb.data.drop a.pktHdrlen) := ha.inRange
  have hend := mt fitsFirst_iff.mpr h
  obtain ⟨hm, hlt⟩ := not_or.mp hend
  obtain ⟨f, hf⟩ : ∃ f, f = fragAt a (fragLen.toNat - 4) (bufAddr + hwHdrOffset pktOffset) 0
    (skb.data.drop a.pktHdrlen) true := ⟨_, rfl⟩
  obtain ⟨hsize, hpos, hread⟩ := fragAt_size hb hend true (m := bufAddr + hwHdrOffset pktOffset)
  rw [mpduLen_first] at hpos hread
  obtain ⟨b, hroom⟩ := Int.eq_ofNat_of_zero_le (a := room a (fragLen.toNat - 4)) (by omega)
  have hrest : ((skb.data.drop a.pktHdrlen).drop (readLen a (fragLen.toNat - 4) 0)).length =
      restLen a fragLen skb := by
    rw [List.length_drop, List.length_drop, restLen, payloadLen, laterRoom]
    omega
  have hne : 0 < restLen a fragLen skb := by
    rw [← hrest, List.length_drop]
    omega
  obtain ⟨r', hr'⟩ : ∃ r', fragLoop a (fragLen.toNat - 4) (hwHdrOffset pktOffset)
      (skb.data.length + 1) 1
      (rnd4 (bufAddr + hwHdrOffset pktOffset + (fragLen.toNat - 4)) + hwHdrOffset pktOffset)
      ((skb.data.drop a.pktHdrlen).drop (readLen a (fragLen.toNat - 4) 0)) = some r' := by
    apply Option.isSome_iff_exists.mp
    apply fragLoop_isSome (hb.drop _) Nat.one_ne_zero (by omega)
    rw [List.length_drop, List.length_drop]
    omega
  obtain ⟨hlen, hP⟩ := fragLoop_later (hb.drop _) Nat.one_ne_zero hm hroom (by omega)
    (hrest ▸ hne) hr'
  have hsome : rtwXmitframeCoalesce a fragLen bufAddr pktOffset skb =
      some { r' with frags := f :: r'.frags } := by
    rw [rtwXmitframeCoalesce, fragLoop_more hend, hsize, hr', hf]
    rfl
  obtain ⟨hlaid, hnr, hlast⟩ := fragLoop_laidOut hb hsome
  obtain ⟨g, fs, hgs⟩ : ∃ g fs, r'.frags = g :: fs := by
    apply List.exists_cons_of_ne_nil
    intro hnil
    rw [hnil, List.length_nil] at hlen
    exact absurd hlen (Nat.succ_ne_zero _).symm
  rw [hrest] at hlen hP
  refine ⟨_, b, f, g, fs, hsome, ?_⟩
  refine ⟨congrArg _ hgs, hroom, by omega, hlaid, ?_, hlast, fragLoop_bytes hm hsome, ?_,
    fun P => hgs ▸ hP P⟩
  · rw [hnr, Nat.zero_add]
  · rw [List.length_cons, hlen]

end packet

/-! ## Nothing is lost -/

section whole

variable {a : TxAttrib} {fragLen : UInt32} {bufAddr : ℤ} {pktOffset : ℕ} {skb : Skb} {r : Coalesced}

theorem rtwXmitframeCoalesce_isSome (ha : IceOk a) (fragLen : UInt32) (bufAddr : ℤ)
    (pktOffset : ℕ) (skb : Skb) : ∃ r, rtwXmitframeCoalesce a fragLen bufAddr pktOffset skb = some r := by
  by_cases hfit : FitsFirst a fragLen skb
  · obtain ⟨f, -, -, -, hr⟩ := coalesce_one bufAddr pktOffset hfit
    exact ⟨_, hr⟩
  · obtain ⟨r, b, f, g, fs, hr, -⟩ := coalesce_divided bufAddr pktOffset ha hfit
    exact ⟨r, hr⟩

/-- The fragments carry the LLC header and the packet without its Ethernet header. -/
theorem coalesce_bytes (hpkt : a.pktlen = skb.data.length - ethHlen) (hhdr : a.pktHdrlen = ethHlen)
    (h : rtwXmitframeCoalesce a fragLen bufAddr pktOffset skb = some r) :
    bodyBytes r.frags = rtwPutSnap a.etherType ++ skb.data.drop ethHlen := by
  rw [rtwXmitframeCoalesce, hhdr] at h
  by_cases hm : isMulticast a.ra
  · rw [fragLoop_last (Or.inl hm)] at h
    obtain rfl := Option.some.inj h
    have hall : (skb.data.drop ethHlen).take a.pktlen = skb.data.drop ethHlen := by
      rw [hpkt, ← List.length_drop, List.take_length]
    simp [bodyBytes, fragAt, readLen, hm, hall, llcOf]
  · have hbytes := fragLoop_bytes hm h
    rwa [llcOf, if_pos rfl] at hbytes

/-- The LLC header is in the first fragment. -/
theorem fragLoop_llc {frgLen m : ℤ} {hwHdr fuel i : ℕ} {file : Bytes}
    (h : fragLoop a frgLen hwHdr fuel i m file = some r) :
    ∃ f fs, r.frags = f :: fs ∧ f.llc = llcOf a i ∧ ∀ g ∈ fs, g.llc = [] := by
  induction fuel generalizing i m file r with
  | zero => cases h
  | succ fuel ih =>
    by_cases hend : EndsAt a frgLen i file
    · rw [fragLoop_last hend, Option.some.injEq] at h
      subst h
      exact ⟨_, [], rfl, rfl, fun g hg => absurd hg List.not_mem_nil⟩
    · rw [fragLoop_more hend, Option.map_eq_some_iff] at h
      obtain ⟨r', hr', rfl⟩ := h
      obtain ⟨f, fs, hfs, hf, hrest⟩ := ih hr'
      refine ⟨_, f :: fs, congrArg _ hfs, rfl, ?_⟩
      rw [List.forall_mem_cons]
      exact ⟨hf, hrest⟩

/-- More-Fragments is set in all fragments but the last. -/
theorem fragLoop_mfrag {frgLen m : ℤ} {hwHdr fuel i : ℕ} {file : Bytes}
    (h : fragLoop a frgLen hwHdr fuel i m file = some r) :
    ∃ fs f, r.frags = fs ++ [f] ∧ f.mfrag = false ∧ (∀ g ∈ fs, g.mfrag = true) ∧
      r.lastTxcmdsz = f.size a := by
  induction fuel generalizing i m file r with
  | zero => cases h
  | succ fuel ih =>
    by_cases hend : EndsAt a frgLen i file
    · rw [fragLoop_last hend, Option.some.injEq] at h
      subst h
      exact ⟨[], _, rfl, rfl, fun g hg => absurd hg List.not_mem_nil, rfl⟩
    · rw [fragLoop_more hend, Option.map_eq_some_iff] at h
      obtain ⟨r', hr', rfl⟩ := h
      obtain ⟨fs, f, hfs, hf, hmore, hlast⟩ := ih hr'
      refine ⟨_ :: fs, f, congrArg _ hfs, hf, ?_, hlast⟩
      rw [List.forall_mem_cons]
      exact ⟨rfl, hmore⟩

/-- The number of fragments, up to the 8 bits of `nr_frags`. -/
theorem fragLoop_nrFrags {frgLen m : ℤ} {hwHdr fuel i : ℕ} {file : Bytes}
    (h : fragLoop a frgLen hwHdr fuel i m file = some r) :
    r.nrFrags = (i + r.frags.length) % 256 := by
  induction fuel generalizing i m file r with
  | zero => cases h
  | succ fuel ih =>
    by_cases hend : EndsAt a frgLen i file
    · rw [fragLoop_last hend, Option.some.injEq] at h
      subst h
      rfl
    · rw [fragLoop_more hend, Option.map_eq_some_iff] at h
      obtain ⟨r', hr', rfl⟩ := h
      rw [List.length_cons, ← Nat.add_assoc, Nat.add_right_comm]
      exact ih hr'

/-- The fragments are the packet: the LLC header in the first of them, then every byte behind the
    Ethernet header; all but the last say that more follow, and the last has the size in
    `last_txcmdsz`. -/
structure Whole (a : TxAttrib) (skb : Skb) (r : Coalesced) : Prop where
  bytes : bodyBytes r.frags = rtwPutSnap a.etherType ++ skb.data.drop ethHlen
  llc : ∃ f fs, r.frags = f :: fs ∧ f.llc = rtwPutSnap a.etherType ∧ ∀ g ∈ fs, g.llc = []
  mfrag : ∃ fs f, r.frags = fs ++ [f] ∧ f.mfrag = false ∧ (∀ g ∈ fs, g.mfrag = true) ∧
    r.lastTxcmdsz = f.size a

/-- The attributes of a packet with any cipher. -/
theorem iceOk_updateAttrib (sec : SecurityPriv) (encrypt : Encryption) (hdrlen : UInt16)
    (ra : MacAddr) (etherType : ℕ) (skb : Skb) :
    IceOk (updateAttrib sec encrypt hdrlen ra etherType skb) := by
  have h : ∀ e, (iceIvLen e).1 ≤ 8 ∧ (iceIvLen e).2 ≤ 8 := fun e => by cases e <;> decide
  exact ⟨(h encrypt).1, (h encrypt).2⟩

theorem coalesce_whole (sec : SecurityPriv) (encrypt : Encryption) (hdrlen : UInt16) (ra : MacAddr)
    (etherType : ℕ) (fragLen : UInt32) (bufAddr : ℤ) (pktOffset : ℕ) (skb : Skb) :
    ∃ r, rtwXmitframeCoalesce (updateAttrib sec encrypt hdrlen ra etherType skb) fragLen bufAddr
        pktOffset skb = some r ∧
      Whole (updateAttrib sec encrypt hdrlen ra etherType skb) skb r ∧
        r.nrFrags = r.frags.length % 256 := by
  obtain ⟨r, hr⟩ := rtwXmitframeCoalesce_isSome
    (iceOk_updateAttrib sec encrypt hdrlen ra etherType skb) fragLen bufAddr pktOffset skb
  refine ⟨r, hr, ⟨coalesce_bytes rfl rfl hr, fragLoop_llc hr, fragLoop_mfrag hr⟩, ?_⟩
  rw [fragLoop_nrFrags hr, Nat.zero_add]

end whole

/-- A packet of 2300 bytes behind its Ethernet header. -/
def longSkb : Skb where
  data := List.replicate 2314 0
  ethHlen_le := by rw [List.length_replicate]; decide
  length_lt := by rw [List.length_replicate]; decide

/-- Its attributes without encryption. -/
def longAttrib : TxAttrib :=
  updateAttrib ⟨false, true⟩ .noPrivacy 24 (Vector.replicate 6 0) 0x0800 longSkb

/-- With room for nine bytes in a fragment it becomes 257 of them, and `nr_frags` is 1. -/
theorem longSkb_nrFrags :
    1 ≤ laterRoom longAttrib 37 ∧
      ¬ ∃ r, rtwXmitframeCoalesce longAttrib 37 0 0 longSkb = some r ∧
        Whole longAttrib longSkb r ∧ r.nrFrags = r.frags.length := by
  have hroom : laterRoom longAttrib 37 = 9 := rfl
  have hpayload : payloadLen longAttrib longSkb = 2300 := by
    have hlen : longSkb.data.length = 2314 := List.length_replicate
    rw [payloadLen, hlen]
    rfl
  have hice : IceOk longAttrib := iceOk_updateAttrib ..
  refine ⟨by omega, ?_⟩
  rintro ⟨r, hr, -, hnr⟩
  have hfit : ¬ FitsFirst longAttrib 37 longSkb := by
    rw [FitsFirst, hroom, hpayload]
    rintro (h | h)
    · exact absurd (show isMulticast (Vector.replicate 6 0) from h) (by decide)
    · exact absurd h (by decide)
  obtain ⟨r', b, f, g, fs, hr', hd⟩ := coalesce_divided 0 0 hice hfit
  obtain rfl := Option.some.inj (hr.symm.trans hr')
  have hrest : restLen longAttrib 37 longSkb = 2299 := by
    rw [restLen, hroom, hpayload]
    rfl
  have hb : b = 9 := by
    have h := hd.laterRoom_eq
    omega
  have hlen : r.frags.length = 257 := by rw [hd.length_eq, hrest, hb]
  have hmod := hd.nrFrags_eq
  omega

end Rtl8821au.Xmit
