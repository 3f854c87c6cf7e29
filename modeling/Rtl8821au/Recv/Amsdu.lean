import Rtl8821au.Lib.Checked
import Rtl8821au.Recv.Frame

/-!
# De-aggregation

`amsdu_to_msdu` (`rtw_recv.c`, lines 1876–1955) and `rtw_os_alloc_msdu_pkt` (`recv_linux.c`, lines
168–219), which is built with `CONFIG_SKB_COPY`, on the body of an A-MSDU: what is left of the
frame when the header and the IV were pulled. A read behind the body is a fault.

* `msduLoop_spec`: on any bytes the loop ends, with packets from the body only, unless a short
  subframe that is cloned is the last thing in it.
* `deaggregates_iff`: when the packets are the MSDUs that were aggregated.
* `amsdu_iff`: both.

The header that is pushed before the data of a clone overwrites its own subframe. `eth_type` is
read from the copy where there is one.
-/

namespace Rtl8821au.Recv.Amsdu

open Checked

/-! ## Model -/

/-- Where the data of a packet is: `dev_alloc_skb` has a buffer for a copy, or else `skb_clone`
    has a clone, or neither. -/
inductive Alloc where
  | copy
  | clone
  | fail
  deriving DecidableEq, Repr

/-- The destination and the source, in `attrib` or in a subframe header. -/
structure Ends where
  dst : MacAddr
  src : MacAddr
  deriving DecidableEq, Repr

/-- `sub_skb`: where its data was in the body, and its bytes when it is handed up. -/
structure Packet where
  start : ℕ
  len : ℕ
  bytes : List UInt8
  deriving DecidableEq, Repr

/-- `MAX_SUBFRAME_COUNT`. -/
def maxSubframeCount : ℕ := 64

/-- `ETH_P_AARP`. -/
def ethPAarp : ℕ := 0x80f3

/-- `ETH_P_IPX`. -/
def ethPIpx : ℕ := 0x8137

/-- The condition for an encapsulation that is removed. -/
def encapsulated (data : List UInt8) : Prop :=
  8 ≤ data.length ∧
    ((data.take snapSize = rtwRfc1042Header ∧
        Checked.be16 (data.getD 6 0) (data.getD 7 0) ≠ ethPAarp ∧
        Checked.be16 (data.getD 6 0) (data.getD 7 0) ≠ ethPIpx) ∨
      data.take snapSize = rtwBridgeTunnelHeader)

instance (data : List UInt8) : Decidable (encapsulated data) :=
  inferInstanceAs (Decidable (_ ∧ _))

/-- `htons`, as bytes. -/
def htons (n : ℕ) : List UInt8 := [UInt8.ofNat (n / 256), UInt8.ofNat n]

/-- The Ethernet frame of the data (lines 200–216). -/
def ethernet (e : Ends) (data : List UInt8) : List UInt8 :=
  if encapsulated data then e.dst.toList ++ (e.src.toList ++ data.drop snapSize)
  else e.dst.toList ++ (e.src.toList ++ (htons data.length ++ data))

/-- `rtw_os_alloc_msdu_pkt`. -/
def rtwOsAllocMsduPkt (f : List UInt8) (attrib : Ends) (n pdata : ℕ) :
    Alloc → Except Fault (Option Packet)
  | .fail => .ok none
  | .copy => do
    let data ← readBytes f (pdata + ethHlen) n
    .ok (some ⟨pdata + ethHlen, n, ethernet attrib data⟩)
  | .clone => do
    let _ ← readBytes f (pdata + ethHlen + 6) 2
    let data ← readBytes f (pdata + ethHlen) n
    .ok (some ⟨pdata + ethHlen, n, ethernet attrib data⟩)

/-- `padding_len`. -/
def paddingLen (n : ℕ) : ℕ :=
  if 4 - (n + ethHlen) % 4 = 4 then 0 else 4 - (n + ethHlen) % 4

/-- What is done with the subframe (lines 1909–1944); `next` is the next turn of the loop. -/
def afterSubframe (next : ℕ → ℕ → ℕ → Except Fault (List Packet)) (pdata aLen nr n : ℕ) :
    Option Packet → Except Fault (List Packet)
  | none => .ok []
  | some sub =>
    if maxSubframeCount ≤ nr + 1 then .ok [sub]
    else if aLen - ethHlen - n = 0 then do
      let rest ← next (pdata + ethHlen + n) 0 (nr + 1)
      .ok (sub :: rest)
    else if aLen - ethHlen - n < paddingLen n then .ok [sub]
    else do
      let rest ← next (pdata + ethHlen + n + paddingLen n) (aLen - ethHlen - n - paddingLen n)
        (nr + 1)
      .ok (sub :: rest)

/-- The loop; `alloc` says where the data of the packets is, `readBe16` is `RTW_GET_BE16`. The
    result is `subframes` from `nr_subframes` on. -/
def msduLoop (f : List UInt8) (attrib : Ends) (alloc : ℕ → Alloc) :
    ℕ → ℕ → ℕ → ℕ → Except Fault (List Packet)
  | 0, _, _, _ => .error .timeout
  | fuel + 1, pdata, aLen, nr =>
    if ethHlen < aLen then do
      let n ← readBe16 f (pdata + 12)
      if aLen < ethHlen + n then .ok []
      else do
        let sub ← rtwOsAllocMsduPkt f attrib n pdata (alloc nr)
        afterSubframe (msduLoop f attrib alloc fuel) pdata aLen nr n sub
    else .ok []

/-- The packets that `amsdu_to_msdu` hands up. -/
def amsduToMsdu (f : List UInt8) (attrib : Ends) (alloc : ℕ → Alloc) :
    Except Fault (List Packet) := msduLoop f attrib alloc (f.length + 1) 0 f.length 0

/-! ## What it is for -/

/-- An MSDU and the padding behind its subframe. -/
structure Msdu extends Ends where
  payload : List UInt8
  payload_lt : payload.length < 65536
  padding : List UInt8
  padding_length : padding.length = paddingLen payload.length

/-- The subframe: its header and the payload. -/
def Msdu.subframe (m : Msdu) : List UInt8 :=
  m.dst.toList ++ (m.src.toList ++ (htons m.payload.length ++ m.payload))

/-- The body of the A-MSDU: the last subframe is not padded. -/
def aggregate : List Msdu → List UInt8
  | [] => []
  | [m] => m.subframe
  | m :: m' :: ms => m.subframe ++ (m.padding ++ aggregate (m' :: ms))

/-- The MSDUs are handed up, each with its own addresses. -/
def Deaggregates (ms : List Msdu) (attrib : Ends) (alloc : ℕ → Alloc) : Prop :=
  ∃ pkts, amsduToMsdu (aggregate ms) attrib alloc = .ok pkts ∧
    pkts.map Packet.bytes = ms.map fun m => ethernet m.toEnds m.payload

/-- The loop ends, with at most 64 packets, all from the body, and no read behind it. -/
def Safe (f : List UInt8) (attrib : Ends) (alloc : ℕ → Alloc) : Prop :=
  ∃ pkts, amsduToMsdu f attrib alloc = .ok pkts ∧ pkts.length ≤ 64 ∧
    ∀ p ∈ pkts, p.start + p.len ≤ f.length

/-! ## When it is right -/

/-- The subframes from number `nr` on have the addresses of the header, and a place for the data;
    the last one has a payload, of 8 bytes if it is cloned. -/
def HandedUp (attrib : Ends) (alloc : ℕ → Alloc) : ℕ → List Msdu → Prop
  | _, [] => True
  | nr, m :: ms =>
    m.toEnds = attrib ∧ alloc nr ≠ .fail ∧
      (ms = [] → m.payload ≠ [] ∧ (alloc nr = .clone → 8 ≤ m.payload.length)) ∧
      HandedUp attrib alloc (nr + 1) ms

/-- The length in a subframe header. -/
def lengthField (bytes : List UInt8) : ℕ := Checked.be16 (bytes.getD 12 0) (bytes.getD 13 0)

/-- Behind the header of every subframe that is cloned there are 8 bytes. -/
def ClonesFit (alloc : ℕ → Alloc) (nr : ℕ) (bytes : List UInt8) : Prop :=
  if bytes.length ≤ ethHlen ∨ bytes.length < ethHlen + lengthField bytes then True
  else
    (alloc nr = .clone → ethHlen + 8 ≤ bytes.length) ∧
      (alloc nr ≠ .fail → nr + 1 < maxSubframeCount →
        ClonesFit alloc (nr + 1)
          (bytes.drop (ethHlen + lengthField bytes + paddingLen (lengthField bytes))))
  termination_by bytes.length
  decreasing_by
    rw [List.length_drop]
    simp only [ethHlen] at *
    omega

/-! ## One subframe -/

section subframe

variable {f : List UInt8} {attrib : Ends} {alloc : ℕ → Alloc} {pdata nr n fuel : ℕ} {a : Alloc}

/-- The packet of the subframe at `pdata`. -/
def packetAt (f : List UInt8) (attrib : Ends) (pdata n : ℕ) : Packet :=
  ⟨pdata + ethHlen, n, ethernet attrib (((f.drop pdata).drop ethHlen).take n)⟩

theorem alloc_ok (hin : ethHlen + n ≤ (f.drop pdata).length) (ha : a ≠ .fail)
    (hclone : a = .clone → ethHlen + 8 ≤ (f.drop pdata).length) :
    rtwOsAllocMsduPkt f attrib n pdata a = .ok (some (packetAt f attrib pdata n)) := by
  cases a with
  | fail => exact absurd rfl ha
  | copy => rw [rtwOsAllocMsduPkt, readBytes_at hin, bind_ok, packetAt]
  | clone =>
    have htype : ethHlen + 6 + 2 ≤ (f.drop pdata).length := hclone rfl
    rw [rtwOsAllocMsduPkt, Nat.add_assoc pdata, readBytes_at htype, bind_ok, readBytes_at hin,
      bind_ok, packetAt]

/-- `eth_type` of a clone at the end of the body. -/
theorem alloc_beyond (hlen : (f.drop pdata).length < ethHlen + 8) :
    rtwOsAllocMsduPkt f attrib n pdata .clone = .error .beyond := by
  have hout : ¬ Inside f (pdata + ethHlen + 6) 2 := by
    rw [List.length_drop] at hlen
    rw [Inside]
    omega
  rw [rtwOsAllocMsduPkt, readBytes_of_not_inside hout, bind_error]

theorem msduLoop_end (hlen : (f.drop pdata).length ≤ ethHlen) :
    msduLoop f attrib alloc (fuel + 1) pdata (f.drop pdata).length nr = .ok [] :=
  if_neg (Nat.not_lt.mpr hlen)

/-- What follows a subframe, wherever it ends. -/
theorem afterSubframe_eq (sub : Packet) (hin : ethHlen + n ≤ (f.drop pdata).length) :
    afterSubframe (msduLoop f attrib alloc (fuel + 1)) pdata (f.drop pdata).length nr n (some sub) =
      if maxSubframeCount ≤ nr + 1 then .ok [sub]
      else
        msduLoop f attrib alloc (fuel + 1) (pdata + (ethHlen + n + paddingLen n))
            (f.drop (pdata + (ethHlen + n + paddingLen n))).length (nr + 1) >>=
          fun rest => .ok (sub :: rest) := by
  have hrest : (f.drop (pdata + (ethHlen + n + paddingLen n))).length =
      (f.drop pdata).length - ethHlen - n - paddingLen n := by
    rw [List.length_drop, List.length_drop]
    omega
  have hpos : 0 < ethHlen := by decide
  rw [afterSubframe]
  by_cases hmax : maxSubframeCount ≤ nr + 1
  · rw [if_pos hmax, if_pos hmax]
  · rw [if_neg hmax, if_neg hmax]
    by_cases hzero : (f.drop pdata).length - ethHlen - n = 0
    · rw [if_pos hzero, msduLoop_end (by omega), msduLoop, if_neg (Nat.not_lt_zero _)]
    · rw [if_neg hzero]
      by_cases hpad : (f.drop pdata).length - ethHlen - n < paddingLen n
      · rw [if_pos hpad, msduLoop_end (by omega), bind_ok]
      · rw [if_neg hpad, ← hrest, Nat.add_assoc, Nat.add_assoc, Nat.add_assoc]

/-- One turn of the loop at a subframe that is inside. -/
theorem msduLoop_turn (hlen : ethHlen < (f.drop pdata).length)
    (hin : ethHlen + lengthField (f.drop pdata) ≤ (f.drop pdata).length) :
    msduLoop f attrib alloc (fuel + 1) pdata (f.drop pdata).length nr =
      rtwOsAllocMsduPkt f attrib (lengthField (f.drop pdata)) pdata (alloc nr) >>=
        afterSubframe (msduLoop f attrib alloc fuel) pdata (f.drop pdata).length nr
          (lengthField (f.drop pdata)) := by
  have hread : readBe16 f (pdata + 12) = .ok (lengthField (f.drop pdata)) :=
    readBe16_at (Nat.lt_of_succ_lt hlen)
  rw [msduLoop, if_pos hlen, hread, bind_ok, if_neg (Nat.not_lt.mpr hin)]

/-- One that is not. -/
theorem msduLoop_out (hlen : ethHlen < (f.drop pdata).length)
    (hout : (f.drop pdata).length < ethHlen + lengthField (f.drop pdata)) :
    msduLoop f attrib alloc (fuel + 1) pdata (f.drop pdata).length nr = .ok [] := by
  have hread : readBe16 f (pdata + 12) = .ok (lengthField (f.drop pdata)) :=
    readBe16_at (Nat.lt_of_succ_lt hlen)
  rw [msduLoop, if_pos hlen, hread, bind_ok, if_pos hout]

end subframe

/-! ## Any bytes -/

section bytes

variable {f : List UInt8} {pdata nr fuel : ℕ} (attrib : Ends) (alloc : ℕ → Alloc)

theorem msduLoop_spec (hfuel : (f.drop pdata).length < fuel) (hnr : nr < maxSubframeCount) :
    (ClonesFit alloc nr (f.drop pdata) →
      ∃ pkts, msduLoop f attrib alloc fuel pdata (f.drop pdata).length nr = .ok pkts ∧
        pkts.length + nr ≤ maxSubframeCount ∧ ∀ p ∈ pkts, p.start + p.len ≤ f.length) ∧
    (¬ ClonesFit alloc nr (f.drop pdata) →
      msduLoop f attrib alloc fuel pdata (f.drop pdata).length nr = .error .beyond) := by
  have hnil : ∀ p ∈ ([] : List Packet), p.start + p.len ≤ f.length :=
    fun p hp => absurd hp List.not_mem_nil
  induction fuel generalizing pdata nr with
  | zero => exact absurd hfuel (Nat.not_lt_zero _)
  | succ fuel ih =>
    rw [ClonesFit]
    by_cases hend : (f.drop pdata).length ≤ ethHlen
    · rw [if_pos (.inl hend), msduLoop_end hend]
      exact ⟨fun _ => ⟨[], rfl, by rw [List.length_nil]; omega, hnil⟩, fun h => absurd trivial h⟩
    have hlen := Nat.lt_of_not_le hend
    by_cases hout : (f.drop pdata).length < ethHlen + lengthField (f.drop pdata)
    · rw [if_pos (.inr hout), msduLoop_out hlen hout]
      exact ⟨fun _ => ⟨[], rfl, by rw [List.length_nil]; omega, hnil⟩, fun h => absurd trivial h⟩
    have hin := Nat.not_lt.mp hout
    rw [if_neg (not_or.mpr ⟨hend, hout⟩), msduLoop_turn hlen hin]
    by_cases hfail : alloc nr = .fail
    · have hclone : alloc nr = .clone → ethHlen + 8 ≤ (f.drop pdata).length := by
        rw [hfail]
        exact nofun
      rw [hfail]
      refine ⟨fun _ => ⟨[], rfl, by rw [List.length_nil]; omega, hnil⟩, fun h => ?_⟩
      exact absurd ⟨nofun, fun hne => absurd rfl hne⟩ h
    by_cases hclone : alloc nr = .clone → ethHlen + 8 ≤ (f.drop pdata).length
    · obtain ⟨fuel, rfl⟩ : ∃ k, fuel = k + 1 := ⟨fuel - 1, by omega⟩
      have hsub : (packetAt f attrib pdata (lengthField (f.drop pdata))).start +
          (packetAt f attrib pdata (lengthField (f.drop pdata))).len ≤ f.length := by
        rw [List.length_drop] at hin hlen
        change pdata + ethHlen + lengthField (f.drop pdata) ≤ f.length
        omega
      rw [and_iff_right hclone, imp_iff_right hfail, alloc_ok hin hfail hclone, bind_ok,
        afterSubframe_eq _ hin]
      by_cases hmax : nr + 1 < maxSubframeCount
      · rw [imp_iff_right hmax, if_neg (Nat.not_le.mpr hmax), List.drop_drop]
        have hpos : 0 < ethHlen := by decide
        have hrest : (f.drop (pdata + (ethHlen + lengthField (f.drop pdata) +
            paddingLen (lengthField (f.drop pdata))))).length < fuel + 1 := by
          rw [List.length_drop] at hfuel hlen ⊢
          omega
        obtain ⟨hok, herr⟩ := ih hrest hmax
        constructor
        · intro hfit
          obtain ⟨pkts, hpkts, hcount, hall⟩ := hok hfit
          rw [hpkts, bind_ok]
          refine ⟨_, rfl, ?_, List.forall_mem_cons.mpr ⟨hsub, hall⟩⟩
          rw [List.length_cons]
          omega
        · intro hno
          rw [herr hno, bind_error]
      · rw [if_pos (Nat.not_lt.mp hmax)]
        refine ⟨fun _ => ⟨_, rfl, ?_, List.forall_mem_cons.mpr ⟨hsub, hnil⟩⟩, fun h => ?_⟩
        · rw [List.length_singleton]
          omega
        · exact absurd (fun h => absurd h hmax) h
    · obtain ⟨hcl, hshort⟩ := Classical.not_imp.mp hclone
      rw [hcl, alloc_beyond (Nat.lt_of_not_le hshort), bind_error]
      exact ⟨fun h => absurd (h.1 rfl) hshort, fun _ => rfl⟩

/-- The loop is safe exactly when the clones fit. -/
theorem safe_iff : Safe f attrib alloc ↔ ClonesFit alloc 0 f := by
  have hstart : (f.drop 0).length < f.length + 1 := Nat.lt_succ_self _
  have hspec := msduLoop_spec attrib alloc hstart (Nat.succ_pos 63)
  rw [List.drop_zero] at hspec
  rw [Safe, amsduToMsdu]
  constructor
  · rintro ⟨pkts, hpkts, -⟩
    by_contra hno
    rw [hspec.2 hno] at hpkts
    cases hpkts
  · intro hfit
    exact hspec.1 hfit

end bytes

/-! ## Aggregated MSDUs -/

section aggregated

variable {m : Msdu} {ms : List Msdu} {e e' : Ends} {r data : List UInt8}

theorem be16_htons {n : ℕ} (h : n < 65536) :
    Checked.be16 (UInt8.ofNat (n / 256)) (UInt8.ofNat n) = n := by
  have hhi : (UInt8.ofNat (n / 256)).toNat = n / 256 := Nat.mod_eq_of_lt (by omega)
  have hlo : (UInt8.ofNat n).toNat = n % 256 := rfl
  rw [Checked.be16, hhi, hlo]
  omega

/-- The addresses before the length. -/
theorem addresses_length (e : Ends) : (e.dst.toList ++ e.src.toList).length = 12 := by
  rw [List.length_append, Vector.length_toList, Vector.length_toList]

theorem subframe_eq (m : Msdu) (r : List UInt8) :
    m.subframe ++ r =
      (m.dst.toList ++ m.src.toList) ++ (htons m.payload.length ++ (m.payload ++ r)) := by
  rw [Msdu.subframe]
  simp only [List.append_assoc]

theorem subframe_length (m : Msdu) : m.subframe.length = ethHlen + m.payload.length := by
  have heq := congrArg List.length (subframe_eq m [])
  rw [List.append_nil, List.append_nil, List.length_append, addresses_length,
    List.length_append] at heq
  rw [heq, htons, ethHlen]
  simp only [List.length_cons, List.length_nil]
  omega

theorem lengthField_subframe (m : Msdu) (r : List UInt8) :
    lengthField (m.subframe ++ r) = m.payload.length := by
  have hget : ∀ k, (m.subframe ++ r).getD (12 + k) 0 =
      (htons m.payload.length ++ (m.payload ++ r)).getD k 0 := by
    intro k
    rw [subframe_eq, List.getD_append_right _ _ _ _ (by rw [addresses_length]; omega),
      addresses_length, Nat.add_sub_cancel_left]
  have h12 := hget 0
  have h13 := hget 1
  rw [lengthField, h12, h13]
  exact be16_htons m.payload_lt

theorem subframe_payload (m : Msdu) (r : List UInt8) :
    ((m.subframe ++ r).drop ethHlen).take m.payload.length = m.payload := by
  have hdrop : (m.subframe ++ r).drop ethHlen = m.payload ++ r := by
    have hsplit : ethHlen = (m.dst.toList ++ m.src.toList).length + 2 := by
      rw [addresses_length]
      rfl
    rw [subframe_eq, hsplit, List.drop_append, List.drop_eq_nil_of_le (Nat.le_add_right _ 2),
      Nat.add_sub_cancel_left]
    rfl
  rw [hdrop, List.take_left]

/-- The first subframe, and what follows it. -/
theorem aggregate_cons (m : Msdu) (ms : List Msdu) :
    ∃ r, aggregate (m :: ms) = m.subframe ++ r ∧ (ms = [] → r = []) ∧
      (ms ≠ [] → ethHlen ≤ r.length) ∧ r.drop (paddingLen m.payload.length) = aggregate ms := by
  cases ms with
  | nil => exact ⟨[], (List.append_nil _).symm, fun _ => rfl, fun h => absurd rfl h, List.drop_nil⟩
  | cons m' ms =>
    refine ⟨m.padding ++ aggregate (m' :: ms), rfl, nofun, fun _ => ?_, ?_⟩
    · have hlen : ethHlen ≤ (aggregate (m' :: ms)).length := by
        cases ms with
        | nil =>
          rw [aggregate, subframe_length]
          exact Nat.le_add_right _ _
        | cons m'' ms =>
          rw [aggregate, List.length_append, subframe_length, Nat.add_assoc]
          exact Nat.le_add_right _ _
      rw [List.length_append]
      omega
    · rw [← m.padding_length, List.drop_left]

theorem ethernet_inj : ethernet e data = ethernet e' data ↔ e = e' := by
  refine ⟨fun h => ?_, fun h => h ▸ rfl⟩
  have hends : ∃ t t', e.dst.toList ++ (e.src.toList ++ t) =
      e'.dst.toList ++ (e'.src.toList ++ t') := by
    rw [ethernet, ethernet] at h
    split_ifs at h
    · exact ⟨_, _, h⟩
    · exact ⟨_, _, h⟩
  obtain ⟨t, t', heq⟩ := hends
  obtain ⟨hdst, heq⟩ := List.append_inj heq (by rw [Vector.length_toList, Vector.length_toList])
  obtain ⟨hsrc, -⟩ := List.append_inj heq (by rw [Vector.length_toList, Vector.length_toList])
  obtain ⟨dst, src⟩ := e
  obtain ⟨dst', src'⟩ := e'
  rw [Ends.mk.injEq]
  exact ⟨Vector.toList_inj.mp hdst, Vector.toList_inj.mp hsrc⟩

/-- The packets from one on. -/
theorem cons_packets {sub : Packet} {b : List UInt8} {bs : List (List UInt8)}
    (rest : Except Fault (List Packet)) :
    (∃ pkts, (rest >>= fun rest => .ok (sub :: rest)) = .ok pkts ∧
      pkts.map Packet.bytes = b :: bs) ↔
    sub.bytes = b ∧ ∃ pkts, rest = .ok pkts ∧ pkts.map Packet.bytes = bs := by
  cases rest with
  | error err =>
    refine iff_of_false (fun ⟨_, h, _⟩ => by cases h) fun ⟨_, _, h, _⟩ => by cases h
  | ok pkts =>
    constructor
    · rintro ⟨_, h, hmap⟩
      rw [← Except.ok.inj h, List.map_cons] at hmap
      obtain ⟨hb, hbs⟩ := List.cons.inj hmap
      exact ⟨hb, pkts, rfl, hbs⟩
    · rintro ⟨hb, _, h, hmap⟩
      obtain rfl := Except.ok.inj h
      exact ⟨_, rfl, by rw [List.map_cons, hb, hmap]⟩

/-- The packets are the MSDUs exactly when these can be handed up. -/
theorem deaggregate_iff {f : List UInt8} {attrib : Ends} {alloc : ℕ → Alloc}
    {pdata nr fuel : ℕ} (hf : f.drop pdata = aggregate ms)
    (hfuel : (f.drop pdata).length < fuel) (hnr : nr + ms.length ≤ maxSubframeCount) :
    (∃ pkts, msduLoop f attrib alloc fuel pdata (f.drop pdata).length nr = .ok pkts ∧
      pkts.map Packet.bytes = ms.map fun m => ethernet m.toEnds m.payload) ↔
    HandedUp attrib alloc nr ms := by
  induction fuel generalizing ms pdata nr with
  | zero => exact absurd hfuel (Nat.not_lt_zero _)
  | succ fuel ih =>
    cases ms with
    | nil =>
      have hend : (f.drop pdata).length ≤ ethHlen := by
        rw [hf]
        exact Nat.zero_le _
      rw [msduLoop_end hend]
      exact iff_of_true ⟨[], rfl, rfl⟩ trivial
    | cons m ms =>
      obtain ⟨r, hr, hlast, hnext, hdrop⟩ := aggregate_cons m ms
      have hbytes : f.drop pdata = m.subframe ++ r := hf.trans hr
      have hlen : (f.drop pdata).length = ethHlen + m.payload.length + r.length := by
        rw [hbytes, List.length_append, subframe_length]
      have hfield : lengthField (f.drop pdata) = m.payload.length := by
        rw [hbytes, lengthField_subframe]
      have hnone : ¬ ∃ pkts, (.ok [] : Except Fault (List Packet)) = .ok pkts ∧
          pkts.map Packet.bytes = (m :: ms).map fun m => ethernet m.toEnds m.payload := by
        rintro ⟨pkts, hpkts, hmap⟩
        rw [← Except.ok.inj hpkts] at hmap
        cases hmap
      rw [HandedUp]
      by_cases hend : (f.drop pdata).length ≤ ethHlen
      · -- the last MSDU has no payload
        have hms : ms = [] := by
          by_contra hne
          have hle := hnext hne
          have hpos : 0 < ethHlen := by decide
          omega
        have hpayload : m.payload = [] := List.length_eq_zero_iff.mp (by omega)
        rw [msduLoop_end hend]
        exact iff_of_false hnone fun h => (h.2.2.1 hms).1 hpayload
      have hlong := Nat.lt_of_not_le hend
      have hin : ethHlen + lengthField (f.drop pdata) ≤ (f.drop pdata).length := by
        rw [hfield, hlen]
        exact Nat.le_add_right _ _
      rw [msduLoop_turn hlong hin]
      by_cases hfail : alloc nr = .fail
      · rw [hfail]
        exact iff_of_false hnone fun h => h.2.1 rfl
      by_cases hclone : alloc nr = .clone → ethHlen + 8 ≤ (f.drop pdata).length
      · have hown : ms = [] → m.payload ≠ [] ∧ (alloc nr = .clone → 8 ≤ m.payload.length) := by
          intro hms
          rw [hlast hms, List.length_nil] at hlen
          refine ⟨List.ne_nil_of_length_pos (by omega), fun h => ?_⟩
          have hle := hclone h
          omega
        have hsub : (packetAt f attrib pdata (lengthField (f.drop pdata))).bytes =
            ethernet attrib m.payload := by
          rw [packetAt, hfield, hbytes, subframe_payload]
        obtain ⟨fuel, rfl⟩ : ∃ k, fuel = k + 1 := ⟨fuel - 1, by omega⟩
        rw [and_iff_right hfail, and_iff_right hown, alloc_ok hin hfail hclone, bind_ok,
          afterSubframe_eq _ hin, List.map_cons]
        rw [List.length_cons] at hnr
        by_cases hmax : maxSubframeCount ≤ nr + 1
        · obtain rfl : ms = [] := List.length_eq_zero_iff.mp (by omega)
          rw [if_pos hmax]
          refine (cons_packets (.ok [])).trans ?_
          rw [hsub, ethernet_inj]
          exact and_congr eq_comm (iff_of_true ⟨[], rfl, rfl⟩ trivial)
        · have hrest : f.drop (pdata + (ethHlen + lengthField (f.drop pdata) +
              paddingLen (lengthField (f.drop pdata)))) = aggregate ms := by
            rw [← List.drop_drop, hfield, hbytes, ← subframe_length, ← List.drop_drop,
              List.drop_left, hdrop]
          have hless : (f.drop (pdata + (ethHlen + lengthField (f.drop pdata) +
              paddingLen (lengthField (f.drop pdata))))).length < fuel + 1 := by
            have hpos : 0 < ethHlen := by decide
            rw [List.length_drop] at hfuel hlong ⊢
            omega
          rw [if_neg hmax, cons_packets, hsub, ethernet_inj, ih hrest hless (by omega)]
          exact and_congr_left fun _ => eq_comm
      · -- a clone reads `eth_type` behind the body
        obtain ⟨hcl, hshort⟩ := Classical.not_imp.mp hclone
        have hms : ms = [] := by
          by_contra hne
          have hle := hnext hne
          have h8 : 8 ≤ ethHlen := by decide
          omega
        rw [hlast hms, List.length_nil] at hlen
        rw [hcl, alloc_beyond (Nat.lt_of_not_le hshort), bind_error]
        refine iff_of_false (fun ⟨_, h, _⟩ => by cases h) fun h => ?_
        have hle := (h.2.2.1 hms).2 rfl
        omega

end aggregated

/-! ## Both -/

theorem deaggregates_iff {ms : List Msdu} {attrib : Ends} {alloc : ℕ → Alloc}
    (hms : ms.length ≤ maxSubframeCount) :
    Deaggregates ms attrib alloc ↔ HandedUp attrib alloc 0 ms := by
  have hf : (aggregate ms).drop 0 = aggregate ms := rfl
  have hnr : 0 + ms.length ≤ maxSubframeCount := by rw [Nat.zero_add]; exact hms
  exact deaggregate_iff hf (Nat.lt_succ_self _) hnr

/-- Up to 64 MSDUs are handed up, and the loop is safe on any bytes, exactly under the two
    conditions. -/
theorem amsdu_iff (attrib : Ends) (alloc : ℕ → Alloc) :
    (∀ ms : List Msdu, ms.length ≤ maxSubframeCount →
      (Deaggregates ms attrib alloc ↔ HandedUp attrib alloc 0 ms)) ∧
    ∀ f, Safe f attrib alloc ↔ ClonesFit alloc 0 f :=
  ⟨fun _ hms => deaggregates_iff hms, fun _ => safe_iff attrib alloc⟩

/-- All bytes are `b`. -/
def addr (b : UInt8) : MacAddr := Vector.replicate 6 b

theorem oneByte_lt : ([7] : List UInt8).length < 65536 := by decide

/-- One byte for this destination. -/
def oneByte (b : UInt8) : Msdu where
  dst := addr b
  src := addr 2
  payload := [7]
  payload_lt := oneByte_lt
  padding := [0]
  padding_length := rfl

theorem oneByte_deaggregates :
    Deaggregates [oneByte 1, oneByte 1] ⟨addr 1, addr 2⟩ fun _ => .copy := by
  refine ((amsdu_iff ⟨addr 1, addr 2⟩ fun _ => .copy).1 [oneByte 1, oneByte 1] (by decide)).mpr ?_
  exact ⟨rfl, nofun, nofun, rfl, nofun, fun _ => ⟨nofun, nofun⟩, trivial⟩

/-- An MSDU for another destination than that of the frame is not handed up with its own, and a
    clone of one byte is read behind the body. -/
theorem oneByte_other_destination :
    ¬ Deaggregates [oneByte 3] ⟨addr 1, addr 2⟩ (fun _ => .copy) ∧
      ¬ Safe (aggregate [oneByte 1]) ⟨addr 1, addr 2⟩ fun _ => .clone := by
  have hlen : (aggregate [oneByte 1]).length = 15 := subframe_length _
  have hfield : lengthField (aggregate [oneByte 1]) = 1 := by
    have hnil := lengthField_subframe (oneByte 1) []
    rw [List.append_nil] at hnil
    exact hnil
  constructor
  · intro h
    have hends := ((deaggregates_iff (by decide)).mp h).1
    have hdst : addr 3 = addr 1 := congrArg Ends.dst hends
    revert hdst
    decide
  · intro h
    have hfit := (safe_iff _ _).mp h
    rw [ClonesFit, hlen, hfield, if_neg (by decide)] at hfit
    have hle := hfit.1 rfl
    revert hle
    decide

end Rtl8821au.Recv.Amsdu
