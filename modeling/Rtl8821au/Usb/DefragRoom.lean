import Rtl8821au.Recv.Defrag
import Rtl8821au.Usb.RecvAgg

/-!
# Room for fragments

`recvframe_defrag` (`rtw_recv.c`, lines 1687–1769) copies the bodies of the fragments behind the
first one. The copy is made before `recvframe_put` compares with `rx_end`, and the results of
`recvframe_pull` and `recvframe_pull_tail` are not looked at.

* `copyOk_iff`, `appendFragment_tail`: one copy.
* `defrag_inside_iff`: when all copies end before `rx_end` of the first fragment and take what is
  left of a fragment.
* `received_room`: where `rx_end` of a received fragment is.
-/

namespace Rtl8821au.Usb

open Buffer Recv

/-! ## The copies -/

/-- What the copy of a fragment takes: `pnextrframe` after `recvframe_pull`. -/
def pulled (next : RecvFrame) : RecvFrame :=
  recvframePull next ((next.attrib.hdrlen + next.attrib.ivLen) % 256)

/-- Where it goes: `prframe` after `recvframe_pull_tail`. -/
def icvPulled (pr : RecvFrame) : RecvFrame := recvframePullTail pr pr.attrib.icvLen

/-- The frame and the fragment at each `memcpy` of the loop; `curfragnum` is a `uint8_t`. -/
def copies : ℕ → RecvFrame → List RecvFrame → List (RecvFrame × RecvFrame)
  | _, _, [] => []
  | curfragnum, pr, next :: q =>
    if curfragnum ≠ next.attrib.fragNum then []
    else (pr, next) :: copies ((curfragnum + 1) % 256) (appendFragment pr next) q

/-- The bytes are written from `rx_tail` on and end before `rx_end`, and they are what is left of
    the fragment without its header and its IV. -/
structure CopyOk (pr next : RecvFrame) : Prop where
  inside : (icvPulled pr).rxTail + (pulled next).len ≤ pr.mem.length
  whole : next.attrib.hdrlen + next.attrib.ivLen + (pulled next).len = next.len

/-- All copies of `recvframe_defrag` are so. -/
def DefragInside : List RecvFrame → Prop
  | [] => True
  | pr :: q => pr.attrib.fragNum = 0 → ∀ c ∈ copies 1 pr q, CopyOk c.1 c.2

/-! ## When they are -/

/-- The tail without the ICV, if there are so many bytes. -/
def cutTail (rxData tail icvLen : ℕ) : ℕ := if rxData + icvLen ≤ tail then tail - icvLen else tail

/-- What is left of a fragment. -/
def bodyLen (next : RecvFrame) : ℕ := next.len - (next.attrib.hdrlen + next.attrib.ivLen)

/-- Each fragment that is appended, up to the first one whose number does not follow, has its
    header and its IV, and ends before `rxEnd`. -/
def Room (rxData rxEnd : ℕ) : ℕ → ℕ → ℕ → List RecvFrame → Prop
  | _, _, _, [] => True
  | tail, icvLen, curfragnum, next :: q =>
    curfragnum = next.attrib.fragNum →
      next.attrib.hdrlen + next.attrib.ivLen < 256 ∧
      next.attrib.hdrlen + next.attrib.ivLen ≤ next.len ∧
      cutTail rxData tail icvLen + bodyLen next ≤ rxEnd ∧
      Room rxData rxEnd (cutTail rxData tail icvLen + bodyLen next) next.attrib.icvLen
        ((curfragnum + 1) % 256) q

/-- There is room in the first fragment for the others. -/
def DefragFits : List RecvFrame → Prop
  | [] => True
  | pr :: q =>
    pr.attrib.fragNum = 0 → Room pr.rxData pr.mem.length pr.rxTail pr.attrib.icvLen 1 q

/-! ## One copy -/

section copy

variable {pr next : RecvFrame}

theorem icvPulled_rxTail (pr : RecvFrame) :
    (icvPulled pr).rxTail = cutTail pr.rxData pr.rxTail pr.attrib.icvLen := by
  rw [icvPulled, recvframePullTail, cutTail]
  split_ifs
  · rfl
  · rfl

/-- `recvframe_pull` takes the header and the IV off, if they are there. -/
theorem pulled_len (h : next.LenOk)
    (hle : (next.attrib.hdrlen + next.attrib.ivLen) % 256 ≤ next.len) :
    (pulled next).len = next.len - (next.attrib.hdrlen + next.attrib.ivLen) % 256 := by
  have hlen : next.len = next.rxTail - next.rxData := h
  have hdata := next.data_le_tail
  rw [pulled, recvframePull, dif_pos (by omega)]

/-- If they are not, nothing is taken off. -/
theorem pulled_len_short (h : next.LenOk)
    (hlt : next.len < (next.attrib.hdrlen + next.attrib.ivLen) % 256) :
    (pulled next).len = next.len := by
  have hlen : next.len = next.rxTail - next.rxData := h
  rw [pulled, recvframePull, dif_neg (by omega)]

theorem whole_iff (h : next.LenOk) :
    next.attrib.hdrlen + next.attrib.ivLen + (pulled next).len = next.len ↔
      next.attrib.hdrlen + next.attrib.ivLen < 256 ∧
        next.attrib.hdrlen + next.attrib.ivLen ≤ next.len := by
  rcases Nat.lt_or_ge next.len ((next.attrib.hdrlen + next.attrib.ivLen) % 256) with hlt | hle
  · rw [pulled_len_short h hlt]
    omega
  · rw [pulled_len h hle]
    omega

theorem copyOk_iff (h : next.LenOk) :
    CopyOk pr next ↔ next.attrib.hdrlen + next.attrib.ivLen < 256 ∧
      next.attrib.hdrlen + next.attrib.ivLen ≤ next.len ∧
      cutTail pr.rxData pr.rxTail pr.attrib.icvLen + bodyLen next ≤ pr.mem.length := by
  have hok : CopyOk pr next ↔ (icvPulled pr).rxTail + (pulled next).len ≤ pr.mem.length ∧
      next.attrib.hdrlen + next.attrib.ivLen + (pulled next).len = next.len :=
    ⟨fun ⟨h₁, h₂⟩ => ⟨h₁, h₂⟩, fun ⟨h₁, h₂⟩ => ⟨h₁, h₂⟩⟩
  rw [hok, icvPulled_rxTail, ← and_assoc, ← whole_iff h, and_comm]
  refine and_congr_right fun hwhole => ?_
  rw [bodyLen]
  omega

theorem setIcvLen_rxTail (f : RecvFrame) (icvLen : ℕ) :
    (f.setIcvLen icvLen).rxTail = f.rxTail := rfl

theorem recvframePut_rxTail {f : RecvFrame} {sz : ℕ} (h : f.rxTail + sz ≤ f.mem.length) :
    (recvframePut f sz).rxTail = f.rxTail + sz := by
  rw [recvframePut, dif_pos h]

/-- The frame after a copy that ends before `rx_end`. -/
theorem appendFragment_tail (h : CopyOk pr next) :
    (appendFragment pr next).rxTail =
        cutTail pr.rxData pr.rxTail pr.attrib.icvLen + bodyLen next ∧
      (appendFragment pr next).rxData = pr.rxData ∧
      (appendFragment pr next).mem.length = pr.mem.length ∧
      (appendFragment pr next).attrib.icvLen = next.attrib.icvLen := by
  obtain ⟨hin, hwhole⟩ := h
  have hbody : (pulled next).len = bodyLen next := by
    rw [bodyLen]
    omega
  have hput : appendFragment pr next =
      (recvframePut ((icvPulled pr).memcpy (icvPulled pr).rxTail
        ((pulled next).bytesAt 0 (pulled next).len)) (pulled next).len).setIcvLen
          next.attrib.icvLen := rfl
  have hmem : ((icvPulled pr).memcpy (icvPulled pr).rxTail
      ((pulled next).bytesAt 0 (pulled next).len)).mem.length = pr.mem.length := by
    simp [RecvFrame.memcpy, icvPulled]
  rw [← icvPulled_rxTail, ← hbody, hput]
  refine ⟨?_, ?_, ?_, rfl⟩
  · rw [setIcvLen_rxTail, recvframePut_rxTail]
    · rfl
    · rw [hmem]
      exact hin
  · simp [RecvFrame.setIcvLen, icvPulled]
  · simp only [RecvFrame.setIcvLen, recvframePut_mem]
    exact hmem

end copy

/-! ## All copies -/

/-- The copies from a frame on are inside if there is room from its tail on. -/
theorem copies_iff {curfragnum : ℕ} {pr : RecvFrame} {q : List RecvFrame}
    (h : ∀ f ∈ q, f.LenOk) :
    (∀ c ∈ copies curfragnum pr q, CopyOk c.1 c.2) ↔
      Room pr.rxData pr.mem.length pr.rxTail pr.attrib.icvLen curfragnum q := by
  induction q generalizing curfragnum pr with
  | nil => simp [copies, Room]
  | cons next q ih =>
    have hq : ∀ f ∈ q, f.LenOk := fun f hf => h f (List.mem_cons_of_mem next hf)
    have hnext : next.LenOk := h next (List.mem_cons_self ..)
    rw [copies, Room]
    by_cases hnum : curfragnum = next.attrib.fragNum
    · rw [if_neg (not_not_intro hnum), List.forall_mem_cons, copyOk_iff hnext, ih hq]
      constructor
      · intro ⟨hcopy, hrest⟩ _
        obtain ⟨htail, hdata, hlen, hicv⟩ := appendFragment_tail ((copyOk_iff hnext).mpr hcopy)
        rw [htail, hdata, hlen, hicv] at hrest
        exact ⟨hcopy.1, hcopy.2.1, hcopy.2.2, hrest⟩
      · intro hroom
        obtain ⟨hoff, hle, hin, hrest⟩ := hroom hnum
        have hcopy : CopyOk pr next := (copyOk_iff hnext).mpr ⟨hoff, hle, hin⟩
        obtain ⟨htail, hdata, hlen, hicv⟩ := appendFragment_tail hcopy
        rw [htail, hdata, hlen, hicv]
        exact ⟨⟨hoff, hle, hin⟩, hrest⟩
    · rw [if_pos hnum]
      exact ⟨fun _ heq => absurd heq hnum, fun _ _ hc => absurd hc List.not_mem_nil⟩

/-- The copies of `recvframe_defrag` stay between `rx_tail` and `rx_end` and take true lengths
    exactly if there is room in the first fragment for what the others carry. -/
theorem defrag_inside_iff (frames : List RecvFrame) (h : ∀ f ∈ frames, f.LenOk) :
    DefragInside frames ↔ DefragFits frames := by
  cases frames with
  | nil => exact Iff.rfl
  | cons pr q =>
    have hq : ∀ f ∈ q, f.LenOk := fun f hf => h f (List.mem_cons_of_mem pr hf)
    rw [DefragInside, DefragFits, copies_iff hq]

/-! ## Received fragments -/

/-- What `validate_recv_frame` and the decryption note of a frame. -/
structure Lengths where
  hdrlen : ℕ
  ivLen : ℕ := 0
  icvLen : ℕ := 0

/-- A frame that `recvbuf2recvframe` has copied from the transfer, as it comes to
    `recvframe_chk_defrag`. -/
def received (env : UsbEnv) (n addr : ℕ) (st : RxStatus) (pdata : Bytes) (l : Lengths) :
    Option RecvFrame :=
  (rtwOsAllocRecvframe env n addr st pdata).map fun f =>
    { recvframePut f st.pktLen with
      attrib := { st.attrib with hdrlen := l.hdrlen, ivLen := l.ivLen, icvLen := l.icvLen } }

section received

variable {env : UsbEnv} {n addr : ℕ} {st : RxStatus} {pdata : Bytes} {l : Lengths}
  {f : RecvFrame}

/-- The empty frame that `rtw_os_alloc_recvframe` makes. -/
theorem rtwOsAllocRecvframe_room (h : rtwOsAllocRecvframe env n addr st pdata = some f) :
    f.mem.length = allocSz st ∧ f.len = 0 ∧ f.rxTail = f.rxData ∧ f.rxData ≤ 14 ∧
      f.rxData + st.pktLen ≤ allocSz st := by
  rw [rtwOsAllocRecvframe] at h
  split at h
  · next m _ =>
    have hle := skbReserve_le m st
    have hreserve : skbReserve m st.attrib ≤ 14 := by
      unfold skbReserve
      split_ifs <;> omega
    rw [← Option.some.inj h]
    exact ⟨by simp [RecvFrame.memcpy, skbFrame], rfl, rfl, hreserve, hle⟩
  · have hle : st.pktLen ≤ allocSz st := by
      unfold allocSz
      split_ifs <;> omega
    split_ifs at h
    rw [← Option.some.inj h]
    refine ⟨?_, rfl, rfl, Nat.zero_le _, ?_⟩
    · simp only [List.length_take, List.length_append, List.length_map, List.length_range]
      omega
    · show 0 + st.pktLen ≤ allocSz st
      omega

/-- The buffer was made for this frame alone, a first fragment's for 1664 bytes at least. -/
theorem received_room (h : received env n addr st pdata l = some f) :
    f.mem.length = allocSz st ∧ f.len = st.pktLen ∧ f.rxTail = f.rxData + st.pktLen ∧
      f.rxData ≤ 14 := by
  obtain ⟨g, hg, rfl⟩ := Option.map_eq_some_iff.mp h
  obtain ⟨hmem, hlen, htail, hdata, hle⟩ := rtwOsAllocRecvframe_room hg
  have hput : g.rxTail + st.pktLen ≤ g.mem.length := by omega
  rw [recvframePut, dif_pos hput]
  refine ⟨hmem, ?_, ?_, hdata⟩
  · show g.len + st.pktLen = st.pktLen
    omega
  · show g.rxTail + st.pktLen = g.rxData + st.pktLen
    omega

theorem received_lenOk (h : received env n addr st pdata l = some f) : f.LenOk := by
  obtain ⟨-, hlen, htail, -⟩ := received_room h
  have hdata := f.data_le_tail
  show f.len = f.rxTail - f.rxData
  omega

theorem received_attrib (h : received env n addr st pdata l = some f) :
    f.attrib =
      { st.attrib with hdrlen := l.hdrlen, ivLen := l.ivLen, icvLen := l.icvLen } := by
  obtain ⟨g, -, rfl⟩ := Option.map_eq_some_iff.mp h
  rfl

end received

/-! ## Two fragments -/

/-- The status of a fragment of `len` bytes without protection. -/
def fragmentStatus (len mfrag fragNum : ℕ) : RxStatus where
  pktLen := len
  crcErr := false
  icvErr := false
  drvinfoSz := 0
  shiftSz := 0
  physt := false
  mdata := 0
  pktRptType := .normalRx
  attrib := { hdrlen := 0, mfrag, fragNum }

/-- A data frame from the distribution system: a header of 24 bytes, and zeros up to `len`. -/
def fragmentBytes (len : ℕ) (fc seqCtl : UInt8) : Bytes :=
  [0x08, fc, 0, 0] ++ [2, 0, 0, 0, 0, 0] ++ [2, 0, 0, 0, 0, 1] ++ [2, 0, 0, 0, 0, 2] ++
    [seqCtl, 0] ++ List.replicate (len - 24) 0

/-- The fragments of 1600 bytes and of `len` bytes, as they are received. -/
def twoFragments (len : ℕ) : List RecvFrame :=
  (received quietUsb 0 0 (fragmentStatus 1600 1 0) (fragmentBytes 1600 0x06 0)
      { hdrlen := 24 }).toList ++
    (received quietUsb 1 1 (fragmentStatus len 0 1) (fragmentBytes len 0x02 1)
      { hdrlen := 24 }).toList

theorem twoFragments_received (len : ℕ) :
    ∃ f₁ f₂, twoFragments len = [f₁, f₂] ∧
      received quietUsb 0 0 (fragmentStatus 1600 1 0) (fragmentBytes 1600 0x06 0)
        { hdrlen := 24 } = some f₁ ∧
      received quietUsb 1 1 (fragmentStatus len 0 1) (fragmentBytes len 0x02 1)
        { hdrlen := 24 } = some f₂ := by
  have hsome : ∀ n addr st pdata l, (received quietUsb n addr st pdata l).isSome :=
    fun _ _ _ _ _ => rfl
  obtain ⟨f₁, h₁⟩ := Option.isSome_iff_exists.mp
    (hsome 0 0 (fragmentStatus 1600 1 0) (fragmentBytes 1600 0x06 0) { hdrlen := 24 })
  obtain ⟨f₂, h₂⟩ := Option.isSome_iff_exists.mp
    (hsome 1 1 (fragmentStatus len 0 1) (fragmentBytes len 0x02 1) { hdrlen := 24 })
  refine ⟨f₁, f₂, ?_, h₁, h₂⟩
  rw [twoFragments, h₁, h₂]
  rfl

theorem twoFragments_lenOk (len : ℕ) : ∀ f ∈ twoFragments len, f.LenOk := by
  obtain ⟨f₁, f₂, heq, h₁, h₂⟩ := twoFragments_received len
  rw [heq]
  simp [received_lenOk h₁, received_lenOk h₂]

/-- The room behind the first fragment. -/
theorem twoFragments_fits (len : ℕ) :
    ∃ tail, 1600 ≤ tail ∧ tail ≤ 1614 ∧
      (DefragFits (twoFragments len) ↔ 24 ≤ len ∧ tail + (len - 24) ≤ 1664) := by
  obtain ⟨f₁, f₂, heq, h₁, h₂⟩ := twoFragments_received len
  obtain ⟨hmem, -, htail, hdata⟩ := received_room h₁
  obtain ⟨-, hlen, -, -⟩ := received_room h₂
  have hmem : f₁.mem.length = 1664 := hmem
  have htail : f₁.rxTail = f₁.rxData + 1600 := htail
  have hlen : f₂.len = len := hlen
  have hcut : cutTail f₁.rxData f₁.rxTail 0 = f₁.rxTail := by
    unfold cutTail
    split_ifs <;> omega
  refine ⟨f₁.rxTail, by omega, by omega, ?_⟩
  rw [heq, DefragFits, received_attrib h₁]
  simp only [Room, received_attrib h₂, fragmentStatus, hmem, hcut, bodyLen, hlen,
    forall_const, Nat.add_zero, and_true]
  exact and_iff_right (by omega)

/-- A short second fragment. -/
theorem shortSecond_inside : DefragInside (twoFragments 60) := by
  obtain ⟨tail, -, hhi, hfits⟩ := twoFragments_fits 60
  apply (defrag_inside_iff _ (twoFragments_lenOk 60)).mpr
  apply hfits.mpr
  omega

/-- A second fragment with 100 bytes behind its header. -/
theorem longSecond_beyond : ¬DefragInside (twoFragments 124) := by
  obtain ⟨tail, hlo, -, hfits⟩ := twoFragments_fits 124
  obtain ⟨f₁, f₂, heq, -, -⟩ := twoFragments_received 124
  have hq : ∀ f ∈ [f₂], f.LenOk := by
    intro f hf
    apply twoFragments_lenOk 124
    rw [heq]
    exact List.mem_cons_of_mem f₁ hf
  rw [heq, DefragFits] at hfits
  rw [heq, DefragInside, copies_iff hq, hfits]
  omega

end Rtl8821au.Usb
