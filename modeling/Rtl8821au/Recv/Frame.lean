import Mathlib.Tactic.SplitIfs
import Rtl8821au.Lib.Buffer

/-!
# Receive frames

`struct recv_frame` (`rtw_recv.h`) is a cursor `rx_data … rx_tail` into a buffer
`rx_head … rx_end`, together with the attributes parsed from the 802.11 header.
The pointers are offsets from `rx_head`, and `RecvFrame` carries the two facts
that the cursor functions test: the cursor does not cross itself and does not
leave the buffer.

* `recvframePull`, `recvframePut`, `recvframePullTail`: the cursor functions.
* `RecvFrame.data`: the bytes under the cursor.
* `wlanhdrToEthhdr`: the 802.11 header is replaced by an Ethernet header.
-/

namespace Rtl8821au.Recv

open Buffer

abbrev Bytes := List UInt8

abbrev MacAddr := Vector UInt8 6

/-- `_SUCCESS`, `_FAIL` (`osdep_service.h`) and `RTW_RX_HANDLED`. -/
inductive Status where
  | success
  | fail
  | rxHandled
  deriving DecidableEq, Repr

/-- `_NO_PRIVACY_` … `_AES_CMAC_` (`rtw_security.h`). -/
inductive Encryption where
  | noPrivacy
  | wep40
  | tkip
  | reserved
  | aes
  | wep104
  | cmac
  deriving DecidableEq, Repr

/-- The members of `struct rx_pkt_attrib` (`rtw_recv.h`, lines 148–196) that the
    receive path reads; the statistics (`phy_info`, rates) are left out. -/
structure RxPktAttrib where
  hdrlen : ℕ := 24
  toFrDs : ℕ := 0
  amsdu : ℕ := 0
  qos : ℕ := 0
  priority : ℕ := 0
  seqNum : ℕ := 0
  fragNum : ℕ := 0
  mfrag : ℕ := 0
  order : ℕ := 0
  privacy : Bool := false
  bdecrypted : Bool := false
  encrypt : Encryption := .noPrivacy
  ivLen : ℕ := 0
  icvLen : ℕ := 0
  ethType : ℕ := 0
  dst : MacAddr := Vector.replicate 6 0
  src : MacAddr := Vector.replicate 6 0
  ta : MacAddr := Vector.replicate 6 0
  ra : MacAddr := Vector.replicate 6 0
  bssid : MacAddr := Vector.replicate 6 0
  ackPolicy : ℕ := 0
  keyIndex : ℕ := 0
  deriving DecidableEq, Repr

/-- `is_multicast_ether_addr`. -/
def isMulticast (a : MacAddr) : Bool := a[0] &&& 1 != 0

/-- `struct recv_frame`: `addr` is its index in `precv_frame_buf`, `skb` the
    `sk_buff` it owns, `mem` the buffer `rx_head … rx_end`, `rxData` and `rxTail`
    are offsets into it, `psta` is the index of its station in `pstainfo_buf`.
    `preorder_ctrl` points to entry `priority` of `psta->recvreorder_ctrl`. -/
structure RecvFrame where
  addr : ℕ
  skb : Option ℕ
  psta : ℕ := 0
  attrib : RxPktAttrib
  len : ℕ
  mem : Bytes
  rxData : ℕ
  rxTail : ℕ
  data_le_tail : rxData ≤ rxTail
  tail_le_end : rxTail ≤ mem.length
  deriving DecidableEq, Repr

/-! ## Cursor -/

/-- The bytes `rx_data … rx_tail`. -/
def RecvFrame.data (f : RecvFrame) : Bytes := (f.mem.drop f.rxData).take (f.rxTail - f.rxData)

/-- `len` counts the bytes under the cursor. -/
def RecvFrame.LenOk (f : RecvFrame) : Prop := f.len = f.rxTail - f.rxData

@[simp] theorem RecvFrame.data_length (f : RecvFrame) : f.data.length = f.rxTail - f.rxData := by
  have h1 := f.data_le_tail
  have h2 := f.tail_le_end
  simp only [RecvFrame.data, List.length_take, List.length_drop]
  omega

theorem RecvFrame.LenOk.length {f : RecvFrame} (h : f.LenOk) : f.data.length = f.len := by
  rw [RecvFrame.data_length, h]

/-- `recvframe_pull` (`rtw_recv.h`, lines 474–497). -/
def recvframePull (f : RecvFrame) (sz : ℕ) : RecvFrame :=
  if h : f.rxData + sz ≤ f.rxTail then
    { f with rxData := f.rxData + sz, len := f.len - sz, data_le_tail := h }
  else f

/-- `recvframe_put` (lines 499–524). -/
def recvframePut (f : RecvFrame) (sz : ℕ) : RecvFrame :=
  if h : f.rxTail + sz ≤ f.mem.length then
    { f with rxTail := f.rxTail + sz, len := f.len + sz, tail_le_end := h
             data_le_tail := Nat.le_add_right_of_le f.data_le_tail }
  else f

/-- `recvframe_pull_tail` (lines 528–550). -/
def recvframePullTail (f : RecvFrame) (sz : ℕ) : RecvFrame :=
  if h : f.rxData + sz ≤ f.rxTail then
    { f with rxTail := f.rxTail - sz, len := f.len - sz
             data_le_tail := Nat.le_sub_of_add_le h
             tail_le_end := Nat.le_trans (Nat.sub_le _ _) f.tail_le_end }
  else f

/-- `memcpy(rx_head + off, bs, …)`; what falls beyond `rx_end` is outside the
    model. -/
def RecvFrame.memcpy (f : RecvFrame) (off : ℕ) (bs : Bytes) : RecvFrame :=
  { f with mem := overwrite f.mem off bs
           tail_le_end := by rw [overwrite_length]; exact f.tail_le_end }

/-- Byte `k` after `rx_data`. -/
def RecvFrame.byteAt (f : RecvFrame) (k : ℕ) : UInt8 := f.mem.getD (f.rxData + k) 0

/-- The `n` bytes from `rx_data + k`. -/
def RecvFrame.bytesAt (f : RecvFrame) (k n : ℕ) : Bytes :=
  (List.range n).map fun i => f.byteAt (k + i)

section cursor

variable (f : RecvFrame) (sz : ℕ)

@[simp] theorem recvframePull_attrib : (recvframePull f sz).attrib = f.attrib := by
  unfold recvframePull; split <;> rfl

@[simp] theorem recvframePull_addr : (recvframePull f sz).addr = f.addr := by
  unfold recvframePull; split <;> rfl

@[simp] theorem recvframePull_skb : (recvframePull f sz).skb = f.skb := by
  unfold recvframePull; split <;> rfl

@[simp] theorem recvframePut_attrib : (recvframePut f sz).attrib = f.attrib := by
  unfold recvframePut; split <;> rfl

@[simp] theorem recvframePut_addr : (recvframePut f sz).addr = f.addr := by
  unfold recvframePut; split <;> rfl

@[simp] theorem recvframePut_skb : (recvframePut f sz).skb = f.skb := by
  unfold recvframePut; split <;> rfl

@[simp] theorem recvframePullTail_attrib : (recvframePullTail f sz).attrib = f.attrib := by
  unfold recvframePullTail; split <;> rfl

@[simp] theorem recvframePullTail_addr : (recvframePullTail f sz).addr = f.addr := by
  unfold recvframePullTail; split <;> rfl

@[simp] theorem recvframePullTail_skb : (recvframePullTail f sz).skb = f.skb := by
  unfold recvframePullTail; split <;> rfl

@[simp] theorem memcpy_attrib (off : ℕ) (bs : Bytes) : (f.memcpy off bs).attrib = f.attrib := rfl

@[simp] theorem memcpy_addr (off : ℕ) (bs : Bytes) : (f.memcpy off bs).addr = f.addr := rfl

@[simp] theorem memcpy_skb (off : ℕ) (bs : Bytes) : (f.memcpy off bs).skb = f.skb := rfl

@[simp] theorem memcpy_rxData (off : ℕ) (bs : Bytes) : (f.memcpy off bs).rxData = f.rxData := rfl

end cursor

/-! ## What the cursor functions do to the bytes -/

section bytes

variable {f : RecvFrame} {sz : ℕ}

theorem recvframePull_data (h : f.rxData + sz ≤ f.rxTail) :
    (recvframePull f sz).data = f.data.drop sz := by
  rw [recvframePull, dif_pos h]
  simp only [RecvFrame.data, List.drop_take, List.drop_drop]
  congr 1
  omega

theorem recvframePull_lenOk (hf : f.LenOk) : (recvframePull f sz).LenOk := by
  unfold recvframePull
  split_ifs with h
  · simp only [RecvFrame.LenOk] at hf ⊢
    omega
  · exact hf

theorem recvframePullTail_data (h : f.rxData + sz ≤ f.rxTail) :
    (recvframePullTail f sz).data = f.data.take (f.data.length - sz) := by
  rw [RecvFrame.data_length, recvframePullTail, dif_pos h]
  simp only [RecvFrame.data, List.take_take]
  congr 1
  omega

theorem recvframePullTail_lenOk (hf : f.LenOk) : (recvframePullTail f sz).LenOk := by
  unfold recvframePullTail
  split_ifs with h
  · simp only [RecvFrame.LenOk] at hf ⊢
    omega
  · exact hf

theorem RecvFrame.bytesAt_data (hf : f.LenOk) : f.bytesAt 0 f.len = f.data := by
  have h1 := f.data_le_tail
  have h2 := f.tail_le_end
  have h3 : f.len = f.rxTail - f.rxData := hf
  refine List.ext_getElem (by simp [RecvFrame.bytesAt, h3]) ?_
  intro i hi hi'
  simp only [RecvFrame.bytesAt, List.length_map, List.length_range] at hi
  simp only [RecvFrame.bytesAt, RecvFrame.byteAt, RecvFrame.data, List.getElem_map,
    List.getElem_range, List.getElem_take, List.getElem_drop, Nat.zero_add]
  exact List.getD_eq_getElem _ _ (by omega)

/-- Bytes inside the frame. -/
theorem RecvFrame.bytesAt_eq {k n : ℕ} (h : k + n ≤ f.data.length) :
    f.bytesAt k n = (f.data.drop k).take n := by
  have h1 := f.data_le_tail
  have h2 := f.tail_le_end
  rw [RecvFrame.data_length] at h
  refine List.ext_getElem ?_ ?_
  · simp only [RecvFrame.bytesAt, List.length_map, List.length_range, List.length_take,
      List.length_drop, RecvFrame.data_length]
    omega
  · intro i hi hi'
    simp only [RecvFrame.bytesAt, List.length_map, List.length_range] at hi
    simp only [RecvFrame.bytesAt, RecvFrame.byteAt, RecvFrame.data, List.getElem_map,
      List.getElem_range, List.getElem_take, List.getElem_drop]
    exact List.getD_eq_getElem _ _ (by omega)

theorem RecvFrame.mem_eq (f : RecvFrame) :
    f.mem = f.mem.take f.rxData ++ f.data ++ f.mem.drop f.rxTail := by
  have htail : f.mem.take f.rxData ++ f.data = f.mem.take f.rxTail := by
    have h := f.data_le_tail
    have htake : f.mem.take f.rxData = (f.mem.take f.rxTail).take f.rxData := by
      rw [List.take_take, Nat.min_eq_left h]
    rw [RecvFrame.data, List.take_drop, Nat.add_sub_cancel' h, htake, List.take_append_drop]
  rw [htail, List.take_append_drop]

/-- `memcpy` inside the frame replaces what was there. -/
theorem memcpy_data_mid {x m y : Bytes} (bs : Bytes) (hd : f.data = x ++ m ++ y) (hm : m.length = bs.length) :
    (f.memcpy (f.rxData + x.length) bs).data = x ++ bs ++ y := by
  have hpre : (f.mem.take f.rxData).length = f.rxData := by
    have h1 := f.data_le_tail
    have h2 := f.tail_le_end
    rw [List.length_take]
    omega
  have hlen : f.rxTail - f.rxData = (x ++ bs ++ y).length := by
    rw [← RecvFrame.data_length, hd]
    simp only [List.length_append, hm]
  have hmem : overwrite f.mem (f.rxData + x.length) bs =
      (f.mem.take f.rxData ++ x) ++ bs ++ (y ++ f.mem.drop f.rxTail) := by
    conv_lhs => rw [f.mem_eq, hd]
    have hsplit : f.mem.take f.rxData ++ (x ++ m ++ y) ++ f.mem.drop f.rxTail =
        (f.mem.take f.rxData ++ x) ++ m ++ (y ++ f.mem.drop f.rxTail) := by
      simp only [List.append_assoc]
    rw [hsplit]
    exact overwrite_append _ (by rw [List.length_append, hpre]) hm
  rw [RecvFrame.data]
  simp only [RecvFrame.memcpy, hmem, List.append_assoc]
  rw [List.drop_left' hpre, ← List.append_assoc bs, ← List.append_assoc x, hlen,
    ← List.append_assoc x, List.take_left]

/-- `memcpy` over the end of the frame replaces it. -/
theorem memcpy_data {x y bs : Bytes} (hd : f.data = x ++ y) (hy : y.length = bs.length) :
    (f.memcpy (f.rxData + x.length) bs).data = x ++ bs := by
  have h := memcpy_data_mid _ (y := []) (hd.trans (List.append_nil _).symm) hy
  rwa [List.append_nil] at h

/-- `memcpy` to `rx_tail` and `recvframe_put` append. -/
theorem recvframePut_memcpy_data {bs : Bytes} (h : f.rxTail + bs.length ≤ f.mem.length) :
    (recvframePut (f.memcpy f.rxTail bs) bs.length).data = f.data ++ bs := by
  have h1 := f.data_le_tail
  have hlen : (f.memcpy f.rxTail bs).rxTail + bs.length ≤ (f.memcpy f.rxTail bs).mem.length := by
    simpa [RecvFrame.memcpy] using h
  rw [recvframePut, dif_pos hlen]
  simp only [RecvFrame.data, RecvFrame.memcpy, overwrite]
  rw [List.take_of_length_le (by omega : bs.length ≤ f.mem.length - f.rxTail),
    List.drop_append_of_le_length (by rw [List.length_take]; omega), List.drop_take,
    ← List.append_assoc]
  rw [List.take_append_of_le_length (by
    simp only [List.length_append, List.length_take, List.length_drop]
    omega)]
  refine List.take_of_length_le ?_
  simp only [List.length_append, List.length_take, List.length_drop]
  omega

theorem memcpy_lenOk (hf : f.LenOk) (off : ℕ) (bs : Bytes) : (f.memcpy off bs).LenOk := hf

theorem recvframePut_memcpy_lenOk {bs : Bytes} (hf : f.LenOk) (off n : ℕ) :
    (recvframePut (f.memcpy off bs) n).LenOk := by
  have h1 := f.data_le_tail
  unfold recvframePut
  split_ifs with h
  · simp only [RecvFrame.LenOk, RecvFrame.memcpy] at hf ⊢
    omega
  · exact hf

@[simp] theorem recvframePut_rxData : (recvframePut f sz).rxData = f.rxData := by
  unfold recvframePut; split <;> rfl

@[simp] theorem recvframePullTail_rxData : (recvframePullTail f sz).rxData = f.rxData := by
  unfold recvframePullTail; split <;> rfl

@[simp] theorem recvframePut_mem : (recvframePut f sz).mem = f.mem := by
  unfold recvframePut; split <;> rfl

@[simp] theorem recvframePullTail_mem : (recvframePullTail f sz).mem = f.mem := by
  unfold recvframePullTail; split <;> rfl

theorem recvframePullTail_rxTail (h : f.rxData + sz ≤ f.rxTail) :
    (recvframePullTail f sz).rxTail = f.rxTail - sz := by
  rw [recvframePullTail, dif_pos h]

end bytes

/-! ## Ethernet header -/

/-- `rtw_rfc1042_header` (`rtw_recv.h`, line 69). -/
def rtwRfc1042Header : Bytes := [0xaa, 0xaa, 0x03, 0x00, 0x00, 0x00]

/-- `rtw_bridge_tunnel_header` (line 72). -/
def rtwBridgeTunnelHeader : Bytes := [0xaa, 0xaa, 0x03, 0x00, 0x00, 0xf8]

/-- `SNAP_ETH_TYPE_IPX`. -/
def snapEthTypeIpx : Bytes := [0x81, 0x37]

/-- `SNAP_ETH_TYPE_APPLETALK_AARP`. -/
def snapEthTypeAppletalkAarp : Bytes := [0x80, 0xf3]

/-- `SNAP_SIZE`. -/
def snapSize : ℕ := 6

/-- `ETH_ALEN`. -/
def ethAlen : ℕ := 6

/-- `sizeof(struct ethhdr)`. -/
def ethHlen : ℕ := 14

/-- `ETH_P_ARP`, written `0x0806` in the source. -/
def ethPArp : ℕ := 0x0806

/-- A big-endian 16-bit word. -/
def be16 (hi lo : UInt8) : ℕ := hi.toNat * 256 + lo.toNat

/-- Lines 1526–1537: the LLC/SNAP header announces an encapsulated Ethernet
    type. -/
def bsnaphdr (ptr : RecvFrame) : Bool :=
  let psnap := ptr.attrib.hdrlen + ptr.attrib.ivLen
  let psnapType := psnap + snapSize
  (ptr.bytesAt psnap snapSize == rtwRfc1042Header &&
    ptr.bytesAt psnapType 2 != snapEthTypeIpx &&
    ptr.bytesAt psnapType 2 != snapEthTypeAppletalkAarp) ||
  ptr.bytesAt psnap snapSize == rtwBridgeTunnelHeader

/-- `rmv_len` (line 1539). -/
def rmvLen (ptr : RecvFrame) : ℕ :=
  ptr.attrib.hdrlen + ptr.attrib.ivLen + (if bsnaphdr ptr then snapSize else 0)

/-- Lines 1516–1518: the ICV of an encrypted frame goes first. -/
def pullIcv (f : RecvFrame) : RecvFrame :=
  if f.attrib.encrypt ≠ .noPrivacy then recvframePullTail f f.attrib.icvLen else f

/-- Lines 1556–1566: the Ethernet header is written over the end of what was
    removed. Data frames have `hdrlen ≥ 24`, so the length passed to
    `recvframe_pull` is not negative; where it fails and returns `NULL`, nothing
    is written. -/
def writeEthhdr (f : RecvFrame) (rmvLen : ℕ) (bsnaphdr : Bool) : RecvFrame :=
  let len := (f.len + 65536 - rmvLen) % 65536
  let sz := rmvLen - ethHlen + (if bsnaphdr then 2 else 0)
  if f.rxData + sz ≤ f.rxTail then
    let f := recvframePull f sz
    let f := f.memcpy f.rxData f.attrib.dst.toList
    let f := f.memcpy (f.rxData + ethAlen) f.attrib.src.toList
    if bsnaphdr then f
    else f.memcpy (f.rxData + 12) [UInt8.ofNat (len / 256), UInt8.ofNat (len % 256)]
  else f

/-- `pattrib->eth_type = ntohs(…)` (lines 1542–1544). -/
def RecvFrame.setEthType (f : RecvFrame) (ethType : ℕ) : RecvFrame :=
  { f with attrib := { f.attrib with ethType := ethType } }

/-- The Ethernet type that `wlanhdr_to_ethhdr` parses. -/
def parsedEthType (ptr : RecvFrame) : ℕ :=
  be16 (ptr.byteAt (rmvLen ptr)) (ptr.byteAt (rmvLen ptr + 1))

/-- `wlanhdr_to_ethhdr` (`rtw_recv.c`, lines 1501–1570), outside MP mode. It
    returns `_SUCCESS` always. -/
def wlanhdrToEthhdr (precvframe : RecvFrame) : RecvFrame :=
  writeEthhdr ((pullIcv precvframe).setEthType (parsedEthType precvframe)) (rmvLen precvframe)
    (bsnaphdr precvframe)

@[simp] theorem pullIcv_attrib (f : RecvFrame) : (pullIcv f).attrib = f.attrib := by
  unfold pullIcv; split <;> simp

@[simp] theorem pullIcv_addr (f : RecvFrame) : (pullIcv f).addr = f.addr := by
  unfold pullIcv; split <;> simp

@[simp] theorem pullIcv_skb (f : RecvFrame) : (pullIcv f).skb = f.skb := by
  unfold pullIcv; split <;> simp

section writeEthhdr

variable (f : RecvFrame) (n : ℕ) (b : Bool)

@[simp] theorem writeEthhdr_attrib : (writeEthhdr f n b).attrib = f.attrib := by
  unfold writeEthhdr; dsimp only; split_ifs <;> simp

@[simp] theorem writeEthhdr_addr : (writeEthhdr f n b).addr = f.addr := by
  unfold writeEthhdr; dsimp only; split_ifs <;> simp

@[simp] theorem writeEthhdr_skb : (writeEthhdr f n b).skb = f.skb := by
  unfold writeEthhdr; dsimp only; split_ifs <;> simp

end writeEthhdr

/-- `wlanhdr_to_ethhdr` parses the Ethernet type into the attributes and leaves
    the others and the identity of the frame alone. -/
@[simp] theorem wlanhdrToEthhdr_attrib (f : RecvFrame) :
    (wlanhdrToEthhdr f).attrib = { f.attrib with ethType := parsedEthType f } := by
  simp [wlanhdrToEthhdr, RecvFrame.setEthType]

@[simp] theorem wlanhdrToEthhdr_addr (f : RecvFrame) : (wlanhdrToEthhdr f).addr = f.addr := by
  simp [wlanhdrToEthhdr, RecvFrame.setEthType]

@[simp] theorem wlanhdrToEthhdr_skb (f : RecvFrame) : (wlanhdrToEthhdr f).skb = f.skb := by
  simp [wlanhdrToEthhdr, RecvFrame.setEthType]

/-! ### The bytes it leaves -/

/-- How much `wlanhdr_to_ethhdr` takes off the end. -/
def icvTail (f : RecvFrame) : ℕ := if f.attrib.encrypt ≠ .noPrivacy then f.attrib.icvLen else 0

theorem pullIcv_data {f : RecvFrame} (h : icvTail f ≤ f.data.length) :
    (pullIcv f).data = f.data.take (f.data.length - icvTail f) := by
  have h1 := f.data_le_tail
  rw [RecvFrame.data_length] at h
  unfold pullIcv icvTail at *
  split_ifs at h ⊢
  · exact recvframePullTail_data (by omega)
  · rw [Nat.sub_zero, List.take_length]

theorem pullIcv_lenOk {f : RecvFrame} (h : f.LenOk) : (pullIcv f).LenOk := by
  unfold pullIcv
  split
  · exact recvframePullTail_lenOk h
  · exact h

theorem writeEthhdr_lenOk {f : RecvFrame} (h : f.LenOk) (n : ℕ) (b : Bool) :
    (writeEthhdr f n b).LenOk := by
  have hpull : ∀ sz, (recvframePull f sz).LenOk := fun sz => recvframePull_lenOk h
  unfold writeEthhdr
  dsimp only
  cases b with
  | true =>
    rw [if_pos rfl, if_pos rfl]
    split
    · exact memcpy_lenOk (memcpy_lenOk (hpull _) _ _) _ _
    · exact h
  | false =>
    rw [if_neg Bool.false_ne_true, if_neg Bool.false_ne_true]
    split
    · exact memcpy_lenOk (memcpy_lenOk (memcpy_lenOk (hpull _) _ _) _ _) _ _
    · exact h

theorem wlanhdrToEthhdr_lenOk {f : RecvFrame} (h : f.LenOk) : (wlanhdrToEthhdr f).LenOk :=
  writeEthhdr_lenOk (f := (pullIcv f).setEthType (parsedEthType f)) (pullIcv_lenOk h) _ _

/-- The two addresses, written over the first twelve bytes. -/
theorem memcpy_addresses {g : RecvFrame} {x z : Bytes} (hd : g.data = x ++ z) (hx : x.length = 12) :
    ((g.memcpy g.rxData g.attrib.dst.toList).memcpy (g.rxData + ethAlen)
      g.attrib.src.toList).data = g.attrib.dst.toList ++ g.attrib.src.toList ++ z := by
  have hdst : g.attrib.dst.toList.length = 6 := Vector.length_toList
  have hsrc : g.attrib.src.toList.length = 6 := Vector.length_toList
  have h1 : (g.memcpy g.rxData g.attrib.dst.toList).data =
      g.attrib.dst.toList ++ x.drop 6 ++ z := by
    have hsplit : g.data = [] ++ x.take 6 ++ (x.drop 6 ++ z) := by
      rw [List.nil_append, ← List.append_assoc, List.take_append_drop, hd]
    have h := memcpy_data_mid g.attrib.dst.toList hsplit
      (by rw [List.length_take, hx, hdst]; rfl)
    rwa [List.nil_append, ← List.append_assoc] at h
  have h2 := memcpy_data_mid g.attrib.src.toList h1
    (by rw [List.length_drop, hx, hsrc])
  rwa [hdst] at h2

/-- The header that takes the place of the `rmvLen` bytes `w`. -/
theorem writeEthhdr_data {f : RecvFrame} {w rest : Bytes} {rmvLen : ℕ} (hlen : f.LenOk)
    (hd : f.data = w ++ rest) (hw : w.length = rmvLen) (hrmv : 14 ≤ rmvLen) (b : Bool) :
    (writeEthhdr f rmvLen b).data =
      f.attrib.dst.toList ++ f.attrib.src.toList ++
        (if b then [] else
          [UInt8.ofNat (rest.length % 65536 / 256), UInt8.ofNat (rest.length % 65536 % 256)]) ++
        rest := by
  have hdata : w.length + rest.length = f.rxTail - f.rxData := by
    rw [← f.data_length, hd, List.length_append]
  have hle := f.data_le_tail
  have hl : (f.len + 65536 - rmvLen) % 65536 = rest.length % 65536 := by
    have hflen : f.len = w.length + rest.length := by
      rw [← hlen.length, hd, List.length_append]
    rw [hflen, hw, show rmvLen + rest.length + 65536 - rmvLen = rest.length + 65536 by omega,
      Nat.add_mod_right]
  have hpull : ∀ sz ≤ rmvLen, (recvframePull f sz).data = w.drop sz ++ rest := by
    intro sz hsz
    rw [recvframePull_data (by omega), hd, List.drop_append_of_le_length (by omega)]
  unfold writeEthhdr
  simp only [hl, memcpy_attrib, memcpy_rxData, recvframePull_attrib]
  cases b with
  | true =>
    rw [if_pos rfl, if_pos rfl, if_pos rfl, if_pos (by unfold ethHlen; omega), List.append_nil]
    have hx : (w.drop (rmvLen - ethHlen + 2)).length = 12 := by
      rw [List.length_drop, hw, ethHlen]
      omega
    have h := memcpy_addresses (hpull (rmvLen - ethHlen + 2) (by unfold ethHlen; omega)) hx
    rwa [recvframePull_attrib] at h
  | false =>
    rw [if_neg Bool.false_ne_true, if_neg Bool.false_ne_true, if_neg Bool.false_ne_true,
      if_pos (by unfold ethHlen; omega), Nat.add_zero]
    set v := w.drop (rmvLen - ethHlen) with hv
    have hvlen : v.length = 14 := by
      rw [hv, List.length_drop, hw, ethHlen]
      omega
    have hsplit : (recvframePull f (rmvLen - ethHlen)).data = v.take 12 ++ (v.drop 12 ++ rest) := by
      rw [← List.append_assoc, List.take_append_drop]
      exact hpull _ (by unfold ethHlen; omega)
    have h := memcpy_addresses hsplit (by rw [List.length_take, hvlen]; rfl)
    rw [recvframePull_attrib, ← List.append_assoc] at h
    have h' := memcpy_data_mid
      [UInt8.ofNat (rest.length % 65536 / 256), UInt8.ofNat (rest.length % 65536 % 256)] h
      (by rw [List.length_drop, hvlen]; rfl)
    rw [List.length_append, Vector.length_toList, Vector.length_toList] at h'
    exact h'

/-- `wlanhdr_to_ethhdr` on a header, a body and an ICV: the addresses, then the body
    behind its SNAP header, or its length and the whole body. -/
theorem wlanhdrToEthhdr_data {f : RecvFrame} {hdr body icv : Bytes} (hlen : f.LenOk)
    (hd : f.data = hdr ++ body ++ icv) (hh : hdr.length = f.attrib.hdrlen + f.attrib.ivLen)
    (hicv : icv.length = icvTail f) (h14 : 14 ≤ hdr.length)
    (hb : bsnaphdr f = true → 6 ≤ body.length) :
    (wlanhdrToEthhdr f).data =
      f.attrib.dst.toList ++ f.attrib.src.toList ++
        if bsnaphdr f then body.drop 6
        else UInt8.ofNat (body.length % 65536 / 256) :: UInt8.ofNat (body.length % 65536 % 256) ::
          body := by
  set g := (pullIcv f).setEthType (parsedEthType f) with hg
  have hgdata : g.data = hdr ++ body := by
    have htail : icvTail f ≤ f.data.length := by
      rw [hd, List.length_append, hicv]
      omega
    have hpull := pullIcv_data htail
    rw [hd, List.length_append, hicv, Nat.add_sub_cancel, List.take_left] at hpull
    exact hpull
  have hglen : g.LenOk := pullIcv_lenOk hlen
  have hdst : g.attrib.dst = f.attrib.dst := by simp [hg, RecvFrame.setEthType]
  have hsrc : g.attrib.src = f.attrib.src := by simp [hg, RecvFrame.setEthType]
  unfold wlanhdrToEthhdr rmvLen
  rw [← hg]
  cases hsnap : bsnaphdr f with
  | true =>
    have hb6 := hb hsnap
    have hsplit : g.data = (hdr ++ body.take 6) ++ body.drop 6 := by
      rw [List.append_assoc, List.take_append_drop, hgdata]
    have hw : (hdr ++ body.take 6).length = f.attrib.hdrlen + f.attrib.ivLen + snapSize := by
      rw [List.length_append, List.length_take, hh, Nat.min_eq_left hb6]
      rfl
    have h := writeEthhdr_data hglen hsplit hw (by unfold snapSize; omega) true
    rw [if_pos rfl, List.append_nil, hdst, hsrc] at h
    exact h
  | false =>
    have h := writeEthhdr_data hglen hgdata hh (by omega) false
    rw [if_neg Bool.false_ne_true, hdst, hsrc, List.append_assoc] at h
    exact h

/-- Bytes inside the frame. -/
theorem RecvFrame.byteAt_eq {f : RecvFrame} {k : ℕ} (h : k < f.data.length) :
    f.byteAt k = f.data.getD k 0 := by
  have h1 := f.data_le_tail
  have h2 := f.tail_le_end
  have hk := h
  rw [RecvFrame.data_length] at hk
  rw [List.getD_eq_getElem _ _ h]
  simp only [RecvFrame.byteAt, RecvFrame.data, List.getElem_take, List.getElem_drop]
  exact List.getD_eq_getElem _ _ (by omega)

/-- The type field of an Ethernet frame. -/
def ethProto (skb : Bytes) : ℕ := be16 (skb.getD 12 0) (skb.getD 13 0)

/-- Behind a SNAP header, the type field is the parsed type. -/
theorem wlanhdrToEthhdr_ethProto {f : RecvFrame} (hlen : f.LenOk) (hsnap : bsnaphdr f = true)
    (h14 : 14 ≤ f.attrib.hdrlen + f.attrib.ivLen)
    (hlong : f.attrib.hdrlen + f.attrib.ivLen + 8 + icvTail f ≤ f.data.length) :
    ethProto (wlanhdrToEthhdr f).data = parsedEthType f := by
  set n := f.attrib.hdrlen + f.attrib.ivLen with hn
  set m := f.data.length - icvTail f with hm
  have hd : f.data = f.data.take n ++ (f.data.take m).drop n ++ f.data.drop m := by
    have htake : f.data.take n = (f.data.take m).take n := by
      rw [List.take_take, Nat.min_eq_left (by omega)]
    rw [htake, List.take_append_drop, List.take_append_drop]
  have hhdr : (f.data.take n).length = n := by
    rw [List.length_take]
    omega
  have hbody : ((f.data.take m).drop n).length = m - n := by
    rw [List.length_drop, List.length_take]
    omega
  have hdata := wlanhdrToEthhdr_data hlen hd hhdr (by rw [List.length_drop]; omega) (by omega)
    fun _ => by omega
  have haddr : (f.attrib.dst.toList ++ f.attrib.src.toList).length = 12 := by simp
  have hbyte : ∀ k < 2, (wlanhdrToEthhdr f).data.getD (12 + k) 0 = f.byteAt (rmvLen f + k) := by
    intro k hk
    rw [hdata, hsnap, if_pos rfl, getD_append_right (by omega), haddr, rmvLen, hsnap, if_pos rfl,
      RecvFrame.byteAt_eq (by unfold snapSize; omega)]
    simp only [List.getD_eq_getElem?_getD, List.getElem?_drop, snapSize, ← hn]
    rw [List.getElem?_take_of_lt (by omega)]
    congr 2
    omega
  have h0 := hbyte 0 (by omega)
  have h1 := hbyte 1 (by omega)
  rw [ethProto, parsedEthType, h0, h1, Nat.add_zero]

end Rtl8821au.Recv
