import Rtl8821au.Lib.Run
import Rtl8821au.Security.Michael

/-!
# Defragmentation

`recvframe_chk_defrag`, `recvframe_defrag` and `recvframe_chkmic` (`rtw_recv.c`)
on the `defrag_q` of one station.

Results:
* `appendFragment_data`: one round of the loop replaces the ICV by the body of
  the next fragment.
* `defrag_reassembles`: a train of fragments in order becomes one frame.
* `defrag_rejects`: a train with a gap becomes none, and everything is released.
* `chkDefrag_no_mixing`: when the fragments that continue a queue belong to its
  MPDU, no frame is assembled from pieces of two.
-/

namespace Rtl8821au.Recv

open Run Security

/-! ## Michael check -/

/-- What `recvframe_chkmic` reads besides the frame. `rxmickey` is
    `dot11tkiprxmickey` of the station that `rtw_get_stainfo` finds. For
    group-addressed frames the pointer `mickey` is used without having been set:
    `mickey` is whatever it points to. -/
structure MicContext where
  rxmickey : MacAddr → Option Bytes
  mickey : Bytes
  binstallGrpkey : Bool
  bcheckGrpkey : Bool
  keyIndex : ℕ

/-- What `recvframe_chkmic` returns and does: `reported` tells whether
    `rtw_handle_tkip_mic_err` was called. -/
structure ChkmicResult where
  status : Status
  frame : RecvFrame
  bcheckGrpkey : Bool
  reported : Bool := false

/-- `recvframe_chkmic` (`rtw_recv.c`, lines 373–483). A frame shorter than its
    trailers, for which `datalen` wraps, is outside the model. -/
def recvframeChkmic (sec : MicContext) (f : RecvFrame) : ChkmicResult :=
  if f.attrib.encrypt ≠ .tkip then
    { status := .success, frame := f, bcheckGrpkey := sec.bcheckGrpkey }
  else
    match sec.rxmickey f.attrib.ta with
    | none =>
      { status := .success, frame := recvframePullTail f 8, bcheckGrpkey := sec.bcheckGrpkey }
    | some rxmickey =>
      let mcast := isMulticast f.attrib.ra
      if mcast && !sec.binstallGrpkey then
        { status := .fail, frame := f, bcheckGrpkey := sec.bcheckGrpkey }
      else
        let mickey := if mcast then sec.mickey else rxmickey
        let datalen := f.len - f.attrib.hdrlen - f.attrib.ivLen - f.attrib.icvLen - 8
        let payload := f.attrib.hdrlen + f.attrib.ivLen
        let miccode := rtwSeccalctkipmic mickey (f.bytesAt 0 30) (f.bytesAt payload datalen)
          (UInt8.ofNat f.attrib.priority)
        if miccode ≠ f.bytesAt (payload + datalen) 8 then
          let brptMicerror := !(mcast && f.attrib.keyIndex != sec.keyIndex)
          { status := .fail, frame := recvframePullTail f 8, bcheckGrpkey := sec.bcheckGrpkey
            reported := f.attrib.bdecrypted && brptMicerror }
        else
          { status := .success, frame := recvframePullTail f 8
            bcheckGrpkey := sec.bcheckGrpkey || mcast }

/-! ## Model of the C code -/

/-- The queue that a function leaves behind, the frames it passed to
    `rtw_free_recvframe`, in order and as they were queued, and its return
    value. -/
structure DefragResult where
  queue : List RecvFrame
  freed : List RecvFrame
  ret : Option RecvFrame
  deriving DecidableEq, Repr

/-- `prframe->attrib.icv_len = …`. -/
def RecvFrame.setIcvLen (f : RecvFrame) (icvLen : ℕ) : RecvFrame :=
  { f with attrib := { f.attrib with icvLen := icvLen } }

/-- The body of the loop of `recvframe_defrag` (lines 1740–1763);
    `wlanhdr_offset` is a `uint8_t`. -/
def appendFragment (prframe pnextrframe : RecvFrame) : RecvFrame :=
  let wlanhdrOffset := (pnextrframe.attrib.hdrlen + pnextrframe.attrib.ivLen) % 256
  let next := recvframePull pnextrframe wlanhdrOffset
  let pr := recvframePullTail prframe prframe.attrib.icvLen
  let pr := pr.memcpy pr.rxTail (next.bytesAt 0 next.len)
  let pr := recvframePut pr next.len
  pr.setIcvLen pnextrframe.attrib.icvLen

/-- The loop of `recvframe_defrag` (lines 1722–1763); `curfragnum` is a
    `uint8_t`. `none` when a fragment number does not follow. -/
def defragLoop : ℕ → RecvFrame → List RecvFrame → Option RecvFrame
  | _, prframe, [] => some prframe
  | curfragnum, prframe, next :: q =>
    if curfragnum ≠ next.attrib.fragNum then none
    else defragLoop ((curfragnum + 1) % 256) (appendFragment prframe next) q

/-- `recvframe_defrag` (lines 1688–1769). It is not called with an empty
    queue. -/
def recvframeDefrag : List RecvFrame → DefragResult
  | [] => { queue := [], freed := [], ret := none }
  | prframe :: q =>
    if 0 ≠ prframe.attrib.fragNum then { queue := [], freed := prframe :: q, ret := none }
    else
      match defragLoop 1 prframe q with
      | none => { queue := [], freed := prframe :: q, ret := none }
      | some prframe => { queue := [], freed := q, ret := some prframe }

/-- The end of `recvframe_chk_defrag` (lines 1862–1870): the MIC of a protected
    frame that goes on. -/
def chkDefragMic (sec : MicContext) (r : DefragResult) : DefragResult :=
  match r.ret with
  | none => r
  | some prtnframe =>
    if prtnframe.attrib.privacy then
      let m := recvframeChkmic sec prtnframe
      if m.status = .fail then { r with freed := r.freed ++ [m.frame], ret := none }
      else { r with ret := some m.frame }
    else r

/-- `recvframe_chk_defrag` (lines 1772–1874), from `pdefrag_q` on. -/
def recvframeChkDefrag (sec : MicContext) (pdefragQ : Option (List RecvFrame)) (f : RecvFrame) :
    DefragResult :=
  let q := pdefragQ.getD []
  chkDefragMic sec <|
    if f.attrib.mfrag = 0 ∧ f.attrib.fragNum = 0 then { queue := q, freed := [], ret := some f }
    else if f.attrib.mfrag = 1 then
      match pdefragQ with
      | none => { queue := [], freed := [f], ret := none }
      | some q =>
        if f.attrib.fragNum = 0 then { queue := [f], freed := q, ret := none }
        else { queue := q ++ [f], freed := [], ret := none }
    else if f.attrib.mfrag ≠ 0 then { queue := q, freed := [], ret := none }
    else
      match pdefragQ with
      | none => { queue := [], freed := [f], ret := none }
      | some q => recvframeDefrag (q ++ [f])

/-! ## One round -/

/-- The loop replaces the ICV at the tail by the body of the next fragment. -/
theorem appendFragment_data {pr next : RecvFrame} {x icv w body : Bytes} (hpr : pr.LenOk)
    (hnext : next.LenOk) (hd : pr.data = x ++ icv) (hicv : icv.length = pr.attrib.icvLen)
    (hw : next.data = w ++ body) (hwlen : w.length = next.attrib.hdrlen + next.attrib.ivLen)
    (hoff : w.length < 256) (hbuf : pr.rxData + x.length + body.length ≤ pr.mem.length) :
    (appendFragment pr next).data = x ++ body ∧ (appendFragment pr next).LenOk ∧
      (appendFragment pr next).rxData = pr.rxData ∧
      (appendFragment pr next).mem.length = pr.mem.length ∧
      (appendFragment pr next).attrib = { pr.attrib with icvLen := next.attrib.icvLen } := by
  have hlen : x.length + icv.length = pr.rxTail - pr.rxData := by
    rw [← List.length_append, ← hd, RecvFrame.data_length]
  have hnlen : w.length + body.length = next.rxTail - next.rxData := by
    rw [← List.length_append, ← hw, RecvFrame.data_length]
  have h1 := pr.data_le_tail
  have h2 := next.data_le_tail
  have hmod : (next.attrib.hdrlen + next.attrib.ivLen) % 256 = w.length := by
    rw [← hwlen, Nat.mod_eq_of_lt hoff]
  have hpull : (recvframePull next w.length).data = body := by
    rw [recvframePull_data (by omega), hw, List.drop_left]
  have hbytes : (recvframePull next w.length).bytesAt 0 (recvframePull next w.length).len = body := by
    rw [RecvFrame.bytesAt_data (recvframePull_lenOk hnext), hpull]
  have hblen : (recvframePull next w.length).len = body.length := by
    rw [← (recvframePull_lenOk hnext).length, hpull]
  have htail : (recvframePullTail pr pr.attrib.icvLen).data = x := by
    rw [recvframePullTail_data (by omega), hd, List.length_append, hicv, Nat.add_sub_cancel,
      List.take_left]
  have hrx : (recvframePullTail pr pr.attrib.icvLen).rxTail = pr.rxData + x.length := by
    rw [recvframePullTail_rxTail (by omega)]
    omega
  generalize hT : recvframePullTail pr pr.attrib.icvLen = T at htail hrx
  have heq : appendFragment pr next =
      (recvframePut (T.memcpy T.rxTail body) body.length).setIcvLen next.attrib.icvLen := by
    rw [hblen] at hbytes
    simp only [appendFragment, hmod, hblen, hbytes, hT]
  have hTmem : T.mem = pr.mem := by rw [← hT, recvframePullTail_mem]
  have hTlen : T.LenOk := by rw [← hT]; exact recvframePullTail_lenOk hpr
  rw [heq]
  refine ⟨?_, recvframePut_memcpy_lenOk hTlen _ _, ?_, ?_, ?_⟩
  · have hspace : T.rxTail + body.length ≤ T.mem.length := by rw [hrx, hTmem]; exact hbuf
    have := recvframePut_memcpy_data hspace
    rw [htail] at this
    exact this
  · simp [RecvFrame.setIcvLen, RecvFrame.memcpy, ← hT]
  · simp [RecvFrame.setIcvLen, RecvFrame.memcpy, hTmem]
  · simp [RecvFrame.setIcvLen, ← hT]

/-! ## Trains of fragments -/

/-- The parts of one fragment. -/
structure Fragment where
  hdr : Bytes
  iv : Bytes
  body : Bytes
  icv : Bytes

/-- `f` holds fragment `num` of an MPDU with header, IV and ICV of lengths `h`,
    `v`, `c`. -/
structure IsFragment (h v c : ℕ) (p : Fragment) (num : ℕ) (f : RecvFrame) : Prop where
  lenOk : f.LenOk
  data : f.data = p.hdr ++ p.iv ++ p.body ++ p.icv
  hdr : p.hdr.length = h
  iv : p.iv.length = v
  icv : p.icv.length = c
  hdrlen : f.attrib.hdrlen = h
  ivLen : f.attrib.ivLen = v
  icvLen : f.attrib.icvLen = c
  fragNum : f.attrib.fragNum = num

/-- The frames hold the parts under successive fragment numbers from `num`, and
    all but the last have More Fragments set. -/
def IsTrain (h v c : ℕ) : ℕ → List Fragment → List RecvFrame → Prop
  | _, [], [] => True
  | num, p :: ps, f :: fs =>
    IsFragment h v c p num f ∧ f.attrib.mfrag = (if ps.isEmpty then 0 else 1) ∧
      IsTrain h v c (num + 1) ps fs
  | _, _, _ => False

/-- The bodies of the fragments, one after the other. -/
def bodies (ps : List Fragment) : Bytes := (ps.map (·.body)).flatten

theorem defragLoop_train {h v c : ℕ} (hoff : h + v < 256) {ps : List Fragment}
    {fs : List RecvFrame} {num : ℕ} {pr : RecvFrame} {x : Bytes} (p : Fragment)
    (hnum : num + ps.length ≤ 256) (htrain : IsTrain h v c num ps fs) (hpr : pr.LenOk)
    (hd : pr.data = x ++ p.icv) (hicv : p.icv.length = c) (hicv' : pr.attrib.icvLen = c)
    (hbuf : pr.rxData + x.length + (bodies ps).length + c ≤ pr.mem.length) :
    ∃ r, defragLoop (num % 256) pr fs = some r ∧ r.LenOk ∧
      r.data = x ++ bodies ps ++ ((p :: ps).getLast (List.cons_ne_nil p ps)).icv ∧
      r.attrib = pr.attrib := by
  induction ps generalizing fs num pr x p with
  | nil =>
    cases fs with
    | nil => exact ⟨pr, rfl, hpr, by simpa [bodies] using hd, rfl⟩
    | cons f fs => exact htrain.elim
  | cons p' ps ih =>
    cases fs with
    | nil => exact htrain.elim
    | cons f fs =>
      obtain ⟨hf, -, htrain⟩ := htrain
      have hbodies : bodies (p' :: ps) = p'.body ++ bodies ps := by simp [bodies]
      rw [hbodies, List.length_append] at hbuf
      have hw : f.data = (p'.hdr ++ p'.iv) ++ (p'.body ++ p'.icv) := by
        rw [hf.data]
        simp only [List.append_assoc]
      have hicvlen := hf.icv
      have hwlen : (p'.hdr ++ p'.iv).length = h + v := by
        rw [List.length_append, hf.hdr, hf.iv]
      obtain ⟨h1, h2, h3, h4, h5⟩ := appendFragment_data hpr hf.lenOk hd (hicv.trans hicv'.symm) hw
        (by rw [hwlen, hf.hdrlen, hf.ivLen]) (by omega)
        (by rw [List.length_append]; omega)
      rw [List.length_cons] at hnum
      obtain ⟨r, hr, hrlen, hrd, hra⟩ := ih (x := x ++ p'.body) p' (by omega) htrain h2
        (by rw [h1, List.append_assoc]) hicvlen (by rw [h5, hf.icvLen])
        (by rw [h3, h4, List.length_append]; omega)
      refine ⟨r, ?_, hrlen, ?_, ?_⟩
      · rw [Nat.mod_eq_of_lt (by omega : num < 256), defragLoop,
          if_neg (by rw [hf.fragNum]; exact fun h => h rfl), hr]
      · rw [hrd, hbodies, List.getLast_cons (List.cons_ne_nil p' ps), List.append_assoc x]
      · rw [hra, h5, hf.icvLen, ← hicv']

/-! ## Calls -/

@[simp] theorem appendFragment_addr (pr next : RecvFrame) :
    (appendFragment pr next).addr = pr.addr := by
  simp [appendFragment, RecvFrame.setIcvLen]

@[simp] theorem appendFragment_skb (pr next : RecvFrame) :
    (appendFragment pr next).skb = pr.skb := by
  simp [appendFragment, RecvFrame.setIcvLen]

/-- The assembled frame is the first one. -/
theorem defragLoop_addr {num : ℕ} {pr r : RecvFrame} {q : List RecvFrame}
    (h : defragLoop num pr q = some r) : r.addr = pr.addr ∧ r.skb = pr.skb := by
  induction q generalizing num pr with
  | nil =>
    obtain rfl := Option.some.inj h
    exact ⟨rfl, rfl⟩
  | cons f q ih =>
    unfold defragLoop at h
    split_ifs at h
    have := ih h
    rwa [appendFragment_addr, appendFragment_skb] at this

/-- The loop accepts successive fragment numbers only. -/
theorem defragLoop_fragNum {num : ℕ} {pr r : RecvFrame} {q : List RecvFrame} (hnum : num < 256)
    (h0 : ∀ f ∈ q, f.attrib.fragNum ≠ 0) (h : defragLoop num pr q = some r) :
    q.map (·.attrib.fragNum) = List.range' num q.length := by
  induction q generalizing num pr with
  | nil => rfl
  | cons f q ih =>
    unfold defragLoop at h
    split_ifs at h with heq
    have ih := ih (Nat.mod_lt _ (by decide)) (fun g hg => h0 g (List.mem_cons_of_mem f hg)) h
    rw [not_not] at heq
    rw [List.map_cons, List.length_cons, List.range'_succ, ← heq]
    congr 1
    rcases Nat.lt_or_ge (num + 1) 256 with hlt | hge
    · rwa [Nat.mod_eq_of_lt hlt] at ih
    · -- the counter wraps to 0, which no fragment in the queue carries
      have hzero : (num + 1) % 256 = 0 := by omega
      rw [hzero] at ih
      cases q with
      | nil => rfl
      | cons g q =>
        rw [List.map_cons, List.length_cons, List.range'_succ] at ih
        exact absurd (List.cons.inj ih).1 (h0 g (by simp))

section calls

variable {sec : MicContext} {q : List RecvFrame} {f : RecvFrame}

/-- A fragment 0 starts the queue anew. -/
theorem chkDefrag_first (hm : f.attrib.mfrag = 1) (hn : f.attrib.fragNum = 0) :
    recvframeChkDefrag sec (some q) f = { queue := [f], freed := q, ret := none } := by
  simp [recvframeChkDefrag, chkDefragMic, hm, hn]

theorem chkDefrag_middle (hm : f.attrib.mfrag = 1) (hn : f.attrib.fragNum ≠ 0) :
    recvframeChkDefrag sec (some q) f = { queue := q ++ [f], freed := [], ret := none } := by
  simp [recvframeChkDefrag, chkDefragMic, hm, hn]

theorem chkDefrag_last (hm : f.attrib.mfrag = 0) (hn : f.attrib.fragNum ≠ 0) :
    recvframeChkDefrag sec (some q) f = chkDefragMic sec (recvframeDefrag (q ++ [f])) := by
  simp [recvframeChkDefrag, hm, hn]

end calls

/-- A station's defragmentation queue, and what the calls released and
    returned. -/
structure DefragRun where
  queue : List RecvFrame
  freed : List RecvFrame := []
  returned : List RecvFrame := []
  deriving DecidableEq, Repr

/-- One call of `recvframe_chk_defrag`. -/
def defragStep (sec : MicContext) (st : DefragRun) (f : RecvFrame) : DefragRun :=
  let r := recvframeChkDefrag sec (some st.queue) f
  { queue := r.queue, freed := st.freed ++ r.freed, returned := st.returned ++ r.ret.toList }

/-- A fragment that is neither the first nor the last. -/
def IsMiddle (f : RecvFrame) : Prop := f.attrib.mfrag = 1 ∧ f.attrib.fragNum ≠ 0

/-- The last fragment of several. -/
def IsLast (f : RecvFrame) : Prop := f.attrib.mfrag = 0 ∧ f.attrib.fragNum ≠ 0

theorem run_middle (sec : MicContext) (st : DefragRun) {fs : List RecvFrame}
    (h : ∀ f ∈ fs, IsMiddle f) :
    run (defragStep sec) st fs = { st with queue := st.queue ++ fs } := by
  induction fs generalizing st with
  | nil => simp
  | cons f fs ih =>
    have hf := h f List.mem_cons_self
    rw [run_cons, ih _ fun g hg => h g (List.mem_cons_of_mem f hg)]
    simp [defragStep, chkDefrag_middle hf.1 hf.2]

/-- The calls for a first fragment, any others and a last one, on a queue with
    any content. -/
theorem run_fragments (sec : MicContext) (q : List RecvFrame) {f0 last : RecvFrame}
    {fs : List RecvFrame} (h0 : f0.attrib.mfrag = 1) (h0' : f0.attrib.fragNum = 0)
    (hfs : ∀ f ∈ fs, IsMiddle f) (hlast : IsLast last) :
    run (defragStep sec) { queue := q } (f0 :: (fs ++ [last])) =
      let r := chkDefragMic sec (recvframeDefrag (f0 :: (fs ++ [last])))
      { queue := r.queue, freed := q ++ r.freed, returned := r.ret.toList } := by
  rw [run_cons, run_append, run_middle sec _ hfs]
  simp [defragStep, chkDefrag_first h0 h0', chkDefrag_last hlast.1 hlast.2]

theorem IsTrain.split {h v c num : ℕ} (hnum : 0 < num) {ps : List Fragment}
    {fs : List RecvFrame} (hps : ps ≠ []) (ht : IsTrain h v c num ps fs) :
    ∃ mids last, fs = mids ++ [last] ∧ (∀ f ∈ mids, IsMiddle f) ∧ IsLast last := by
  induction ps generalizing num fs with
  | nil => exact absurd rfl hps
  | cons p ps ih =>
    cases fs with
    | nil => exact ht.elim
    | cons f fs =>
      obtain ⟨hf, hm, ht⟩ := ht
      have hne : f.attrib.fragNum ≠ 0 := by rw [hf.fragNum]; omega
      cases ps with
      | nil =>
        cases fs with
        | nil => exact ⟨[], f, rfl, by simp, hm, hne⟩
        | cons g fs => exact ht.elim
      | cons p' ps =>
        obtain ⟨mids, last, rfl, hmids, hlast⟩ := ih (Nat.succ_pos num) (List.cons_ne_nil p' ps) ht
        refine ⟨f :: mids, last, rfl, ?_, hlast⟩
        intro g hg
        rcases List.mem_cons.mp hg with rfl | hg
        · exact ⟨hm, hne⟩
        · exact hmids g hg

/-! ## Reassembly -/

theorem recvframeDefrag_train {h v c : ℕ} (hoff : h + v < 256) {p0 : Fragment}
    {ps : List Fragment} {f0 : RecvFrame} {fs : List RecvFrame} (hn : ps.length < 256)
    (ht : IsTrain h v c 0 (p0 :: ps) (f0 :: fs))
    (hbuf : f0.rxData + (h + v) + (bodies (p0 :: ps)).length + c ≤ f0.mem.length) :
    ∃ r, recvframeDefrag (f0 :: fs) = { queue := [], freed := fs, ret := some r } ∧
      r.addr = f0.addr ∧ r.attrib = f0.attrib ∧
      r.data = p0.hdr ++ p0.iv ++ bodies (p0 :: ps) ++
        ((p0 :: ps).getLast (List.cons_ne_nil p0 ps)).icv := by
  obtain ⟨hf, -, ht⟩ := ht
  have hbodies : bodies (p0 :: ps) = p0.body ++ bodies ps := by simp [bodies]
  rw [hbodies, List.length_append] at hbuf
  have hx : (p0.hdr ++ p0.iv ++ p0.body).length = h + v + p0.body.length := by
    rw [List.length_append, List.length_append, hf.hdr, hf.iv]
  obtain ⟨r, hr, -, hrd, hra⟩ := defragLoop_train hoff p0 (by omega : 0 + 1 + ps.length ≤ 256) ht
    hf.lenOk hf.data hf.icv hf.icvLen (by rw [hx]; omega)
  refine ⟨r, ?_, (defragLoop_addr hr).1, hra, ?_⟩
  · rw [recvframeDefrag, if_neg (by rw [hf.fragNum]; exact fun h => h rfl)]
    rw [Nat.mod_eq_of_lt (by decide : 0 + 1 < 256), Nat.zero_add] at hr
    rw [hr]
  · rw [hrd, hbodies]
    simp only [List.append_assoc]

theorem recvframeChkmic_other {sec : MicContext} {f : RecvFrame} (h : f.attrib.encrypt ≠ .tkip) :
    recvframeChkmic sec f =
      { status := .success, frame := f, bcheckGrpkey := sec.bcheckGrpkey } := by
  simp [recvframeChkmic, h]

/-- A TKIP frame that passes loses its last 8 bytes. -/
theorem recvframeChkmic_frame {sec : MicContext} {f : RecvFrame} (h : f.attrib.encrypt = .tkip)
    (hs : (recvframeChkmic sec f).status ≠ .fail) :
    (recvframeChkmic sec f).frame = recvframePullTail f 8 := by
  revert hs
  unfold recvframeChkmic
  rw [if_neg (not_not_intro h)]
  cases sec.rxmickey f.attrib.ta with
  | none => exact fun _ => rfl
  | some k =>
    dsimp only
    split_ifs <;> intro hs
    · exact absurd rfl hs
    all_goals rfl

theorem chkDefragMic_other {sec : MicContext} {q freed : List RecvFrame} {r : RecvFrame}
    (h : r.attrib.privacy = false ∨ r.attrib.encrypt ≠ .tkip) :
    chkDefragMic sec { queue := q, freed := freed, ret := some r } =
      { queue := q, freed := freed, ret := some r } := by
  rcases h with h | h
  · simp [chkDefragMic, h]
  · simp [chkDefragMic, recvframeChkmic_other h]

/-- A fragmented MPDU is put together from its fragments whatever the queue
    held; only the ICV of the last one stays, for `wlanhdr_to_ethhdr` to remove,
    and a Protected TKIP frame goes through its MIC check. A train with a gap
    yields nothing and is released. -/
theorem recvframeChkDefrag_fragments (sec : MicContext) (q : List RecvFrame) :
    (∀ {h v c : ℕ} {p0 : Fragment} {ps : List Fragment} {f0 : RecvFrame} {fs : List RecvFrame},
      24 ≤ h → h + v < 256 → ps ≠ [] → ps.length < 256 →
      IsTrain h v c 0 (p0 :: ps) (f0 :: fs) →
      f0.rxData + (h + v) + (bodies (p0 :: ps)).length + c ≤ f0.mem.length →
      ∃ r : RecvFrame, r.addr = f0.addr ∧ r.attrib = f0.attrib ∧
        r.data = p0.hdr ++ p0.iv ++ bodies (p0 :: ps) ++
          ((p0 :: ps).getLast (List.cons_ne_nil p0 ps)).icv ∧
        (f0.attrib.privacy = false ∨ f0.attrib.encrypt ≠ .tkip →
          run (defragStep sec) { queue := q } (f0 :: fs) =
            { queue := [], freed := q ++ fs, returned := [r] }) ∧
        (f0.attrib.privacy = true → f0.attrib.encrypt = .tkip →
          let m := recvframeChkmic sec r
          (m.status = .fail → run (defragStep sec) { queue := q } (f0 :: fs) =
            { queue := [], freed := q ++ fs ++ [m.frame], returned := [] }) ∧
          (m.status ≠ .fail → m.frame.data = r.data.take (r.data.length - 8) ∧
            run (defragStep sec) { queue := q } (f0 :: fs) =
              { queue := [], freed := q ++ fs, returned := [m.frame] }))) ∧
    (∀ {f0 last : RecvFrame} {fs : List RecvFrame}, f0.attrib.mfrag = 1 → f0.attrib.fragNum = 0 →
      (∀ f ∈ fs, IsMiddle f) → IsLast last →
      (f0 :: (fs ++ [last])).map (·.attrib.fragNum) ≠ List.range (fs.length + 2) →
      run (defragStep sec) { queue := q } (f0 :: (fs ++ [last])) =
        { queue := [], freed := q ++ f0 :: (fs ++ [last]), returned := [] }) := by
  constructor
  · intro h v c p0 ps f0 fs hh hoff hps hn ht hbuf
    obtain ⟨r, hr, haddr, hattrib, hdata⟩ := recvframeDefrag_train hoff hn ht hbuf
    obtain ⟨hf, hm, ht'⟩ := ht
    obtain ⟨mids, last, rfl, hmids, hlast⟩ := ht'.split (by decide) hps
    have hm1 : f0.attrib.mfrag = 1 := by
      rw [hm, if_neg (by simpa using hps)]
    have hrun := run_fragments sec q hm1 hf.fragNum hmids hlast
    rw [hr] at hrun
    refine ⟨r, haddr, hattrib, hdata, ?_, ?_⟩
    · intro hother
      rw [hrun, chkDefragMic_other (hattrib ▸ hother)]
      rfl
    · intro hp htkip m
      have hlen : 8 ≤ r.rxTail - r.rxData := by
        have hhdr := hf.hdr
        rw [← RecvFrame.data_length, hdata]
        simp only [List.length_append]
        omega
      refine ⟨fun hs => ?_, fun hs => ⟨?_, ?_⟩⟩
      · rw [hrun]
        simp only [chkDefragMic, hattrib, hp, if_true, m] at hs ⊢
        simp [hs]
      · rw [recvframeChkmic_frame (hattrib ▸ htkip) hs, recvframePullTail_data (by omega)]
      · rw [hrun]
        simp only [chkDefragMic, hattrib, hp, if_true, m] at hs ⊢
        simp [hs]
  · intro f0 last fs hm hn hfs hlast hgap
    rw [run_fragments sec q hm hn hfs hlast]
    have hnone : defragLoop 1 f0 (fs ++ [last]) = none := by
      by_contra hne
      obtain ⟨r, hr⟩ := Option.ne_none_iff_exists'.mp hne
      have hnums := defragLoop_fragNum (by decide) (fun f hf => by
        rcases List.mem_append.mp hf with hf | hf
        · exact (hfs f hf).2
        · rw [List.mem_singleton.mp hf]
          exact hlast.2) hr
      apply hgap
      rw [List.map_cons, hnums, hn, List.length_append, List.length_singleton,
        List.range_eq_range', List.range'_succ (n := fs.length + 1)]
    simp [recvframeDefrag, hn, hnone, chkDefragMic]

/-- No Michael key is set. -/
def noMicKey : MicContext :=
  { rxmickey := fun _ => none, mickey := [], binstallGrpkey := false, bcheckGrpkey := false
    keyIndex := 0 }

/-- A WEP fragment with a body of one byte. -/
def wepFragment (addr seqNum fragNum mfrag : ℕ) (body : UInt8) : RecvFrame :=
  { addr := addr, skb := some addr, len := 33, rxData := 0, rxTail := 33
    attrib := { hdrlen := 24, ivLen := 4, icvLen := 4, encrypt := .wep40, privacy := true
                seqNum := seqNum, fragNum := fragNum, mfrag := mfrag }
    mem := List.replicate 28 0 ++ [body] ++ List.replicate 4 0xff ++ List.replicate 7 0
    data_le_tail := by decide, tail_le_end := by simp }

/-- The parts of `wepFragment`. -/
def wepParts (body : UInt8) : Fragment :=
  { hdr := List.replicate 24 0, iv := List.replicate 4 0, body := [body], icv := List.replicate 4 0xff }

theorem wepFragment_isFragment (addr seqNum fragNum mfrag : ℕ) (body : UInt8) :
    IsFragment 24 4 4 (wepParts body) fragNum (wepFragment addr seqNum fragNum mfrag body) where
  lenOk := rfl
  data := rfl
  hdr := rfl
  iv := rfl
  icv := rfl
  hdrlen := rfl
  ivLen := rfl
  icvLen := rfl
  fragNum := rfl

theorem recvframeChkDefrag_two_fragments :
    ∃ r : RecvFrame, r.data = List.replicate 28 0 ++ [1, 2] ++ List.replicate 4 0xff ∧
      run (defragStep noMicKey) { queue := [wepFragment 7 3 0 1 5] }
        [wepFragment 0 4 0 1 1, wepFragment 1 4 1 0 2] =
        { queue := [], freed := [wepFragment 7 3 0 1 5, wepFragment 1 4 1 0 2], returned := [r] } := by
  have htrain : IsTrain 24 4 4 0 [wepParts 1, wepParts 2]
      [wepFragment 0 4 0 1 1, wepFragment 1 4 1 0 2] :=
    ⟨wepFragment_isFragment 0 4 0 1 1, rfl, wepFragment_isFragment 1 4 1 0 2, rfl, trivial⟩
  obtain ⟨r, -, -, hd, h, -⟩ := (recvframeChkDefrag_fragments noMicKey [wepFragment 7 3 0 1 5]).1
    (by decide) (by decide) (List.cons_ne_nil _ _) (by decide) htrain (by decide)
  exact ⟨r, hd, h (Or.inr (by decide))⟩

/-- The ICV of the last fragment is still there. -/
theorem recvframeChkDefrag_last_icv :
    ¬ ∀ (sec : MicContext) (q : List RecvFrame) (p0 : Fragment) (ps : List Fragment)
      (f0 : RecvFrame) (fs : List RecvFrame), IsTrain 24 4 4 0 (p0 :: ps) (f0 :: fs) →
      f0.rxData + 28 + (bodies (p0 :: ps)).length + 4 ≤ f0.mem.length →
      ∃ r : RecvFrame, r.data = p0.hdr ++ p0.iv ++ bodies (p0 :: ps) ∧
        run (defragStep sec) { queue := q } (f0 :: fs) =
          { queue := [], freed := q ++ fs, returned := [r] } := by
  intro h
  obtain ⟨r, hd, hr⟩ := h noMicKey [] (wepParts 1) [wepParts 2] (wepFragment 0 4 0 1 1)
    [wepFragment 1 4 1 0 2]
    ⟨wepFragment_isFragment 0 4 0 1 1, rfl, wepFragment_isFragment 1 4 1 0 2, rfl, trivial⟩
    (by decide)
  have hret : (run (defragStep noMicKey) { queue := [] }
      [wepFragment 0 4 0 1 1, wepFragment 1 4 1 0 2]).returned.map (·.data.length) = [34] := by
    decide
  rw [hr, List.map_singleton, hd] at hret
  exact absurd hret (by decide)

/-! ## Mixing -/

/-- `f` and `g` are fragments of one MPDU. -/
def SameMpdu (f g : RecvFrame) : Prop :=
  f.attrib.seqNum = g.attrib.seqNum ∧ f.attrib.priority = g.attrib.priority

instance (f g : RecvFrame) : Decidable (SameMpdu f g) := inferInstanceAs (Decidable (_ ∧ _))

instance (f : RecvFrame) : Decidable (IsLast f) := inferInstanceAs (Decidable (_ ∧ _))

/-- A station's defragmentation queue and, for every frame that
    `recvframe_chk_defrag` returned reassembled, the fragments it consists of. -/
structure MixRun where
  queue : List RecvFrame := []
  assembled : List (List RecvFrame) := []
  deriving DecidableEq, Repr

/-- One call of `recvframe_chk_defrag`. -/
def mixStep (sec : MicContext) (st : MixRun) (f : RecvFrame) : MixRun :=
  let r := recvframeChkDefrag sec (some st.queue) f
  { queue := r.queue
    assembled :=
      if IsLast f ∧ r.ret.isSome then st.assembled ++ [st.queue ++ [f]] else st.assembled }

/-- The fragments carry the numbers `0, 1, …`. -/
def Consecutive (q : List RecvFrame) : Prop := q.map (·.attrib.fragNum) = List.range q.length

instance (q : List RecvFrame) : Decidable (Consecutive q) := inferInstanceAs (Decidable (_ = _))

/-- A fragment that continues the queue belongs to the MPDU of the fragment
    queued last. -/
def ContinuesMpdu (st : MixRun) (f : RecvFrame) : Prop :=
  f.attrib.fragNum ≠ 0 → Consecutive (st.queue ++ [f]) → ∀ g ∈ st.queue.getLast?, SameMpdu g f

instance (st : MixRun) (f : RecvFrame) : Decidable (ContinuesMpdu st f) :=
  inferInstanceAs (Decidable (_ → _ → _))

/-- Fragments that could be put together belong to one MPDU. -/
structure MixInv (st : MixRun) : Prop where
  tail : ∀ f ∈ st.queue.tail, f.attrib.fragNum ≠ 0
  uniform : Consecutive st.queue → ∀ f ∈ st.queue, ∀ g ∈ st.queue, SameMpdu f g
  assembled : ∀ parts ∈ st.assembled, ∀ f ∈ parts, ∀ g ∈ parts, SameMpdu f g

theorem consecutive_append {q : List RecvFrame} {f : RecvFrame} :
    Consecutive (q ++ [f]) ↔ Consecutive q ∧ f.attrib.fragNum = q.length := by
  unfold Consecutive
  rw [List.map_append, List.length_append, List.length_singleton, List.range_succ]
  constructor
  · intro h
    obtain ⟨h1, h2⟩ := List.append_inj' h (by simp)
    exact ⟨h1, by simpa using h2⟩
  · rintro ⟨h1, h2⟩
    rw [h1, List.map_singleton, h2]

theorem SameMpdu.symm {f g : RecvFrame} (h : SameMpdu f g) : SameMpdu g f := ⟨h.1.symm, h.2.symm⟩

theorem SameMpdu.trans {f g k : RecvFrame} (h : SameMpdu f g) (h' : SameMpdu g k) : SameMpdu f k :=
  ⟨h.1.trans h'.1, h.2.trans h'.2⟩

/-- The queue with the fragment that arrives satisfies the invariant again. -/
theorem MixInv.extend {st : MixRun} (hi : MixInv st) {f : RecvFrame} (hf : f.attrib.fragNum ≠ 0)
    (hc : ContinuesMpdu st f) (h : Consecutive (st.queue ++ [f])) :
    ∀ x ∈ st.queue ++ [f], ∀ y ∈ st.queue ++ [f], SameMpdu x y := by
  obtain ⟨hq, hnum⟩ := consecutive_append.mp h
  have hu := hi.uniform hq
  have hne : st.queue ≠ [] := by
    intro h0
    rw [h0] at hnum
    exact hf hnum
  have hlast := hc hf h _ (List.getLast?_eq_some_getLast hne)
  have hold : ∀ x ∈ st.queue, SameMpdu x f := fun x hx =>
    (hu x hx _ (List.getLast_mem hne)).trans hlast
  intro x hx y hy
  rw [List.mem_append, List.mem_singleton] at hx hy
  rcases hx with hx | rfl <;> rcases hy with hy | rfl
  · exact hu x hx y hy
  · exact hold x hx
  · exact (hold y hy).symm
  · exact ⟨rfl, rfl⟩

/-- `recvframe_defrag` assembles consecutive fragments only, and empties the
    queue in any case. -/
theorem recvframeDefrag_queue (q : List RecvFrame) : (recvframeDefrag q).queue = [] := by
  unfold recvframeDefrag
  split
  · rfl
  · split_ifs
    · rfl
    · split <;> rfl

theorem recvframeDefrag_consecutive {q : List RecvFrame} (h0 : ∀ f ∈ q.tail, f.attrib.fragNum ≠ 0)
    (h : (recvframeDefrag q).ret ≠ none) : Consecutive q := by
  cases q with
  | nil => rfl
  | cons pr q =>
    simp only [recvframeDefrag] at h
    split_ifs at h with hpr
    · exact absurd rfl h
    · rw [not_not] at hpr
      cases hl : defragLoop 1 pr q with
      | none =>
        rw [hl] at h
        exact absurd rfl h
      | some r =>
        have hnums := defragLoop_fragNum (by decide) h0 hl
        rw [List.tail_cons] at hnums
        rw [Consecutive, List.map_cons, ← hpr, hnums, List.length_cons, List.range_eq_range',
          List.range'_succ]

/-- What `recvframe_defrag` returns starts with fragment 0. -/
theorem recvframeDefrag_ret {q : List RecvFrame} {r : RecvFrame}
    (h : (recvframeDefrag q).ret = some r) :
    ∃ pr q', q = pr :: q' ∧ pr.attrib.fragNum = 0 ∧ defragLoop 1 pr q' = some r := by
  cases q with
  | nil => cases h
  | cons pr q =>
    rw [recvframeDefrag] at h
    split_ifs at h with h0
    rw [not_not] at h0
    refine ⟨pr, q, rfl, h0.symm, ?_⟩
    cases hl : defragLoop 1 pr q with
    | none =>
      rw [hl] at h
      cases h
    | some r' =>
      rw [hl] at h
      exact h

theorem chkDefragMic_queue (sec : MicContext) (r : DefragResult) :
    (chkDefragMic sec r).queue = r.queue := by
  unfold chkDefragMic
  split
  · rfl
  · dsimp only
    split_ifs <;> rfl

theorem chkDefragMic_ret {sec : MicContext} {r : DefragResult}
    (h : (chkDefragMic sec r).ret ≠ none) : r.ret ≠ none := by
  intro h0
  simp [chkDefragMic, h0] at h

theorem mem_tail_append {f g : RecvFrame} {q : List RecvFrame} (h : g ∈ (q ++ [f]).tail) :
    g ∈ q.tail ∨ g = f := by
  cases q with
  | nil => exact absurd h List.not_mem_nil
  | cons x q => simpa using h

theorem mixStep_inv (sec : MicContext) (st : MixRun) (f : RecvFrame) (hc : ContinuesMpdu st f)
    (hi : MixInv st) : MixInv (mixStep sec st f) := by
  by_cases hm : f.attrib.mfrag = 1
  · have hnotlast : ¬ IsLast f := by
      rintro ⟨h, -⟩
      omega
    by_cases hn : f.attrib.fragNum = 0
    · rw [mixStep, chkDefrag_first hm hn]
      refine ⟨by simp, ?_, by simpa [hnotlast] using hi.assembled⟩
      intro _ x hx y hy
      rw [List.mem_singleton.mp hx, List.mem_singleton.mp hy]
      exact ⟨rfl, rfl⟩
    · rw [mixStep, chkDefrag_middle hm hn]
      refine ⟨?_, hi.extend hn hc, by simpa [hnotlast] using hi.assembled⟩
      intro x hx
      rcases mem_tail_append hx with hx | rfl
      · exact hi.tail x hx
      · exact hn
  · by_cases hl : IsLast f
    · rw [mixStep, chkDefrag_last hl.1 hl.2]
      refine ⟨?_, ?_, ?_⟩
      · simp [chkDefragMic_queue, recvframeDefrag_queue]
      · simp [chkDefragMic_queue, recvframeDefrag_queue]
      · dsimp only
        split_ifs with hret
        · have hcons : Consecutive (st.queue ++ [f]) := by
            refine recvframeDefrag_consecutive (fun g hg => ?_)
              (chkDefragMic_ret (Option.isSome_iff_ne_none.mp hret.2))
            rcases mem_tail_append hg with hg | rfl
            · exact hi.tail g hg
            · exact hl.2
          intro parts hparts
          rcases List.mem_append.mp hparts with hparts | hparts
          · exact hi.assembled parts hparts
          · rw [List.mem_singleton.mp hparts]
            exact hi.extend hl.2 hc hcons
        · exact hi.assembled
    · -- not a fragment: the queue stays
      have hqueue : (recvframeChkDefrag sec (some st.queue) f).queue = st.queue := by
        rw [recvframeChkDefrag, chkDefragMic_queue]
        by_cases h0 : f.attrib.mfrag = 0
        · have hn : f.attrib.fragNum = 0 := by
            by_contra hn
            exact hl ⟨h0, hn⟩
          simp [h0, hn]
        · simp [h0, hm]
      refine ⟨?_, ?_, ?_⟩
      · simpa [mixStep, hqueue] using hi.tail
      · simpa [mixStep, hqueue] using hi.uniform
      · simpa [mixStep, hl] using hi.assembled

/-- In every run in which the fragments that continue a queue belong to its
    MPDU, no frame is put together from fragments of two. -/
theorem recvframeChkDefrag_same_mpdu (sec : MicContext) (fs : List RecvFrame)
    (h : Guarded (mixStep sec) ContinuesMpdu {} fs) :
    ∀ parts ∈ (run (mixStep sec) {} fs).assembled, ∀ f ∈ parts, ∀ g ∈ parts,
      f.attrib.seqNum = g.attrib.seqNum ∧ f.attrib.priority = g.attrib.priority :=
  (invariant_run (mixStep_inv sec) h ⟨by simp, fun _ => by simp, by simp⟩).assembled

theorem recvframeChkDefrag_same_mpdu_two :
    let fs := [wepFragment 0 4 0 1 1, wepFragment 1 9 0 0 3, wepFragment 2 4 1 0 2]
    (run (mixStep noMicKey) {} fs).assembled.length = 1 ∧
      ∀ parts ∈ (run (mixStep noMicKey) {} fs).assembled, ∀ f ∈ parts, ∀ g ∈ parts,
        f.attrib.seqNum = g.attrib.seqNum ∧ f.attrib.priority = g.attrib.priority :=
  ⟨by decide, recvframeChkDefrag_same_mpdu noMicKey _ (by decide)⟩

/-- Fragment 0 of one MPDU and fragment 1 of another become one frame. -/
theorem recvframeChkDefrag_mixes :
    ¬ ∀ (sec : MicContext) (fs : List RecvFrame),
      ∀ parts ∈ (run (mixStep sec) {} fs).assembled, ∀ f ∈ parts, ∀ g ∈ parts,
        f.attrib.seqNum = g.attrib.seqNum ∧ f.attrib.priority = g.attrib.priority := by
  intro h
  have hrun : (run (mixStep noMicKey) {} [wepFragment 0 4 0 1 1, wepFragment 1 5 1 0 2]).assembled =
      [[wepFragment 0 4 0 1 1, wepFragment 1 5 1 0 2]] := by decide
  have := (h noMicKey _ _ (by rw [hrun]; exact List.mem_singleton_self _)
    (wepFragment 0 4 0 1 1) (by simp) (wepFragment 1 5 1 0 2) (by simp)).1
  exact absurd this (by decide)

end Rtl8821au.Recv
