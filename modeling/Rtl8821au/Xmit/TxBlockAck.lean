import Rtl8821au.Xmit.Encap

/-!
# Sequence numbers and the start of aggregation

The block-ack session of the transmitter with one station: `rtw_make_wlanhdr` numbers the frames
and marks them for aggregation (`rtw_xmit.c`, lines 1145–1202), `rtw_issue_addbareq_cmd`
(`rtw_mlme.c`, lines 2633–2683) and `add_ba_hdl` (`rtw_mlme_ext.c`, lines 6324–6349) lead to the
request of `issue_action_BA` (lines 4097–4129), and `OnAction_back` (lines 2053–2164) takes the
responses and the DELBAs.

`start_seq` is not masked and can be 4096. In the request only twelve bits of it remain, and
`SN_LESS` looks at the difference modulo 4096.

* `agrees_run`: in every run the numbers are consecutive, the request has the number of the next
  frame, and what is sent after it was accepted is marked.
-/

namespace Rtl8821au.Xmit.TxBlockAck

open SerialNum
open Recv (Bytes snLess snLess_iff)

/-! ## Model of the C code -/

/-- `|= 1 << tid` of a byte. -/
def setBit (bm tid : ℕ) : ℕ := (bm ||| 1 <<< tid) % 2 ^ 8

/-- `&= ~(1 << tid)` of a byte. -/
def clrBit (bm tid : ℕ) : ℕ := bm &&& (0xff ^^^ (1 <<< tid) % 2 ^ 8)

/-- The station, as far as the session goes, the dialog token, and the traffic identifiers of the
    `_AddBAReq` commands that wait. -/
structure BaState where
  seq : StaTxSeq
  htOption : Bool
  candidateTidBitmap : ℕ := 0
  dialogToken : UInt8 := 0
  cmds : List ℕ := []

/-- A QoS packet as `update_attrib` leaves it, and the driver when its header is made. -/
structure QosPkt where
  priv : RtlPriv
  attrib : TxHdrAttrib
  qos : attrib.subtype = wifiQosDataType
  tid_lt : attrib.txPriority < 8

/-- `update_attrib_phy_info` (`rtw_xmit.c`, lines 583 and 585). -/
def phyInfo (s : BaState) (a : TxHdrAttrib) : TxHdrAttrib :=
  { a with htEn := s.htOption, ampduEn := false }

/-- The header of a packet. -/
def makeHdr (s : BaState) (p : QosPkt) : WlanhdrResult :=
  rtwMakeWlanhdr p.priv s.seq (phyInfo s p.attrib)

/-- `rtw_issue_addbareq_cmd` behind its checks of the station; `queued` if the command could be
    made. -/
def issueAddbareqCmd (s : BaState) (p : QosPkt) (queued : Bool) : BaState :=
  let priority := p.attrib.txPriority
  if s.htOption && s.seq.ampduEnable then
    let issued := s.seq.aggEnableBitmap.testBit priority || s.candidateTidBitmap.testBit priority
    if issued then s
    else
      { s with
        candidateTidBitmap := setBit s.candidateTidBitmap priority
        cmds := if queued then s.cmds ++ [priority] else s.cmds }
  else s

/-- The dialog token of the next request: it is never zero. -/
def nextToken (t : UInt8) : UInt8 := if t + 1 = 0 then 1 else t + 1

/-- A 16-bit value in the frame. -/
def le16 (v : ℕ) : Bytes := [UInt8.ofNat v, UInt8.ofNat (v / 256)]

/-- `issue_action_BA` for an ADDBA request: the body of the frame. -/
def issueAddbaReq (s : BaState) (status : ℕ) : Bytes × BaState :=
  let dialogToken := nextToken s.dialogToken
  let baParaSet := 0x1002 ||| (status &&& 0xf) <<< 2
  let startSeq := ((s.seq.txseqTid (status &&& 0x07) &&& 0xfff) + 1) % 2 ^ 16
  ([3, 0, dialogToken] ++ le16 baParaSet ++ le16 5000 ++ le16 ((startSeq <<< 4) % 2 ^ 16),
    { s with
      dialogToken := dialogToken
      seq := { s.seq with
        baStartingSeqctrl :=
          Function.update s.seq.baStartingSeqctrl (status &&& 0x07) startSeq } })

/-- `add_ba_hdl` on the first command that waits; `assoc` if a request is to be made, and `alloc`
    if there is a frame for it. -/
def addBaHdl (s : BaState) (assoc alloc : Bool) : Option Bytes × BaState :=
  match s.cmds with
  | [] => (none, s)
  | tid :: rest =>
    let s := { s with cmds := rest }
    if assoc then
      if alloc then
        let r := issueAddbaReq s tid
        (some r.1, r.2)
      else (none, s)
    else (none, { s with candidateTidBitmap := clrBit s.candidateTidBitmap tid })

/-- `addba_timer_hdl`. -/
def addbaTimerHdl (s : BaState) : BaState :=
  if s.htOption && s.seq.ampduEnable then { s with candidateTidBitmap := 0 } else s

/-- A byte of the body of a received frame. -/
def byteAt (body : Bytes) (k : ℕ) : ℕ := (body.getD k 0).toNat

/-- `status` of an ADDBA response. -/
def respStatus (body : Bytes) : ℕ := byteAt body 3 + 256 * byteAt body 4

/-- `tid` of an ADDBA response, from three bits of the field. -/
def respTid (body : Bytes) : ℕ := (byteAt body 5 >>> 2) &&& 0x7

/-- The traffic identifier of a DELBA. -/
def delbaTid (body : Bytes) : ℕ := (byteAt body 3 >>> 4) &&& 0xf

/-- `OnAction_back` on the body of a block-ack frame of the station. A request, and a DELBA of
    the originator, are about the other direction. -/
def onActionBack (s : BaState) (body : Bytes) : BaState :=
  match byteAt body 1 with
  | 1 =>
    if respStatus body = 0 then
      { s with
        seq := { s.seq with aggEnableBitmap := setBit s.seq.aggEnableBitmap (respTid body) }
        candidateTidBitmap := clrBit s.candidateTidBitmap (respTid body) }
    else
      { s with
        seq := { s.seq with aggEnableBitmap := clrBit s.seq.aggEnableBitmap (respTid body) } }
  | 2 =>
    if (byteAt body 3).testBit 3 = false then
      { s with
        seq := { s.seq with aggEnableBitmap := clrBit s.seq.aggEnableBitmap (delbaTid body) }
        candidateTidBitmap := clrBit s.candidateTidBitmap (delbaTid body) }
    else s
  | _ => s

/-- `send_delba` of the originator (`rtw_mlme_ext.c`, lines 4366–4379). -/
def sendDelba (s : BaState) : BaState :=
  (List.range 16).foldl (fun s tid =>
    if s.seq.aggEnableBitmap.testBit tid then
      { s with
        seq := { s.seq with aggEnableBitmap := clrBit s.seq.aggEnableBitmap tid }
        candidateTidBitmap := clrBit s.candidateTidBitmap tid }
    else s) s

/-- What can happen. -/
inductive Op where
  | data (p : QosPkt)
  | issueAddbareqCmd (p : QosPkt) (queued : Bool)
  | addBaHdl (assoc alloc : Bool)
  | dropCmd
  | addbaTimer
  | actionBack (body : Bytes)
  | sendDelba

/-- One step. -/
def step (s : BaState) : Op → BaState
  | .data p => { s with seq := (makeHdr s p).seq }
  | .issueAddbareqCmd p queued => issueAddbareqCmd s p queued
  | .addBaHdl assoc alloc => (addBaHdl s assoc alloc).2
  | .dropCmd => { s with cmds := s.cmds.tail }
  | .addbaTimer => addbaTimerHdl s
  | .actionBack body => onActionBack s body
  | .sendDelba => sendDelba s

/-- A station at its association: the bitmaps are cleared, the counters go on. -/
def BaState.assoc (txseqTid baStartingSeqctrl : ℕ → ℕ) (htOption ampduEnable : Bool)
    (dialogToken : UInt8) : BaState :=
  { seq := { txseqTid, baStartingSeqctrl, ampduEnable }, htOption, dialogToken }

/-! ## What it is for -/

section spec

variable (s₀ : BaState) (ops : List Op) (t : ℕ)

/-- The state before step `k`. -/
def stAt (k : ℕ) : BaState := Run.run step s₀ (ops.take k)

/-- The header that step `k` makes for a frame of the traffic identifier. -/
def sentAt (k : ℕ) : Option WlanhdrResult :=
  match ops[k]? with
  | some (.data p) =>
    if p.attrib.txPriority = t ∧ (makeHdr (stAt s₀ ops k) p).status = .success then
      some (makeHdr (stAt s₀ ops k) p)
    else none
  | _ => none

/-- How many frames of the traffic identifier are sent from step `m` on up to step `k`. -/
def sentFrom (m k : ℕ) : ℕ :=
  (List.range k).countP fun i => m ≤ i ∧ (sentAt s₀ ops t i).isSome

/-- The sequence number in a header. -/
def seqField (hdr : Bytes) : ℕ := getLe16 hdr 22 / 16

/-- The starting sequence number in an ADDBA request. -/
def startField (body : Bytes) : ℕ := getLe16 body 7 / 16

/-- Step `m` sends this ADDBA request for the traffic identifier. -/
def Requests (m : ℕ) (body : Bytes) : Prop :=
  ∃ assoc alloc, ops[m]? = some (.addBaHdl assoc alloc) ∧
    (stAt s₀ ops m).cmds.head? = some t ∧
    (addBaHdl (stAt s₀ ops m) assoc alloc).1 = some body

/-- Step `n` brings an ADDBA response that accepts. -/
def Accepts (n : ℕ) : Prop :=
  ∃ body, ops[n]? = some (.actionBack body) ∧ byteAt body 1 = 1 ∧ respStatus body = 0 ∧
    respTid body = t

/-- Step `n` ends the session: an ADDBA response that refuses, a DELBA of the recipient, or one
    of our own. -/
def Ends (n : ℕ) : Prop :=
  (∃ body, ops[n]? = some (.actionBack body) ∧
    (byteAt body 1 = 1 ∧ respStatus body ≠ 0 ∧ respTid body = t ∨
      byteAt body 1 = 2 ∧ (byteAt body 3).testBit 3 = false ∧ delbaTid body = t)) ∨
  ops[n]? = some .sendDelba

/-- Step `n` accepts and nothing before step `k` ends the session. -/
def OpenSince (n k : ℕ) : Prop := Accepts ops t n ∧ n < k ∧ ∀ j, n < j → j < k → ¬ Ends ops t j

/-- What the frames and the requests of a traffic identifier are to be. -/
structure Agrees : Prop where
  /-- The frames have consecutive numbers. -/
  consecutive : ∀ i j r r', sentAt s₀ ops t i = some r → sentAt s₀ ops t j = some r' → i < j →
    (∀ k, i < k → k < j → sentAt s₀ ops t k = none) →
    seqField r'.hdr = (seqField r.hdr + 1) % 4096
  /-- The request has the number of the next frame. -/
  request : ∀ m body, Requests s₀ ops t m body → startField body < 4096 ∧
    ∀ j r, m < j → sentAt s₀ ops t j = some r →
      (∀ k, m < k → k < j → sentAt s₀ ops t k = none) → seqField r.hdr = startField body
  /-- After a request that was accepted in time every frame is marked, and none lies before the
      starting number: the frames go on from there. -/
  marked : ∀ m n k body r, Requests s₀ ops t m body → m < n → OpenSince ops t n k →
    sentFrom s₀ ops t m n < 2048 → sentAt s₀ ops t k = some r →
    r.attrib.ampduEn = true ∧
      seqField r.hdr = (startField body + sentFrom s₀ ops t m k) % 4096
  /-- Without a session no frame is marked. -/
  unmarked : ∀ k r, sentAt s₀ ops t k = some r → r.attrib.ampduEn = true →
    ∃ n, OpenSince ops t n k

end spec

/-! ## One frame -/

section frame

variable {s : BaState} {p : QosPkt} {a : TxHdrAttrib} {seq : StaTxSeq} {t u tid : ℕ}

theorem setQos_priority (skb : Skb) (a : TxHdrAttrib) : (setQos skb a).txPriority < 8 := by
  have htos := (skb.data.getD (Recv.ethHlen + 1) 0).toNat_lt
  unfold setQos
  dsimp only
  split_ifs <;> omega

theorem qosAcm_lt (acmMask : ℕ) (ht : t < 8) : qosAcm acmMask t < 8 := by
  unfold qosAcm
  split <;> (try split_ifs) <;> omega

/-- What `update_attrib` leaves is a packet of the session, with the settings of the station. -/
theorem updateAttribPacket_session {priv : RtlPriv} {acmMask n : ℕ} {htEn : ℕ → Bool}
    {txpn : ℕ → ℕ} {skb : Skb} {a' : TxHdrAttrib}
    (h : updateAttribPacket priv acmMask htEn txpn skb a = some (a', n)) :
    a'.txPriority < 8 ∧ a'.htEn = htEn a'.psta ∧ a'.ampduEn = false := by
  have hhdr : ∀ b : TxHdrAttrib, (setHdrlen priv acmMask skb b).txPriority < 8 ∧
      (setHdrlen priv acmMask skb b).htEn = b.htEn ∧
      (setHdrlen priv acmMask skb b).psta = b.psta ∧
      (setHdrlen priv acmMask skb b).ampduEn = b.ampduEn := by
    intro b
    unfold setHdrlen
    dsimp only
    split_ifs
    · exact ⟨setQos_priority skb _, rfl, rfl, rfl⟩
    · exact ⟨Nat.zero_lt_succ 7, rfl, rfl, rfl⟩
    · exact ⟨qosAcm_lt acmMask (setQos_priority skb _), rfl, rfl, rfl⟩
    · exact ⟨setQos_priority skb _, rfl, rfl, rfl⟩
    · exact ⟨Nat.zero_lt_succ 7, rfl, rfl, rfl⟩
  unfold updateAttribPacket at h
  dsimp only at h
  split at h
  · cases h
  · split_ifs at h
    obtain ⟨rfl, -⟩ := Prod.mk.inj (Option.some.inj h)
    obtain ⟨hprio, hht, hpsta, hampdu⟩ := hhdr _
    exact ⟨hprio, hht.trans (congrArg htEn hpsta.symm), hampdu⟩

theorem setBit_testBit (bm : ℕ) (ht : t < 8) :
    (setBit bm tid).testBit t = (bm.testBit t || decide (tid = t)) := by
  rw [setBit, Nat.testBit_mod_two_pow, Nat.testBit_or, Nat.one_shiftLeft, Nat.testBit_two_pow,
    decide_eq_true ht, Bool.true_and]

theorem clrBit_testBit (bm : ℕ) (ht : t < 8) :
    (clrBit bm tid).testBit t = (bm.testBit t && !decide (tid = t)) := by
  rw [clrBit, Nat.testBit_and, Nat.testBit_xor, Nat.testBit_mod_two_pow, Nat.one_shiftLeft,
    Nat.testBit_two_pow, show (0xff : ℕ) = 2 ^ 8 - 1 by rfl, Nat.testBit_two_pow_sub_one,
    decide_eq_true ht, Bool.true_and, Bool.true_xor]

theorem and_0xf (ht : t < 8) : t &&& 0xf = t := by
  rw [show (0xf : ℕ) = 2 ^ 4 - 1 by rfl, Nat.and_two_pow_sub_one_eq_mod, Nat.mod_eq_of_lt]
  omega

theorem and_0x07 (ht : t < 8) : t &&& 0x07 = t := by
  rw [show (0x07 : ℕ) = 2 ^ 3 - 1 by rfl, Nat.and_two_pow_sub_one_eq_mod, Nat.mod_eq_of_lt ht]

/-- The number of the next frame. -/
def nextSeq (seq : StaTxSeq) (t : ℕ) : ℕ := (seq.txseqTid t + 1) % 4096

/-- The session of the frame has begun: `SN_LESS` looks at the start that is stored. -/
def begun (seq : StaTxSeq) (t : ℕ) : Bool := !snLess (nextSeq seq t) (seq.baStartingSeqctrl t)

/-- What becomes of a frame and of the counters: the number goes up, and the start follows the
    marked frames. -/
theorem numberPacket_eq (htid : a.txPriority < 8) (hamp : a.ampduEn = false) :
    numberPacket a seq =
      let t := a.txPriority
      let mark := a.htEn && seq.ampduEnable && seq.aggEnableBitmap.testBit t && begun seq t
      ({ a with seqnum := nextSeq seq t, ampduEn := mark },
        { seq with
          txseqTid := Function.update seq.txseqTid t (nextSeq seq t)
          baStartingSeqctrl :=
            if mark then Function.update seq.baStartingSeqctrl t ((nextSeq seq t + 1) % 4096)
            else seq.baStartingSeqctrl }) := by
  have hmod : (seq.txseqTid a.txPriority + 1) % 2 ^ 16 &&& 0xfff = nextSeq seq a.txPriority := by
    rw [Recv.and_0xFFF, nextSeq]
    omega
  unfold numberPacket begun
  simp only [hmod, and_0xf htid, hamp]
  cases a.htEn && seq.ampduEnable && seq.aggEnableBitmap.testBit a.txPriority with
  | false => rfl
  | true =>
    cases snLess (nextSeq seq a.txPriority) (seq.baStartingSeqctrl a.txPriority) with
    | false => simp [Recv.and_0xFFF]
    | true => rfl

/-- Twelve bits of the number go behind the four of the fragment. -/
theorem seqField_setSeqNum {hdr : Bytes} {num : ℕ} (hlen : 24 ≤ hdr.length) :
    seqField (setSeqNum hdr num) = num % 4096 := by
  have hbits : ∀ x : ℕ, ((x &&& 0x000f) ||| (0xfff0 &&& num <<< 4)) / 16 = num % 4096 := by
    intro x
    rw [show (16 : ℕ) = 2 ^ 4 by rfl, ← Nat.shiftRight_eq_div_pow, Nat.shiftRight_or_distrib,
      Nat.shiftRight_and_distrib, Nat.shiftRight_and_distrib, Nat.shiftLeft_shiftRight,
      show 0x000f >>> 4 = 0 by rfl, show 0xfff0 >>> 4 = 0xfff by rfl, Nat.and_zero, Nat.zero_or,
      Nat.and_comm, Recv.and_0xFFF]
  have hsmall : ∀ x : ℕ, (x &&& 0x000f) ||| (0xfff0 &&& num <<< 4) < 2 ^ 16 := fun x =>
    Nat.or_lt_two_pow (Nat.lt_of_le_of_lt Nat.and_le_right (by decide))
      (Nat.lt_of_le_of_lt Nat.and_le_left (by decide))
  rw [seqField, setSeqNum, getLe16_setLe16 (by omega) (hsmall _), hbits]

theorem setFlags_length (a : TxHdrAttrib) (q : Bool) (hdr : Bytes) :
    (setFlags a q hdr).length = hdr.length := by
  unfold setFlags setQosControl setAckpolicy setEOSP setPriority setMData setPrivacy
  dsimp only
  split_ifs <;> simp only [orLe16_length]

/-- A header is made, with the number in it, or nothing changes. -/
theorem makeHdr_cases (s : BaState) (p : QosPkt) :
    (makeHdr s p).status ≠ .success ∧ (makeHdr s p).seq = s.seq ∨
      (makeHdr s p).status = .success ∧
        ((makeHdr s p).attrib, (makeHdr s p).seq) = numberPacket (phyInfo s p.attrib) s.seq ∧
        seqField (makeHdr s p).hdr = nextSeq s.seq p.attrib.txPriority := by
  have hdata : (phyInfo s p.attrib).subtype &&& wifiDataType ≠ 0 := by
    show p.attrib.subtype &&& wifiDataType ≠ 0
    rw [p.qos]
    decide
  have hfail : Recv.Status.fail ≠ .success := fun h => by cases h
  obtain ⟨hlen₀, -⟩ := @setFrameSubType_fields (phyInfo s p.attrib).subtype
    (by show p.attrib.subtype < _; rw [p.qos]; decide)
  unfold makeHdr rtwMakeWlanhdr
  dsimp only
  rw [if_pos hdata]
  cases hsetds : setDs p.priv (phyInfo s p.attrib)
      (setFrameSubType (List.replicate wlanhdrOffset 0) (phyInfo s p.attrib).subtype) with
  | none => exact Or.inl ⟨hfail, rfl⟩
  | some r =>
    obtain ⟨hdr, q⟩ := r
    dsimp only
    cases p.priv.rtwGetStainfo (phyInfo s p.attrib).ra with
    | none => exact Or.inl ⟨hfail, rfl⟩
    | some psta =>
      dsimp only
      split_ifs with hpsta hlinked
      · exact Or.inl ⟨hfail, rfl⟩
      · exact Or.inl ⟨hfail, rfl⟩
      · obtain ⟨hlen₁, -⟩ := setDs_fields (by rw [hlen₀]; decide) hsetds
        refine Or.inr ⟨rfl, rfl, ?_⟩
        have heq := @numberPacket_eq (phyInfo s p.attrib) s.seq p.tid_lt rfl
        rw [seqField_setSeqNum, heq]
        · exact Nat.mod_mod _ _
        · rw [setFlags_length, hlen₁, hlen₀]
          decide

end frame

/-! ## One step -/

section step

variable {s s' : BaState} {p : QosPkt} {op : Op} {body : Bytes} {t tid : ℕ}

/-- Neither the counters change nor what aggregation depends on. -/
structure Kept (s s' : BaState) : Prop where
  ht : s'.htOption = s.htOption
  ampdu : s'.seq.ampduEnable = s.seq.ampduEnable
  txseq : s'.seq.txseqTid = s.seq.txseqTid
  start : s'.seq.baStartingSeqctrl = s.seq.baStartingSeqctrl

theorem Kept.refl (s : BaState) : Kept s s := ⟨rfl, rfl, rfl, rfl⟩

theorem issueAddbareqCmd_kept (s : BaState) (p : QosPkt) (queued : Bool) :
    Kept s (issueAddbareqCmd s p queued) := by
  unfold issueAddbareqCmd
  dsimp only
  split_ifs <;> exact ⟨rfl, rfl, rfl, rfl⟩

theorem addbaTimerHdl_kept (s : BaState) : Kept s (addbaTimerHdl s) := by
  unfold addbaTimerHdl
  split_ifs <;> exact ⟨rfl, rfl, rfl, rfl⟩

theorem onActionBack_kept (s : BaState) (body : Bytes) : Kept s (onActionBack s body) := by
  unfold onActionBack
  split
  · split_ifs <;> exact ⟨rfl, rfl, rfl, rfl⟩
  · split_ifs <;> exact ⟨rfl, rfl, rfl, rfl⟩
  · exact Kept.refl s

theorem sendDelba_kept (s : BaState) : Kept s (sendDelba s) := by
  refine Run.foldl_keep (P := Kept s) (fun s' tid _ h => ?_) (Kept.refl s)
  dsimp only
  split_ifs
  · exact ⟨h.ht, h.ampdu, h.txseq, h.start⟩
  · exact h

/-- The bits that `send_delba` has looked at are clear. -/
theorem sendDelba_bit (s : BaState) (ht : t < 8) :
    (sendDelba s).seq.aggEnableBitmap.testBit t = false := by
  have hfold : ∀ (l : List ℕ) (s : BaState),
      (l.foldl (fun s tid =>
        if s.seq.aggEnableBitmap.testBit tid then
          { s with
            seq := { s.seq with aggEnableBitmap := clrBit s.seq.aggEnableBitmap tid }
            candidateTidBitmap := clrBit s.candidateTidBitmap tid }
        else s) s).seq.aggEnableBitmap.testBit t =
        (s.seq.aggEnableBitmap.testBit t && !decide (t ∈ l)) := by
    intro l
    induction l with
    | nil => exact fun s => (Bool.and_true _).symm
    | cons tid l ih =>
      intro s
      rw [List.foldl_cons, ih]
      by_cases htid : tid = t
      · subst htid
        split_ifs with hbit
        · rw [clrBit_testBit _ ht]
          simp
        · simp [hbit]
      · have hmem : t ∈ tid :: l ↔ t ∈ l := by
          rw [List.mem_cons]
          exact or_iff_right fun h => htid h.symm
        simp only [hmem]
        split_ifs
        · rw [clrBit_testBit _ ht, decide_eq_false htid, Bool.not_false, Bool.and_true]
        · rfl
  have hmem : t ∈ List.range 16 := List.mem_range.mpr (by omega)
  unfold sendDelba
  rw [hfold, decide_eq_true hmem, Bool.not_true, Bool.and_false]

/-- The bits that a block-ack frame sets and clears. -/
theorem onActionBack_bit (s : BaState) (body : Bytes) (ht : t < 8) :
    (onActionBack s body).seq.aggEnableBitmap.testBit t = true ↔
      (byteAt body 1 = 1 ∧ respStatus body = 0 ∧ respTid body = t) ∨
        s.seq.aggEnableBitmap.testBit t = true ∧
          ¬ (byteAt body 1 = 1 ∧ respStatus body ≠ 0 ∧ respTid body = t ∨
            byteAt body 1 = 2 ∧ (byteAt body 3).testBit 3 = false ∧ delbaTid body = t) := by
  have htwo : (2 : ℕ) ≠ 1 := by decide
  unfold onActionBack
  split
  · next hone =>
    rw [hone]
    split_ifs with hok
    · dsimp only
      rw [setBit_testBit _ ht]
      simp only [hok, Bool.or_eq_true, decide_eq_true_eq]
      tauto
    · dsimp only
      rw [clrBit_testBit _ ht]
      simp only [hok, Bool.and_eq_true, Bool.not_eq_true', decide_eq_false_iff_not]
      tauto
  · next htwo' =>
    rw [htwo']
    split_ifs with hini
    · dsimp only
      rw [clrBit_testBit _ ht]
      simp only [hini, Bool.and_eq_true, Bool.not_eq_true', decide_eq_false_iff_not]
      tauto
    · tauto
  · next h1 h2 => tauto

/-- The commands that wait are for frames with a traffic identifier, while aggregation is on. -/
def CmdsOk (s : BaState) : Prop :=
  ∀ tid ∈ s.cmds, tid < 8 ∧ s.htOption = true ∧ s.seq.ampduEnable = true

/-- Headers and requests leave `htOption` and `ampduEnable` alone. -/
theorem step_const (s : BaState) (op : Op) :
    (step s op).htOption = s.htOption ∧ (step s op).seq.ampduEnable = s.seq.ampduEnable := by
  cases op with
  | data p =>
    refine ⟨rfl, ?_⟩
    show (makeHdr s p).seq.ampduEnable = _
    rcases makeHdr_cases s p with ⟨-, hseq⟩ | ⟨-, heq, -⟩
    · rw [hseq]
    · rw [numberPacket_eq (by exact p.tid_lt) rfl] at heq
      rw [(Prod.mk.inj heq).2]
  | issueAddbareqCmd p queued =>
    have h := issueAddbareqCmd_kept s p queued
    exact ⟨h.ht, h.ampdu⟩
  | addBaHdl assoc alloc =>
    show (addBaHdl s assoc alloc).2.htOption = _ ∧ (addBaHdl s assoc alloc).2.seq.ampduEnable = _
    unfold addBaHdl
    split
    · exact ⟨rfl, rfl⟩
    · split_ifs <;> exact ⟨rfl, rfl⟩
  | dropCmd => exact ⟨rfl, rfl⟩
  | addbaTimer =>
    have h := addbaTimerHdl_kept s
    exact ⟨h.ht, h.ampdu⟩
  | actionBack body =>
    have h := onActionBack_kept s body
    exact ⟨h.ht, h.ampdu⟩
  | sendDelba =>
    have h := sendDelba_kept s
    exact ⟨h.ht, h.ampdu⟩

/-- The commands that wait after a step. -/
theorem step_cmds (s : BaState) (op : Op) (h : tid ∈ (step s op).cmds) :
    tid ∈ s.cmds ∨ tid < 8 ∧ s.htOption = true ∧ s.seq.ampduEnable = true := by
  cases op with
  | data p => exact Or.inl h
  | issueAddbareqCmd p queued =>
    change tid ∈ (issueAddbareqCmd s p queued).cmds at h
    unfold issueAddbareqCmd at h
    dsimp only at h
    split_ifs at h with hon hissued hqueued
    · exact Or.inl h
    · rcases List.mem_append.mp h with hold | hnew
      · exact Or.inl hold
      · rw [Bool.and_eq_true] at hon
        rw [List.mem_singleton.mp hnew]
        exact Or.inr ⟨p.tid_lt, hon⟩
    · exact Or.inl h
    · exact Or.inl h
  | addBaHdl assoc alloc =>
    change tid ∈ (addBaHdl s assoc alloc).2.cmds at h
    unfold addBaHdl at h
    split at h
    · exact Or.inl h
    · next tid' rest hcmds =>
      rw [hcmds]
      refine Or.inl (List.mem_cons_of_mem _ ?_)
      split_ifs at h <;> exact h
  | dropCmd => exact Or.inl (List.mem_of_mem_tail h)
  | addbaTimer =>
    change tid ∈ (addbaTimerHdl s).cmds at h
    unfold addbaTimerHdl at h
    split_ifs at h <;> exact Or.inl h
  | actionBack body =>
    change tid ∈ (onActionBack s body).cmds at h
    unfold onActionBack at h
    split at h <;> (try split_ifs at h) <;> exact Or.inl h
  | sendDelba =>
    refine Or.inl ?_
    have hcmds : (sendDelba s).cmds = s.cmds := by
      refine Run.foldl_keep (P := fun s' : BaState => s'.cmds = s.cmds) (fun s' tid _ h => ?_) rfl
      dsimp only
      split_ifs
      · exact h
      · exact h
    exact hcmds ▸ h

theorem step_cmdsOk (h : CmdsOk s) : CmdsOk (step s op) := by
  intro tid htid
  rw [(step_const s op).1, (step_const s op).2]
  rcases step_cmds s op htid with hold | hnew
  · exact h tid hold
  · exact hnew

/-- The request has twelve bits of the number, and the station stores all of it. -/
theorem issueAddbaReq_start (s : BaState) (htid : tid < 8) :
    startField (issueAddbaReq s tid).1 = nextSeq s.seq tid ∧
      (issueAddbaReq s tid).2.seq.baStartingSeqctrl =
        Function.update s.seq.baStartingSeqctrl tid (s.seq.txseqTid tid % 4096 + 1) := by
  have hlt := Nat.mod_lt (s.seq.txseqTid tid) (show 0 < 4096 by decide)
  have hstart : ((s.seq.txseqTid tid &&& 0xfff) + 1) % 2 ^ 16 = s.seq.txseqTid tid % 4096 + 1 := by
    rw [Recv.and_0xFFF]
    omega
  unfold issueAddbaReq
  dsimp only
  rw [and_0x07 htid, hstart]
  refine ⟨?_, rfl⟩
  have hfield : ∀ v < 2 ^ 16, (UInt8.ofNat v).toNat + 256 * (UInt8.ofNat (v / 256)).toNat = v := by
    intro v hv
    simp only [UInt8.toNat_ofNat']
    omega
  show ((UInt8.ofNat _).toNat + 256 * (UInt8.ofNat _).toNat) / 16 = nextSeq s.seq tid
  rw [hfield _ (Nat.mod_lt _ (by decide)), Nat.shiftLeft_eq, nextSeq]
  omega

-- Behind the number 4095 the request starts at 0, and 4096 is stored.
example :
    let r := issueAddbaReq (BaState.assoc (fun _ => 4095) (fun _ => 0) true true 0) 3
    startField r.1 = 0 ∧ r.2.seq.baStartingSeqctrl 3 = 4096 := by decide

/-- How far the next frame is from the start that is stored. -/
def gap (s : BaState) (t : ℕ) : ℕ := fwd 4096 (s.seq.baStartingSeqctrl t) (nextSeq s.seq t)

/-- The traffic identifier is marked while its bit is set. -/
def marks (s : BaState) (t : ℕ) : Bool :=
  s.htOption && s.seq.ampduEnable && s.seq.aggEnableBitmap.testBit t && begun s.seq t

theorem begun_iff (s : BaState) (t : ℕ) : begun s.seq t = true ↔ gap s t < 2048 := by
  have hN : 0 < 4096 := by decide
  have hlt := fwd_lt hN (s.seq.baStartingSeqctrl t) (nextSeq s.seq t)
  unfold begun gap
  rw [Bool.not_eq_true', Bool.eq_false_iff, Ne, snLess_iff]
  by_cases h0 : fwd 4096 (s.seq.baStartingSeqctrl t) (nextSeq s.seq t) = 0
  · have hmod := add_fwd hN (s.seq.baStartingSeqctrl t) (nextSeq s.seq t)
    have hback : fwd 4096 (nextSeq s.seq t) (s.seq.baStartingSeqctrl t) = 0 :=
      fwd_unique hN (by rw [Nat.add_zero, ← hmod, h0, Nat.add_zero])
    rw [h0, hback]
    decide
  · rw [fwd_swap hN h0]
    omega

/-- A frame of the traffic identifier is sent. -/
theorem step_sent (htid : p.attrib.txPriority = t) (hok : (makeHdr s p).status = .success) :
    seqField (makeHdr s p).hdr = nextSeq s.seq t ∧
      (makeHdr s p).attrib.ampduEn = marks s t ∧
      nextSeq (step s (.data p)).seq t = (nextSeq s.seq t + 1) % 4096 ∧
      (step s (.data p)).seq.baStartingSeqctrl t =
        if marks s t then (nextSeq s.seq t + 1) % 4096 else s.seq.baStartingSeqctrl t := by
  subst htid
  rcases makeHdr_cases s p with ⟨hno, -⟩ | ⟨-, heq, hfield⟩
  · exact absurd hok hno
  rw [numberPacket_eq (by exact p.tid_lt) rfl] at heq
  obtain ⟨hattrib, hseq⟩ := Prod.mk.inj heq
  refine ⟨hfield, ?_, ?_, ?_⟩
  · rw [hattrib]
    rfl
  · show nextSeq (makeHdr s p).seq _ = _
    rw [hseq]
    show (Function.update s.seq.txseqTid p.attrib.txPriority (nextSeq s.seq p.attrib.txPriority)
      p.attrib.txPriority + 1) % 4096 = _
    rw [Function.update_self]
  · show (makeHdr s p).seq.baStartingSeqctrl _ = _
    rw [hseq]
    show (if marks s p.attrib.txPriority = true then
      Function.update s.seq.baStartingSeqctrl p.attrib.txPriority _ else _) p.attrib.txPriority = _
    split_ifs
    · exact Function.update_self ..
    · rfl

/-- No frame of the traffic identifier is sent. -/
theorem step_notSent (h : ¬ (p.attrib.txPriority = t ∧ (makeHdr s p).status = .success)) :
    nextSeq (step s (.data p)).seq t = nextSeq s.seq t ∧
      (step s (.data p)).seq.baStartingSeqctrl t = s.seq.baStartingSeqctrl t := by
  show nextSeq (makeHdr s p).seq t = _ ∧ (makeHdr s p).seq.baStartingSeqctrl t = _
  rcases makeHdr_cases s p with ⟨-, hseq⟩ | ⟨hok, heq, -⟩
  · rw [hseq]
    exact ⟨rfl, rfl⟩
  have hne : t ≠ p.attrib.txPriority := fun htid => h ⟨htid.symm, hok⟩
  rw [numberPacket_eq (by exact p.tid_lt) rfl] at heq
  rw [(Prod.mk.inj heq).2]
  constructor
  · show (Function.update s.seq.txseqTid p.attrib.txPriority _ t + 1) % 4096 = _
    rw [Function.update_of_ne hne]
    rfl
  · show (if _ = true then Function.update s.seq.baStartingSeqctrl p.attrib.txPriority _
      else _) t = _
    split_ifs
    · exact Function.update_of_ne hne ..
    · rfl

/-- The command that waits is carried out. -/
theorem addBaHdl_cases (t : ℕ) (assoc alloc : Bool) (hcmds : CmdsOk s) :
    nextSeq (addBaHdl s assoc alloc).2.seq t = nextSeq s.seq t ∧
      ((∃ body, s.cmds.head? = some t ∧ (addBaHdl s assoc alloc).1 = some body ∧
          startField body = nextSeq s.seq t ∧
          (addBaHdl s assoc alloc).2.seq.baStartingSeqctrl t = s.seq.txseqTid t % 4096 + 1) ∨
        (∀ body, ¬ (s.cmds.head? = some t ∧ (addBaHdl s assoc alloc).1 = some body)) ∧
          (addBaHdl s assoc alloc).2.seq.baStartingSeqctrl t = s.seq.baStartingSeqctrl t) := by
  unfold addBaHdl
  cases hs : s.cmds with
  | nil =>
    refine ⟨rfl, Or.inr ⟨?_, rfl⟩⟩
    rintro body ⟨h, -⟩
    cases h
  | cons tid rest =>
    have htid : tid < 8 := (hcmds tid (hs ▸ List.mem_cons_self)).1
    obtain ⟨hfield, hstart⟩ := @issueAddbaReq_start tid { s with cmds := rest } htid
    dsimp only
    split_ifs
    · refine ⟨rfl, ?_⟩
      by_cases htt : tid = t
      · subst htt
        refine Or.inl ⟨_, rfl, rfl, hfield, ?_⟩
        show (issueAddbaReq { s with cmds := rest } tid).2.seq.baStartingSeqctrl tid = _
        rw [hstart]
        exact Function.update_self ..
      · refine Or.inr ⟨?_, ?_⟩
        · rintro body ⟨h, -⟩
          exact htt (Option.some.inj h)
        · rw [hstart]
          exact Function.update_of_ne (Ne.symm htt) ..
    · refine ⟨rfl, Or.inr ⟨?_, rfl⟩⟩
      rintro body ⟨-, h⟩
      cases h
    · refine ⟨rfl, Or.inr ⟨?_, rfl⟩⟩
      rintro body ⟨-, h⟩
      cases h

end step

/-! ## Positions in a run -/

section positions

variable {s₀ : BaState} {ops : List Op} {t i k m n : ℕ} {op : Op} {r : WlanhdrResult}
  {body : Bytes}

theorem stAt_succ (h : ops[k]? = some op) : stAt s₀ ops (k + 1) = step (stAt s₀ ops k) op :=
  Run.run_take_succ h

theorem stAt_end (h : ops[k]? = none) : stAt s₀ ops (k + 1) = stAt s₀ ops k := by
  have hlen := List.getElem?_eq_none_iff.mp h
  unfold stAt
  rw [List.take_of_length_le (Nat.le_succ_of_le hlen), List.take_of_length_le hlen]

theorem sentAt_eq_some :
    sentAt s₀ ops t k = some r ↔ ∃ p, ops[k]? = some (.data p) ∧ p.attrib.txPriority = t ∧
      (makeHdr (stAt s₀ ops k) p).status = .success ∧ r = makeHdr (stAt s₀ ops k) p := by
  unfold sentAt
  constructor
  · intro h
    split at h
    · next p hop =>
      split_ifs at h with hcond
      exact ⟨p, hop, hcond.1, hcond.2, (Option.some.inj h).symm⟩
    · cases h
  · rintro ⟨p, hop, hcond, hok, rfl⟩
    rw [hop]
    exact if_pos ⟨hcond, hok⟩

theorem sentAt_eq_none_of_ne (hop : ops[k]? = some op) (hne : ∀ p, op ≠ .data p) :
    sentAt s₀ ops t k = none := by
  refine Option.eq_none_iff_forall_ne_some.mpr fun r h => ?_
  obtain ⟨p, hp, -⟩ := sentAt_eq_some.mp h
  rw [hop] at hp
  exact hne p (Option.some.inj hp)

/-- What a step can do to a traffic identifier: it sends a frame, which has the next number; it
    requests a session, from the next number on; or it leaves the counters alone. -/
theorem step_cases (s₀ : BaState) (ops : List Op) (t k : ℕ)
    (hcmds : CmdsOk (stAt s₀ ops k)) :
    (∃ r, sentAt s₀ ops t k = some r ∧ seqField r.hdr = nextSeq (stAt s₀ ops k).seq t ∧
        r.attrib.ampduEn = marks (stAt s₀ ops k) t ∧
        nextSeq (stAt s₀ ops (k + 1)).seq t = (nextSeq (stAt s₀ ops k).seq t + 1) % 4096 ∧
        (stAt s₀ ops (k + 1)).seq.baStartingSeqctrl t =
          if marks (stAt s₀ ops k) t then (nextSeq (stAt s₀ ops k).seq t + 1) % 4096
          else (stAt s₀ ops k).seq.baStartingSeqctrl t) ∨
      sentAt s₀ ops t k = none ∧
        nextSeq (stAt s₀ ops (k + 1)).seq t = nextSeq (stAt s₀ ops k).seq t ∧
        ((∃ body, Requests s₀ ops t k body ∧ startField body = nextSeq (stAt s₀ ops k).seq t ∧
            (stAt s₀ ops (k + 1)).seq.baStartingSeqctrl t =
              (stAt s₀ ops k).seq.txseqTid t % 4096 + 1) ∨
          (∀ body, ¬ Requests s₀ ops t k body) ∧
            (stAt s₀ ops (k + 1)).seq.baStartingSeqctrl t =
              (stAt s₀ ops k).seq.baStartingSeqctrl t) := by
  cases hop : ops[k]? with
  | none =>
    have hend := @stAt_end s₀ ops k hop
    refine Or.inr ⟨?_, by rw [hend], Or.inr ⟨?_, by rw [hend]⟩⟩
    · refine Option.eq_none_iff_forall_ne_some.mpr fun r h => ?_
      obtain ⟨p, hp, -⟩ := sentAt_eq_some.mp h
      rw [hop] at hp
      cases hp
    · rintro body ⟨assoc, alloc, h, -⟩
      rw [hop] at h
      cases h
  | some op =>
    have hstep := @stAt_succ s₀ ops k op hop
    have hquiet : (∀ p, op ≠ .data p) → (∀ assoc alloc, op ≠ .addBaHdl assoc alloc) →
        Kept (stAt s₀ ops k) (step (stAt s₀ ops k) op) →
        sentAt s₀ ops t k = none ∧
          nextSeq (stAt s₀ ops (k + 1)).seq t = nextSeq (stAt s₀ ops k).seq t ∧
          (∀ body, ¬ Requests s₀ ops t k body) ∧
          (stAt s₀ ops (k + 1)).seq.baStartingSeqctrl t =
            (stAt s₀ ops k).seq.baStartingSeqctrl t := by
      intro hdata hreq hkept
      rw [hstep]
      refine ⟨sentAt_eq_none_of_ne hop hdata, ?_, ?_, ?_⟩
      · rw [nextSeq, nextSeq, hkept.txseq]
      · rintro body ⟨assoc, alloc, h, -⟩
        rw [hop] at h
        exact hreq assoc alloc (Option.some.inj h)
      · rw [hkept.start]
    cases op with
    | data p =>
      have hnoreq : ∀ body, ¬ Requests s₀ ops t k body := by
        rintro body ⟨assoc, alloc, h, -⟩
        rw [hop] at h
        cases h
      rw [hstep]
      by_cases hsent : p.attrib.txPriority = t ∧ (makeHdr (stAt s₀ ops k) p).status = .success
      · obtain ⟨hfield, hmark, hnext, hstart⟩ := step_sent hsent.1 hsent.2
        refine Or.inl ⟨_, sentAt_eq_some.mpr ⟨p, hop, hsent.1, hsent.2, rfl⟩, ?_⟩
        exact ⟨hfield, hmark, hnext, hstart⟩
      · obtain ⟨hnext, hstart⟩ := step_notSent hsent
        refine Or.inr ⟨?_, hnext, Or.inr ⟨hnoreq, hstart⟩⟩
        refine Option.eq_none_iff_forall_ne_some.mpr fun r h => ?_
        obtain ⟨p', hp', htid, hok, -⟩ := sentAt_eq_some.mp h
        rw [hop] at hp'
        cases hp'
        exact hsent ⟨htid, hok⟩
    | addBaHdl assoc alloc =>
      have hnone := @sentAt_eq_none_of_ne s₀ ops t k _ hop fun p h => by cases h
      obtain ⟨hnext, hreq⟩ := addBaHdl_cases t assoc alloc hcmds
      rw [hstep]
      refine Or.inr ⟨hnone, hnext, ?_⟩
      rcases hreq with ⟨body, hhead, hbody, hfield, hstart⟩ | ⟨hno, hstart⟩
      · exact Or.inl ⟨body, ⟨assoc, alloc, hop, hhead, hbody⟩, hfield, hstart⟩
      · refine Or.inr ⟨?_, hstart⟩
        rintro body ⟨assoc', alloc', h, hhead, hbody⟩
        rw [hop] at h
        cases h
        exact hno body ⟨hhead, hbody⟩
    | issueAddbareqCmd p queued =>
      obtain ⟨h1, h2, h3⟩ := hquiet (fun p h => by cases h) (fun _ _ h => by cases h)
        (issueAddbareqCmd_kept _ p queued)
      exact Or.inr ⟨h1, h2, Or.inr h3⟩
    | dropCmd =>
      obtain ⟨h1, h2, h3⟩ := hquiet (fun p h => by cases h) (fun _ _ h => by cases h)
        ⟨rfl, rfl, rfl, rfl⟩
      exact Or.inr ⟨h1, h2, Or.inr h3⟩
    | addbaTimer =>
      obtain ⟨h1, h2, h3⟩ := hquiet (fun p h => by cases h) (fun _ _ h => by cases h)
        (addbaTimerHdl_kept _)
      exact Or.inr ⟨h1, h2, Or.inr h3⟩
    | actionBack body =>
      obtain ⟨h1, h2, h3⟩ := hquiet (fun p h => by cases h) (fun _ _ h => by cases h)
        (onActionBack_kept _ body)
      exact Or.inr ⟨h1, h2, Or.inr h3⟩
    | sendDelba =>
      obtain ⟨h1, h2, h3⟩ := hquiet (fun p h => by cases h) (fun _ _ h => by cases h)
        (sendDelba_kept _)
      exact Or.inr ⟨h1, h2, Or.inr h3⟩

theorem cmdsOk_run (h : CmdsOk s₀) (k : ℕ) : CmdsOk (stAt s₀ ops k) :=
  Run.foldl_keep (fun _ _ _ h => step_cmdsOk h) h

/-- What aggregation depends on stays as it was at the association. -/
theorem const_run (s₀ : BaState) (ops : List Op) (k : ℕ) :
    (stAt s₀ ops k).htOption = s₀.htOption ∧
      (stAt s₀ ops k).seq.ampduEnable = s₀.seq.ampduEnable :=
  Run.foldl_keep (P := fun s : BaState =>
    s.htOption = s₀.htOption ∧ s.seq.ampduEnable = s₀.seq.ampduEnable)
    (fun s op _ h => ⟨(step_const s op).1.trans h.1, (step_const s op).2.trans h.2⟩) ⟨rfl, rfl⟩

theorem sentFrom_succ (hmk : m ≤ k) :
    sentFrom s₀ ops t m (k + 1) =
      sentFrom s₀ ops t m k + if (sentAt s₀ ops t k).isSome then 1 else 0 := by
  unfold sentFrom
  rw [List.range_succ, List.countP_append, List.countP_singleton]
  simp only [hmk, true_and, decide_eq_true_eq]

theorem sentFrom_eq_zero (h : ∀ i, m ≤ i → i < k → sentAt s₀ ops t i = none) :
    sentFrom s₀ ops t m k = 0 := by
  unfold sentFrom
  rw [List.countP_eq_zero]
  intro i hi hsent
  obtain ⟨hmi, hsome⟩ := of_decide_eq_true hsent
  rw [h i hmi (List.mem_range.mp hi)] at hsome
  cases hsome

theorem sentFrom_self : sentFrom s₀ ops t m m = 0 :=
  sentFrom_eq_zero fun _ hmi him => absurd him (Nat.not_lt.mpr hmi)

theorem nextSeq_mod (seq : StaTxSeq) (t : ℕ) : nextSeq seq t % 4096 = nextSeq seq t :=
  Nat.mod_mod _ _

/-- Every frame that is sent takes a number. -/
theorem nextSeq_run (hcmds : CmdsOk s₀) (hmk : m ≤ k) :
    nextSeq (stAt s₀ ops k).seq t =
      (nextSeq (stAt s₀ ops m).seq t + sentFrom s₀ ops t m k) % 4096 := by
  induction k, hmk using Nat.le_induction with
  | base => rw [sentFrom_self, Nat.add_zero, nextSeq_mod]
  | succ k hmk ih =>
    rw [sentFrom_succ hmk]
    rcases step_cases s₀ ops t k (cmdsOk_run hcmds k) with
      ⟨r, hsent, -, -, hnext, -⟩ | ⟨hnone, hnext, -⟩
    · rw [hnext, hsent, ih, Option.isSome_some, if_pos rfl]
      omega
    · rw [hnext, hnone, ih, Option.isSome_none, if_neg Bool.false_ne_true, Nat.add_zero]

/-- How the distance to the start changes: a marked frame takes the start with it. -/
theorem gap_step (hcmds : CmdsOk s₀) (hgap : gap (stAt s₀ ops k) t < 2048) :
    gap (stAt s₀ ops (k + 1)) t ≤
        gap (stAt s₀ ops k) t + (if (sentAt s₀ ops t k).isSome then 1 else 0) ∧
      (marks (stAt s₀ ops k) t = true → gap (stAt s₀ ops (k + 1)) t < 2048) := by
  have hN : 0 < 4096 := by decide
  unfold gap at hgap ⊢
  rcases step_cases s₀ ops t k (cmdsOk_run hcmds k) with
    ⟨r, hsent, -, -, hnext, hstart⟩ | ⟨hnone, hnext, ⟨body, -, -, hstart⟩ | ⟨-, hstart⟩⟩
  · rw [hnext, hstart, hsent, Option.isSome_some, if_pos rfl]
    by_cases hmark : marks (stAt s₀ ops k) t = true
    · rw [if_pos hmark, fwd_self hN]
      exact ⟨Nat.zero_le _, fun _ => by decide⟩
    · rw [if_neg hmark]
      refine ⟨Nat.le_of_eq (fwd_unique (by omega) ?_), fun h => absurd h hmark⟩
      rw [← Nat.add_assoc, ← Nat.mod_add_mod, add_fwd hN, nextSeq_mod, Nat.mod_mod]
  · have hzero : fwd 4096 ((stAt s₀ ops k).seq.txseqTid t % 4096 + 1)
        (nextSeq (stAt s₀ ops k).seq t) = 0 := by
      refine fwd_unique hN ?_
      rw [Nat.add_zero, Nat.mod_add_mod, nextSeq_mod, nextSeq]
    rw [hnext, hstart, hzero]
    exact ⟨Nat.zero_le _, fun _ => by decide⟩
  · rw [hnext, hstart]
    exact ⟨Nat.le_add_right _ _, fun _ => hgap⟩

/-- Since the request at most the frames that were sent lie between the start and the next
    frame. -/
theorem gap_run (hcmds : CmdsOk s₀) (hmk : m ≤ k) (hzero : gap (stAt s₀ ops m) t = 0)
    (hcount : sentFrom s₀ ops t m k < 2048) :
    gap (stAt s₀ ops k) t ≤ sentFrom s₀ ops t m k := by
  induction k, hmk using Nat.le_induction with
  | base => rw [hzero]; exact Nat.zero_le _
  | succ k hmk ih =>
    rw [sentFrom_succ hmk] at hcount ⊢
    have ih := ih (Nat.lt_of_le_of_lt (Nat.le_add_right _ _) hcount)
    have hgap : gap (stAt s₀ ops k) t < 2048 := by omega
    exact (gap_step hcmds hgap).1.trans (Nat.add_le_add_right ih _)

/-- A response that accepts sets the bit, what ends the session clears it, and nothing else
    changes it. -/
theorem bit_step (ht : t < 8) :
    (stAt s₀ ops (k + 1)).seq.aggEnableBitmap.testBit t = true ↔
      Accepts ops t k ∨
        (stAt s₀ ops k).seq.aggEnableBitmap.testBit t = true ∧ ¬ Ends ops t k := by
  have hquiet : (∀ body, ops[k]? ≠ some (.actionBack body)) → ops[k]? ≠ some .sendDelba →
      (stAt s₀ ops (k + 1)).seq.aggEnableBitmap = (stAt s₀ ops k).seq.aggEnableBitmap →
      ((stAt s₀ ops (k + 1)).seq.aggEnableBitmap.testBit t = true ↔
        Accepts ops t k ∨
          (stAt s₀ ops k).seq.aggEnableBitmap.testBit t = true ∧ ¬ Ends ops t k) := by
    intro hback hdelba heq
    have hacc : ¬ Accepts ops t k := fun ⟨body, h, _⟩ => hback body h
    have hends : ¬ Ends ops t k := by
      rintro (⟨body, h, -⟩ | h)
      · exact hback body h
      · exact hdelba h
    rw [heq, or_iff_right hacc]
    exact (and_iff_left hends).symm
  cases hop : ops[k]? with
  | none =>
    rw [hop] at hquiet
    exact hquiet (fun _ h => by cases h) (fun h => by cases h) (by rw [stAt_end hop])
  | some op =>
    have hstep := @stAt_succ s₀ ops k op hop
    rw [hop] at hquiet
    cases op with
    | actionBack body =>
      rw [hstep]
      have hbit := onActionBack_bit (stAt s₀ ops k) body ht
      have hacc : Accepts ops t k ↔
          byteAt body 1 = 1 ∧ respStatus body = 0 ∧ respTid body = t := by
        constructor
        · rintro ⟨body', h, hrest⟩
          rw [hop] at h
          cases h
          exact hrest
        · exact fun h => ⟨body, hop, h⟩
      have hends : Ends ops t k ↔
          (byteAt body 1 = 1 ∧ respStatus body ≠ 0 ∧ respTid body = t ∨
            byteAt body 1 = 2 ∧ (byteAt body 3).testBit 3 = false ∧ delbaTid body = t) := by
        constructor
        · rintro (⟨body', h, hrest⟩ | h)
          · rw [hop] at h
            cases h
            exact hrest
          · rw [hop] at h
            cases h
        · exact fun h => Or.inl ⟨body, hop, h⟩
      rw [hacc, hends]
      exact hbit
    | sendDelba =>
      have hbit := sendDelba_bit (stAt s₀ ops k) ht
      rw [hstep]
      refine iff_of_false ?_ ?_
      · show ¬ (sendDelba _).seq.aggEnableBitmap.testBit t = true
        rw [hbit]
        exact Bool.false_ne_true
      · rintro (⟨body, h, -⟩ | ⟨-, h⟩)
        · rw [hop] at h
          cases h
        · exact h (Or.inr hop)
    | data p =>
      refine hquiet (fun _ h => by cases h) (fun h => by cases h) ?_
      rw [hstep]
      show (makeHdr _ p).seq.aggEnableBitmap = _
      rcases makeHdr_cases (stAt s₀ ops k) p with ⟨-, hseq⟩ | ⟨-, heq, -⟩
      · rw [hseq]
      · rw [numberPacket_eq (by exact p.tid_lt) rfl] at heq
        rw [(Prod.mk.inj heq).2]
    | issueAddbareqCmd p queued =>
      refine hquiet (fun _ h => by cases h) (fun h => by cases h) ?_
      rw [hstep]
      show (issueAddbareqCmd _ p queued).seq.aggEnableBitmap = _
      unfold issueAddbareqCmd
      dsimp only
      split_ifs <;> rfl
    | addBaHdl assoc alloc =>
      refine hquiet (fun _ h => by cases h) (fun h => by cases h) ?_
      rw [hstep]
      show (addBaHdl _ assoc alloc).2.seq.aggEnableBitmap = _
      unfold addBaHdl
      split
      · rfl
      · split_ifs <;> rfl
    | dropCmd =>
      exact hquiet (fun _ h => by cases h) (fun h => by cases h) (by rw [hstep]; rfl)
    | addbaTimer =>
      refine hquiet (fun _ h => by cases h) (fun h => by cases h) ?_
      rw [hstep]
      show (addbaTimerHdl _).seq.aggEnableBitmap = _
      unfold addbaTimerHdl
      split_ifs <;> rfl

/-- The bit is set exactly in a session. -/
theorem bit_iff (ht : t < 8) (h0 : s₀.seq.aggEnableBitmap.testBit t = false) :
    (stAt s₀ ops k).seq.aggEnableBitmap.testBit t = true ↔ ∃ n, OpenSince ops t n k := by
  have hsince := Run.since_iff (N := k) (S := Accepts ops t) (U := Ends ops t)
    (P := fun n => (stAt s₀ ops n).seq.aggEnableBitmap.testBit t = true)
    (by show ¬ s₀.seq.aggEnableBitmap.testBit t = true; rw [h0]; exact Bool.false_ne_true)
    (fun n _ => bit_step ht) k (Nat.le_refl k)
  rw [hsince]
  exact ⟨fun ⟨n, hn, hacc, hends⟩ => ⟨n, hacc, hn, hends⟩,
    fun ⟨n, hacc, hn, hends⟩ => ⟨n, hn, hacc, hends⟩⟩

/-- A frame of the traffic identifier has the next number and is marked as it should be. -/
theorem sentAt_next (hcmds : CmdsOk s₀) (hsent : sentAt s₀ ops t k = some r) :
    t < 8 ∧ seqField r.hdr = nextSeq (stAt s₀ ops k).seq t ∧
      r.attrib.ampduEn = marks (stAt s₀ ops k) t ∧
      nextSeq (stAt s₀ ops (k + 1)).seq t = (nextSeq (stAt s₀ ops k).seq t + 1) % 4096 := by
  obtain ⟨p, -, rfl, -, -⟩ := sentAt_eq_some.mp hsent
  refine ⟨p.tid_lt, ?_⟩
  rcases step_cases s₀ ops p.attrib.txPriority k (cmdsOk_run hcmds k) with
    ⟨r', hsent', hfield, hmark, hnext, -⟩ | ⟨hnone, -⟩
  · rw [hsent] at hsent'
    cases hsent'
    exact ⟨hfield, hmark, hnext⟩
  · rw [hsent] at hnone
    cases hnone

/-- A request starts at the next frame. -/
theorem requests_next (hcmds : CmdsOk s₀) (hreq : Requests s₀ ops t m body) :
    (stAt s₀ ops m).htOption = true ∧ (stAt s₀ ops m).seq.ampduEnable = true ∧
      sentAt s₀ ops t m = none ∧ startField body = nextSeq (stAt s₀ ops m).seq t ∧
      gap (stAt s₀ ops (m + 1)) t = 0 := by
  have hok := @cmdsOk_run s₀ ops hcmds m
  have hreq' := hreq
  obtain ⟨assoc, alloc, hop, hhead, hbody⟩ := hreq'
  obtain ⟨-, hht, hamp⟩ := hok t (List.mem_of_mem_head? (Option.mem_def.mpr hhead))
  refine ⟨hht, hamp, ?_⟩
  rcases step_cases s₀ ops t m hok with
    ⟨r, hsent, -⟩ | ⟨hnone, hnext, ⟨body', hreq', hfield, hstart⟩ | ⟨hno, -⟩⟩
  · obtain ⟨p, hp, -⟩ := sentAt_eq_some.mp hsent
    rw [hop] at hp
    cases hp
  · obtain ⟨assoc', alloc', hop', -, hbody'⟩ := hreq'
    rw [hop] at hop'
    cases hop'
    rw [hbody] at hbody'
    cases hbody'
    refine ⟨hnone, hfield, ?_⟩
    rw [gap, hstart, hnext]
    refine fwd_unique (by decide) ?_
    rw [Nat.add_zero, Nat.mod_add_mod, nextSeq_mod, nextSeq]
  · exact absurd hreq (hno body)

/-- In a session that was accepted in time the start stays close. -/
theorem gap_open (hcmds : CmdsOk s₀) (ht : t < 8) (h0 : s₀.seq.aggEnableBitmap.testBit t = false)
    (hht : s₀.htOption = true) (hamp : s₀.seq.ampduEnable = true) (hopen : OpenSince ops t n k)
    (hgap : gap (stAt s₀ ops n) t < 2048) : gap (stAt s₀ ops k) t < 2048 := by
  obtain ⟨hacc, hnk, hends⟩ := hopen
  have hfirst : gap (stAt s₀ ops (n + 1)) t < 2048 := by
    obtain ⟨body, hop, -⟩ := hacc
    have hnone := @sentAt_eq_none_of_ne s₀ ops t n _ hop fun p h => by cases h
    have hstep := (gap_step hcmds hgap).1
    rw [hnone, Option.isSome_none, if_neg Bool.false_ne_true, Nat.add_zero] at hstep
    exact Nat.lt_of_le_of_lt hstep hgap
  have hgo : ∀ j, n + 1 ≤ j → j ≤ k → gap (stAt s₀ ops j) t < 2048 := by
    intro j hj
    induction j, hj using Nat.le_induction with
    | base => exact fun _ => hfirst
    | succ j hj ih =>
      intro hjk
      have hgap := ih (Nat.le_of_succ_le hjk)
      have hbit := (bit_iff (k := j) ht h0).mpr
        ⟨n, hacc, hj, fun i hi hij => hends i hi (Nat.lt_trans hij hjk)⟩
      refine (gap_step hcmds hgap).2 ?_
      unfold marks
      rw [(const_run s₀ ops j).1, (const_run s₀ ops j).2, hht, hamp, hbit,
        (begun_iff _ _).mpr hgap]
      rfl
  exact hgo k hnk (Nat.le_refl k)

end positions

/-! ## Every run -/

/-- In every run after an association numbers, requests and aggregation agree, for every traffic
    identifier. -/
theorem agrees_run (txseqTid baStartingSeqctrl : ℕ → ℕ) (htOption ampduEnable : Bool)
    (dialogToken : UInt8) (ops : List Op) (t : ℕ) :
    Agrees (BaState.assoc txseqTid baStartingSeqctrl htOption ampduEnable dialogToken) ops t := by
  have hcmds : CmdsOk (BaState.assoc txseqTid baStartingSeqctrl htOption ampduEnable dialogToken) :=
    fun tid htid => absurd htid List.not_mem_nil
  have h0 : (BaState.assoc txseqTid baStartingSeqctrl htOption ampduEnable
      dialogToken).seq.aggEnableBitmap.testBit t = false := Nat.zero_testBit t
  generalize BaState.assoc txseqTid baStartingSeqctrl htOption ampduEnable dialogToken = s₀
    at hcmds h0 ⊢
  refine ⟨?_, ?_, ?_, ?_⟩
  · intro i j r r' hi hj hij hnone
    obtain ⟨-, hfield, -, hnext⟩ := sentAt_next hcmds hi
    obtain ⟨-, hfield', -, -⟩ := sentAt_next hcmds hj
    have hzero : sentFrom s₀ ops t (i + 1) j = 0 := sentFrom_eq_zero fun k hk => hnone k hk
    rw [hfield', nextSeq_run hcmds hij, hzero, Nat.add_zero, nextSeq_mod, hnext, hfield]
  · intro m body hreq
    obtain ⟨-, -, hsent, hstart, -⟩ := requests_next hcmds hreq
    refine ⟨hstart ▸ Nat.mod_lt _ (by decide), fun j r hmj hj hnone => ?_⟩
    obtain ⟨-, hfield, -, -⟩ := sentAt_next hcmds hj
    have hzero : sentFrom s₀ ops t m j = 0 := by
      refine sentFrom_eq_zero fun k hmk hkj => ?_
      rcases Nat.eq_or_lt_of_le hmk with rfl | hlt
      · exact hsent
      · exact hnone k hlt hkj
    rw [hfield, nextSeq_run hcmds hmj.le, hzero, Nat.add_zero, nextSeq_mod, hstart]
  · intro m n k body r hreq hmn hopen hcount hk
    obtain ⟨hht, hamp, hsent, hstart, hgap⟩ := requests_next hcmds hreq
    obtain ⟨ht, hfield, hmark, -⟩ := sentAt_next hcmds hk
    rw [(const_run s₀ ops m).1] at hht
    rw [(const_run s₀ ops m).2] at hamp
    have hmk : m < k := Nat.lt_trans hmn hopen.2.1
    have hcount' : sentFrom s₀ ops t (m + 1) n < 2048 := by
      refine Nat.lt_of_le_of_lt (List.countP_mono_left fun i _ hi => ?_) hcount
      obtain ⟨hmi, hsome⟩ := of_decide_eq_true hi
      exact decide_eq_true ⟨Nat.le_of_succ_le hmi, hsome⟩
    have hgapn : gap (stAt s₀ ops n) t < 2048 :=
      Nat.lt_of_le_of_lt (gap_run hcmds hmn hgap hcount') hcount'
    have hgapk := gap_open hcmds ht h0 hht hamp hopen hgapn
    have hbit := (bit_iff ht h0).mpr ⟨n, hopen⟩
    refine ⟨?_, by rw [hfield, nextSeq_run hcmds hmk.le, hstart]⟩
    rw [hmark, marks, (const_run s₀ ops k).1, (const_run s₀ ops k).2, hht, hamp, hbit,
      (begun_iff _ _).mpr hgapk]
    rfl
  · intro k r hk hmarked
    obtain ⟨ht, -, hmark, -⟩ := sentAt_next hcmds hk
    refine (bit_iff ht h0).mp ?_
    rw [hmark, marks, Bool.and_eq_true, Bool.and_eq_true] at hmarked
    exact hmarked.1.2

end Rtl8821au.Xmit.TxBlockAck
