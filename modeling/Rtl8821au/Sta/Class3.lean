import Rtl8821au.Recv.Indicate
import Rtl8821au.Sta.Depart

/-!
# Data frames at the access point

An access point answers a data frame of a station that is not associated with a
deauthentication, "class 3 frame received from nonassociated station": `sta2ap_data_frame`
and `sta2sta_data_frame` (`rtw_recv.c`) ask whether the station has a record. Records come
with the first authentication frame.

* `apSysStep`: the access point, its station table and its receive path.
* `apCheck`: what the address checks let through under `DataOk`.
* `assocOnly_of_run`: only associated stations are heard, in a run that meets `ApOk`.
-/

namespace Rtl8821au.Sta

open Recv Places Run
open Security (frameOf)

/-! ## The access point -/

/-- The settings `base` with the stations of the table. -/
def apPriv (base : RtlPriv) (s : StaPriv) : RtlPriv :=
  { base with lookup := s.rtwGetStainfo, bcmc := s.rtwGetBcmcStainfo.getD numSta }

structure ApState where
  sta : StaPriv
  iface : Iface

/-- A management frame or a tick, a received frame, an expiry of a reorder timer, or a
    change of a block-ack session. -/
inductive ApOp where
  | mgnt (base : RtlPriv) (cfg : ApConfig) (e : ApEvent)
  | recv (base : RtlPriv) (drv : DriverState) (pstaAddr : Option MacAddr) (mickey : Bytes)
      (f : RecvFrame)
  | timeout (base : RtlPriv) (drv : DriverState) (psta tid : ℕ)
  | blockAck (op : StaQueueOp)

/-- What an event does to the receive queues. -/
def queueOps (priv : RtlPriv) (cfg : ApConfig) (s : StaPriv) (e : ApEvent) : List StaQueueOp :=
  (allocated priv cfg s e).map .rtwAllocStainfo ++ (released priv cfg s e).map .rtwFreeStainfo

/-- One step of the access point. -/
def apSysStep (s : ApState) : ApOp → ApState
  | .mgnt base cfg e =>
    { sta := apStep base cfg s.sta e
      iface := { s.iface with
        rx := (queueOps base cfg s.sta e).foldl staQueueStep s.iface.clear } }
  | .recv base drv pstaAddr mickey f =>
    { s with iface :=
        ifaceStep { s.iface with priv := apPriv base s.sta } (.recv drv pstaAddr mickey [] f) }
  | .timeout base drv psta tid =>
    { s with iface :=
        ifaceStep { s.iface with priv := apPriv base s.sta } (.timeout drv psta tid) }
  | .blockAck op => { s with iface := ifaceStep s.iface (.sta op) }

/-! ## The property -/

/-- The station with the address has a record in state `WIFI_FW_ASSOC_SUCCESS`. -/
def associated (s : StaPriv) (a : MacAddr) : Bool :=
  match s.rtwGetStainfo a with
  | some psta => (s.sta psta).state.assocSuccess
  | none => false

/-- The power-save state and the sleep queue of associated stations change. -/
def EffectOk (s : StaPriv) : RxEffect → Prop
  | .issueDeauth _ => True
  | .processPwrbitData psta _ | .processWmmpsData psta _ =>
    (s.sta psta).state.assocSuccess = true

/-- What a step passes on and changes is on behalf of an associated station, and the frame
    of another is refused. -/
structure AssocOnly (s : ApState) (op : ApOp) : Prop where
  delivered : ∀ d ∈ (apSysStep s op).iface.delivered,
    associated (apSysStep s op).sta d.1.attrib.ta = true
  effects : ∀ x, RxOut.effect x ∈ (apSysStep s op).iface.rx.log →
    EffectOk (apSysStep s op).sta x
  accepted : ∀ base drv pstaAddr mickey f, op = .recv base drv pstaAddr mickey f →
    ∀ s' f', validateRecvFrame
        (Iface.env { s.iface with priv := apPriv base s.sta } drv pstaAddr mickey)
        s.iface.clear [] f = (s', .success, f') →
      associated s.sta f'.attrib.ta = true

/-- The interface is an access point. -/
structure ApMode (priv : RtlPriv) : Prop where
  ap : priv.fwState.ap = true
  station : priv.fwState.station = false
  adhoc : priv.fwState.adhoc = false
  adhocMaster : priv.fwState.adhocMaster = false

def InApMode : ApOp → Prop
  | .recv base _ _ _ _ => ApMode base
  | .mgnt _ _ _ | .timeout _ _ _ _ | .blockAck _ => True

/-! ## The condition -/

/-- The header of a received frame, with its addresses. -/
def rxAddresses (f : RecvFrame) : RxPktAttrib :=
  let f := f.setAttrib (parseHeader f)
  setAddresses (f.setAttrib (parseQos f))

/-- A station whose frame is addressed to the access point is associated if it has a
    record; and so is one that sends to a group without DS bits under a group BSSID. -/
def DataOk (priv : RtlPriv) (s : StaPriv) (a : RxPktAttrib) : Prop :=
  match a.toFrDs with
  | 0 =>
    if isMulticast a.dst then isMulticast a.bssid = true → associated s a.src = true
    else a.bssid = a.dst → (priv.rtwGetStainfo a.src).isSome = true → associated s a.src = true
  | 2 =>
    a.bssid = priv.mybssid → (priv.rtwGetStainfo a.src).isSome = true →
      associated s a.src = true
  | _ => True

/-- The condition on a step. With a frame in a reorder queue its sender is refused no
    request, and does not leave the table if the queue is not its own. -/
def ApOk (s : ApState) : ApOp → Prop
  | .mgnt base cfg e => ∀ psta tid, ∀ f ∈ (s.iface.rx.recvreorderCtrl psta tid).pending, ∀ x,
      s.sta.rtwGetStainfo f.attrib.ta = some x →
        ¬Refused base cfg s.sta e x ∧ (x ≠ psta → ¬Departs base cfg s.sta e x)
  | .recv base _ _ _ f =>
    frameVersion f = 0 → getFrameType f = .data →
      DataOk (apPriv base s.sta) s.sta (rxAddresses f)
  | .timeout _ _ _ _ | .blockAck _ => True

/-! ## Lookup -/

section lookup

variable {s : StaPriv} {a : MacAddr} {psta : ℕ}

theorem associated_iff : associated s a = true ↔
    ∃ psta, s.rtwGetStainfo a = some psta ∧ (s.sta psta).state.assocSuccess = true := by
  unfold associated
  cases s.rtwGetStainfo a with
  | none => simp
  | some psta => simp

/-- The data path finds the record of the table. -/
theorem apPriv_rtwGetStainfo (base : RtlPriv) (h : s.rtwGetStainfo a = some psta) :
    (apPriv base s).rtwGetStainfo a = some psta := by
  unfold RtlPriv.rtwGetStainfo
  split_ifs with hm
  · have hbc : s.rtwGetBcmcStainfo = some psta := by
      rw [← h]
      apply rtwGetStainfo_congr
      unfold StaPriv.lookupAddr
      rw [if_pos hm, if_pos (by decide)]
    show some (s.rtwGetBcmcStainfo.getD numSta) = some psta
    rw [hbc]
    rfl
  · exact h

end lookup

/-! ## The address checks -/

section check

variable {base : RtlPriv} {s : StaPriv}

theorem associated_congr {a b : MacAddr} (h : StaPriv.lookupAddr a = StaPriv.lookupAddr b) :
    associated s a = associated s b := by
  unfold associated
  rw [rtwGetStainfo_congr h]

/-- The data path works on the record of an associated station. -/
theorem associated_found {a : MacAddr} {psta : ℕ} (ha : associated s a = true)
    (hp : (apPriv base s).rtwGetStainfo a = some psta) :
    s.rtwGetStainfo a = some psta ∧ (s.sta psta).state.assocSuccess = true := by
  obtain ⟨x, hx, hs⟩ := associated_iff.mp ha
  rw [apPriv_rtwGetStainfo base hx] at hp
  obtain rfl := Option.some.inj hp
  exact ⟨hx, hs⟩

/-- Without DS bits and with To-DS the transmitter is the source. -/
theorem setAddresses_ta {f : RecvFrame} (h : f.attrib.toFrDs = 0 ∨ f.attrib.toFrDs = 2) :
    (setAddresses f).ta = (setAddresses f).src := by
  rcases h with h | h <;> simp [setAddresses, h]

/-- A frame without DS bits. -/
theorem sta2sta_ok {f : RecvFrame} (hmode : ApMode base) (h0 : f.attrib.toFrDs = 0)
    (hok : DataOk (apPriv base s) s f.attrib) :
    (sta2staDataFrame (apPriv base s) f).effects = [] ∧
      ((sta2staDataFrame (apPriv base s) f).status = .success →
        associated s f.attrib.src = true) := by
  unfold DataOk at hok
  rw [h0] at hok
  unfold sta2staDataFrame
  dsimp only
  rw [if_neg (by simp [apPriv, hmode.adhoc, hmode.adhocMaster]),
    if_neg (by simp [apPriv, hmode.station]), if_pos (show (apPriv base s).fwState.ap = true from
    hmode.ap)]
  cases hdst : isMulticast f.attrib.dst with
  | true =>
    rw [hdst, if_pos rfl] at hok
    rw [if_pos rfl]
    cases hbssid : isMulticast f.attrib.bssid with
    | true => exact ⟨rfl, fun _ => hok hbssid⟩
    | false => exact ⟨rfl, nofun⟩
  | false =>
    rw [hdst, if_neg Bool.false_ne_true] at hok
    rw [if_neg Bool.false_ne_true]
    by_cases hto : f.attrib.bssid = f.attrib.dst
    · rw [if_neg (not_not_intro hto), if_neg Bool.false_ne_true]
      refine ⟨rfl, fun hs => hok hto ?_⟩
      by_contra hno
      rw [foundSta, if_neg hno] at hs
      cases hs
    · rw [if_pos hto]
      exact ⟨rfl, nofun⟩

/-- A frame to the distribution system. -/
theorem sta2ap_ok {f : RecvFrame} (hmode : ApMode base) (h2 : f.attrib.toFrDs = 2)
    (hok : DataOk (apPriv base s) s f.attrib) :
    (∀ x ∈ (sta2apDataFrame (apPriv base s) f).effects, EffectOk s x) ∧
      ((sta2apDataFrame (apPriv base s) f).status = .success →
        associated s f.attrib.src = true) := by
  unfold DataOk at hok
  rw [h2] at hok
  unfold sta2apDataFrame
  dsimp only
  rw [if_pos (show (apPriv base s).fwState.ap = true from hmode.ap)]
  by_cases hbssid : f.attrib.bssid = (apPriv base s).mybssid
  · rw [if_neg (not_not_intro hbssid)]
    cases hp : (apPriv base s).rtwGetStainfo f.attrib.src with
    | none =>
      refine ⟨fun x hx => ?_, nofun⟩
      rw [List.mem_singleton.mp hx]
      trivial
    | some psta =>
      have ha := hok hbssid (by rw [hp]; rfl)
      have hpsta := (associated_found ha hp).2
      refine ⟨fun x hx => ?_, fun _ => ha⟩
      rcases List.mem_cons.mp hx with rfl | hx
      · exact hpsta
      · split_ifs at hx
        · rw [List.mem_singleton.mp hx]
          exact hpsta
        · exact absurd hx List.not_mem_nil
  · rw [if_pos hbssid]
    exact ⟨fun x hx => absurd hx List.not_mem_nil, nofun⟩

/-- What the address checks of an access point let through, and what they do. -/
theorem apCheck {f : RecvFrame} (hmode : ApMode base)
    (hok : DataOk (apPriv base s) s (setAddresses f)) :
    (∀ x ∈ (dataFrameCheck (apPriv base s) (f.setAttrib (setAddresses f))).effects,
      EffectOk s x) ∧
    ((dataFrameCheck (apPriv base s) (f.setAttrib (setAddresses f))).status = .success →
      associated s (setAddresses f).ta = true) := by
  have hds : (f.setAttrib (setAddresses f)).attrib.toFrDs = f.attrib.toFrDs := rfl
  unfold dataFrameCheck
  rw [hds]
  split
  · next h0 =>
    obtain ⟨heffects, hstatus⟩ := sta2sta_ok (f := f.setAttrib (setAddresses f)) hmode h0 hok
    rw [setAddresses_ta (Or.inl h0), heffects]
    exact ⟨fun x hx => absurd hx List.not_mem_nil, hstatus⟩
  · unfold ap2staDataFrame
    dsimp only
    rw [if_neg (by simp [apPriv, hmode.station]), if_pos (show (apPriv base s).fwState.ap = true
      from hmode.ap)]
    exact ⟨fun x hx => absurd hx List.not_mem_nil, nofun⟩
  · next h2 =>
    rw [setAddresses_ta (Or.inr h2)]
    exact sta2ap_ok (f := f.setAttrib (setAddresses f)) hmode h2 hok
  · exact ⟨fun x hx => absurd hx List.not_mem_nil, nofun⟩

end check

/-! ## Through the receive path -/

/-- What holds where a frame enters `recv_func_posthandle`. -/
def ApIn (s : StaPriv) (f : RecvFrame) : Prop :=
  f.attrib.priority < 16 ∧ associated s f.attrib.ta = true

/-- What holds of the frames in the queues. A fragment waits at a record with the address
    of its transmitter. -/
def ApPlace (s : StaPriv) : Loc → RecvFrame → Prop
  | .pool, _ | .hand, _ => True
  | .ucSwdec, _ => False
  | .defragQ psta, f => f.attrib.priority < 16 ∧
      (s.sta psta).hwaddr = StaPriv.lookupAddr f.attrib.ta
  | .reorder _ tid, f => tid < 16 ∧ associated s f.attrib.ta = true

def ApEventOk (s : StaPriv) (e : RecvEvent) : Prop := associated s e.frame.attrib.ta = true

section path

variable {base : RtlPriv} {s : StaPriv}

/-- An accepted frame is from an associated station. -/
theorem apAccepted (base : RtlPriv) {env : RecvEnv} {f : RecvFrame} (henv : env.priv = apPriv base s)
    (hmode : ApMode base)
    (hok : frameVersion f = 0 → getFrameType f = .data →
      DataOk (apPriv base s) s (rxAddresses f)) :
    AcceptedAs env (ApIn s) (ApPlace s) (EffectOk s) f := by
  intro hver htype tidRxseq
  have hcheck := apCheck hmode (hok hver htype)
  rw [henv]
  dsimp only
  refine ⟨fun x hx => ?_, fun hsuccess => ?_⟩
  · rw [validateRecvDataFrame_effects] at hx
    exact hcheck.1 x hx
  · obtain ⟨psta, hsucc, -, hframe⟩ := validateRecvDataFrame_success hsuccess
    rw [hframe, if_neg]
    · refine ⟨?_, ?_⟩
      · show (setSecurity (apPriv base s) psta _).priority < 16
        rw [setSecurity_priority]
        exact parseQosControl_priority_lt _
      · show associated s (setSecurity (apPriv base s) psta _).ta = true
        rw [setSecurity_ta, parseQosControl_ta]
        exact hcheck.2 hsucc
    · simp [parks, apPriv, hmode.station]

/-- The record at which a fragment waits has the address of its transmitter. -/
theorem defragSta_hwaddr {g : RecvFrame} {psta : ℕ} (hs : ApTable s)
    (ha : associated s g.attrib.ta = true) (hsta : defragSta (apPriv base s) g = some psta) :
    (s.sta psta).hwaddr = StaPriv.lookupAddr g.attrib.ta := by
  obtain ⟨x, hx, -⟩ := associated_iff.mp ha
  unfold defragSta at hsta
  rw [apPriv_rtwGetStainfo base hx] at hsta
  obtain rfl := Option.some.inj hsta
  exact (hs.found hx).2

theorem ap_stages (base : RtlPriv) {env : RecvEnv} (henv : env.priv = apPriv base s) (hs : ApTable s) :
    Stages env (ApIn s) (ApPlace s) (fun _ _ => True) (ApEventOk s) where
  unpark f hf := hf.elim
  defragQ rx f g psta _ hf hret _ hsta := by
    obtain ⟨keyIndex, hattrib⟩ := decryptor_attrib hret
    rw [henv] at hsta
    have hta : g.attrib.ta = f.attrib.ta := by rw [hattrib]
    have hprio : g.attrib.priority = f.attrib.priority := by rw [hattrib]
    exact ⟨hprio ▸ hf.1, defragSta_hwaddr hs (by rw [hta]; exact hf.2) hsta⟩
  pass rx f g k hQ _ hf hret hk _ := by
    obtain ⟨keyIndex, hattrib⟩ := decryptor_attrib hret
    have hg : ApIn s g := by
      unfold ApIn
      rw [hattrib]
      exact hf
    have hk' : ApIn s k := by
      rcases recvframeChkDefrag_madeOf hk with ⟨-, -, -, icvLen, hmade⟩ | ⟨-, pr, hpr, -, -, icvLen, hmade⟩
      · unfold ApIn
        rw [hmade]
        exact hg
      · unfold ApIn
        rw [hmade]
        cases hsta : defragSta env.priv g with
        | none =>
          rw [hsta] at hpr
          exact absurd hpr List.not_mem_nil
        | some psta =>
          rw [hsta] at hpr
          obtain ⟨hprio, haddr⟩ := hQ (.defragQ psta) pr hpr
          rw [henv] at hsta
          rw [defragSta_hwaddr hs hg.2 hsta] at haddr
          exact ⟨hprio, (associated_congr haddr).symm.trans hg.2⟩
    refine ⟨⟨hk'.1, ?_⟩, fun _ => ?_⟩
    · rw [msduOf_ta]
      exact hk'.2
    · show associated s (wlanhdrToEthhdr k).attrib.ta = true
      rw [wlanhdrToEthhdr_attrib]
      exact hk'.2
  event psta tid f hf := by
    unfold ApEventOk
    rw [indicateOne_frame]
    exact hf.2

end path

/-! ## Runs -/

/-- What holds between the steps. -/
structure ApInv (s : ApState) : Prop where
  table : ApTable s.sta
  queued : Queued (ApPlace s.sta) s.iface.rx

/-- An event keeps the association of the stations with frames in their reorder queues, or
    empties the queues. -/
theorem mgnt_place {s : ApState} {base : RtlPriv} {cfg : ApConfig} {e : ApEvent}
    (hok : ApOk s (.mgnt base cfg e)) (hi : ApInv s) :
    Queued (ApPlace (apStep base cfg s.sta e)) (apSysStep s (.mgnt base cfg e)).iface.rx := by
  have hpass := apStep_passed base cfg e hi.table
  have hQ : Queued (fun l f => ApPlace s.sta l f ∧ f ∈ s.iface.rx.held [] l) s.iface.clear := by
    intro l f hf
    have hmem : f ∈ s.iface.rx.held [] l := by
      cases l <;> exact hf
    exact ⟨hi.queued l f hmem, hmem⟩
  refine (hQ.staQueueSteps_empties (queueOps base cfg s.sta e)).mono ?_
  rintro l f ⟨⟨hplace, hmem⟩, hkept⟩
  cases l with
  | pool => trivial
  | hand => trivial
  | ucSwdec => exact hplace
  | defragQ psta =>
    have hnew : psta ∉ allocated base cfg s.sta e := fun hnew =>
      hkept _ (List.mem_append_left _ (List.mem_map_of_mem hnew)) rfl
    exact ⟨hplace.1, (hpass.hwaddr psta hnew).trans hplace.2⟩
  | reorder psta tid =>
    obtain ⟨htid, ha⟩ := hplace
    obtain ⟨x, hx, hs⟩ := associated_iff.mp ha
    obtain ⟨hp, haddr⟩ := hi.table.found hx
    obtain ⟨hrefused, hdeparts⟩ := hok psta tid f hmem x hx
    have hnew : x ∉ allocated base cfg s.sta e := hi.table.not_mem_allocated hp
    have hp' : Placed (apStep base cfg s.sta e).staHash x := by
      by_contra hout
      have hback := hi.table.mem_released hp hout
      by_cases hxp : x = psta
      · subst hxp
        exact hkept _ (List.mem_append_right _ (List.mem_map_of_mem hback)) ⟨rfl, htid⟩
      · exact hout (hpass.placed x hnew (hdeparts hxp) hp)
    refine ⟨htid, associated_iff.mpr ⟨x, hpass.table.lookup hp' ?_, ?_⟩⟩
    · rw [hpass.hwaddr x hnew, haddr]
    · exact hpass.assocSuccess x hnew hrefused hs

theorem apSysStep_sound {s : ApState} {op : ApOp} (hmode : InApMode op) (hok : ApOk s op)
    (hi : ApInv s) : ApTable (apSysStep s op).sta ∧
      Sound (ApPlace (apSysStep s op).sta) (ApEventOk (apSysStep s op).sta)
        (EffectOk (apSysStep s op).sta) (apSysStep s op).iface.rx := by
  cases op with
  | mgnt base cfg e =>
    refine ⟨(apStep_passed base cfg e hi.table).table, mgnt_place hok hi, ?_⟩
    exact Logged.staQueueSteps ⟨fun e he => absurd he List.not_mem_nil,
      fun x hx => absurd hx List.not_mem_nil⟩ _
  | recv base drv pstaAddr mickey f =>
    refine ⟨hi.table, (ap_stages base rfl hi.table).recvbuf2recvframe
      (Iface.sound_clear hi.queued)
      (fun addr skb => apAccepted base rfl hmode hok) fun _ _ => trivial⟩
  | timeout base drv psta tid =>
    refine ⟨hi.table, (Iface.sound_clear hi.queued).timeout psta tid fun _ f hf => ?_⟩
    unfold ApEventOk
    rw [indicateOne_frame]
    exact hf.2
  | blockAck op =>
    exact ⟨hi.table, (Iface.sound_clear hi.queued).staQueueStep op⟩

theorem ApInv.assocOnly {s : ApState} {op : ApOp} (hmode : InApMode op) (hok : ApOk s op)
    (hi : ApInv s) : AssocOnly s op where
  delivered := by
    rintro ⟨f, c⟩ hd
    obtain ⟨e, he, rfl, -⟩ := Iface.mem_delivered.mp hd
    exact (apSysStep_sound hmode hok hi).2.2.1 e he
  effects := (apSysStep_sound hmode hok hi).2.2.2
  accepted := by
    rintro base drv pstaAddr mickey f rfl s' f' hv
    have haccepted : AcceptedAs
        (Iface.env { s.iface with priv := apPriv base s.sta } drv pstaAddr mickey)
        (ApIn s.sta) (ApPlace s.sta) (EffectOk s.sta) f := apAccepted base rfl hmode hok
    obtain ⟨hver, htype, hsuccess, hframe⟩ := validateRecvFrame_success hv
    have hin := (haccepted hver htype s.iface.clear.tidRxseq).2 hsuccess
    rw [hframe, if_neg (by simp [parks, Iface.env, apPriv, hmode.station])] at hin
    exact hin.2

/-- An access point takes data from associated stations only, in every run whose steps meet
    the condition. -/
theorem assocOnly_of_run (base : RtlPriv) (ops : List ApOp) (hmode : ∀ op ∈ ops, InApMode op)
    (hok : Guarded apSysStep ApOk { sta := rtwInitAp, iface := { priv := base } } ops) :
    Guarded apSysStep AssocOnly { sta := rtwInitAp, iface := { priv := base } } ops := by
  have hmode' : Guarded apSysStep (fun _ op => InApMode op)
      { sta := rtwInitAp, iface := { priv := base } } ops := guarded_of_forall _ hmode
  have hboth := hmode'.and hok
  refine hboth.of_invariant (fun s op hc (hi : ApInv s) => ?_)
    (fun s op hc hi => hi.assocOnly hc.1 hc.2) ⟨apTable_initAp, fun l f hf => ?_⟩
  · obtain ⟨htable, hsound⟩ := apSysStep_sound hc.1 hc.2 hi
    exact ⟨htable, hsound.1⟩
  · cases l <;> exact absurd hf List.not_mem_nil

/-! ### One station -/

/-- An access point with the address zero. -/
def apMode : RtlPriv := { fwState := { ap := true } }

/-- A data frame of the station of `authRequest` to the access point. -/
def dataFrame : RecvFrame :=
  frameOf .noPrivacy 0 ([0x08, 0x01, 0, 0] ++ List.replicate 6 0 ++ List.replicate 6 2 ++
    List.replicate 6 0 ++ [0, 0] ++ [0xaa, 0xaa, 3, 0, 0, 0, 8, 0])

/-- The station associates and sends. -/
def associatedSend : List ApOp :=
  [.mgnt apMode openAp (.auth authRequest), .mgnt apMode openAp (.assocReq assocRequest),
    .recv apMode {} none [] dataFrame]

theorem assocOnly_of_associatedSend :
    Guarded apSysStep AssocOnly { sta := rtwInitAp, iface := { priv := apMode } }
      associatedSend := by
  have hap : ApMode apMode := ⟨rfl, rfl, rfl, rfl⟩
  have hnone : Queued (fun _ _ => False) (Iface.clear { priv := apMode }) := by
    intro l f hf
    cases l <;> exact absurd hf List.not_mem_nil
  have hempty : ∀ ops : List StaQueueOp, Queued (fun _ _ => False)
      (ops.foldl staQueueStep (Iface.clear { priv := apMode })) :=
    fun ops => hnone.staQueueSteps ops
  refine assocOnly_of_run apMode associatedSend ?_ ⟨?_, ?_, ?_, trivial⟩
  · exact List.forall_mem_cons.mpr ⟨trivial, List.forall_mem_cons.mpr ⟨trivial,
      List.forall_mem_cons.mpr ⟨hap, List.forall_mem_nil _⟩⟩⟩
  · exact fun psta tid f hf => (hnone (.reorder psta tid) f hf).elim
  · exact fun psta tid f hf => (hempty _ (.reorder psta tid) f hf).elim
  · intro _ _
    have hds : (rxAddresses dataFrame).toFrDs = 2 := by decide +kernel
    have hassoc : associated (apStep apMode openAp (apStep apMode openAp rtwInitAp
        (.auth authRequest)) (.assocReq assocRequest)) (rxAddresses dataFrame).src = true := by
      decide +kernel
    unfold DataOk
    rw [hds]
    exact fun _ _ => hassoc

/-- A station that has only authenticated sends data. -/
theorem authenticated_sends_data : ¬ ∀ (base : RtlPriv) (ops : List ApOp),
    (∀ op ∈ ops, InApMode op) →
      Guarded apSysStep AssocOnly { sta := rtwInitAp, iface := { priv := base } } ops := by
  intro h
  have hrun := h apMode
    [.mgnt apMode openAp (.auth authRequest), .recv apMode {} none [] dataFrame]
    (List.forall_mem_cons.mpr ⟨trivial, List.forall_mem_cons.mpr ⟨⟨rfl, rfl, rfl, rfl⟩,
      List.forall_mem_nil _⟩⟩)
  have hdata : ∃ d ∈ (apSysStep (apSysStep { sta := rtwInitAp, iface := { priv := apMode } }
      (.mgnt apMode openAp (.auth authRequest)))
        (.recv apMode {} none [] dataFrame)).iface.delivered,
      associated (apStep apMode openAp rtwInitAp (.auth authRequest)) d.1.attrib.ta = false := by
    decide +kernel
  obtain ⟨d, hd, hno⟩ := hdata
  have hyes := hrun.2.1.delivered d hd
  exact Bool.false_ne_true (hno.symm.trans hyes)

end Rtl8821au.Sta
