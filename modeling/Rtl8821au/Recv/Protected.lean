import Rtl8821au.Recv.Portctrl

/-!
# Protected links

What a station delivers once its pairwise key is installed and its port is open. Whether a
frame is decrypted depends on its Protected bit alone: `validate_recv_data_frame` sets
`encrypt` to `_NO_PRIVACY_` without it, and nothing behind `decryptor` asks again, though
`portctrl` has a comment where it should ("check decryption status").

* `Decrypted`, `Assembled`: where the bytes of a frame come from, in terms of the calls of
  `recv_func_posthandle` so far.
* `link_stages`: the receive path under `CallOk`.
* `linkProtected_of_run`: what a run that meets `LinkOk` delivers.
-/

namespace Rtl8821au.Recv

open Run

/-! ## Where the bytes come from -/

/-- A call of `recv_func_posthandle`, with what its `decryptor` reads. -/
structure PosthandleCall where
  priv : RtlPriv
  message : Bytes
  frame : RecvFrame

/-- A cipher that `decryptor` has a routine for. -/
def HasRoutine (e : Encryption) : Prop := e = .wep40 ∨ e = .wep104 ∨ e = .tkip ∨ e = .aes

instance (e : Encryption) : Decidable (HasRoutine e) :=
  inferInstanceAs (Decidable (e = .wep40 ∨ e = .wep104 ∨ e = .tkip ∨ e = .aes))

/-- The key for the frame is installed: the pairwise one, or the group key. -/
def keyInstalled (priv : RtlPriv) (f : RecvFrame) : Bool :=
  if isMulticast f.attrib.ra then priv.binstallGrpkey else priv.busetkipkey

/-- `g` left the `decryptor` of one of the calls, for a frame with the Protected bit that
    the hardware had decrypted with an installed key or that a routine decrypted. -/
def Decrypted (calls : List PosthandleCall) (g : RecvFrame) : Prop :=
  ∃ c ∈ calls, c.frame.attrib.privacy = true ∧
    (decryptor c.priv c.message c.frame).ret = some g ∧
    (c.frame.attrib.bdecrypted = true ∧ keyInstalled c.priv c.frame = true ∨
      swPath c.priv (setKeyIndex c.frame) = true ∧ HasRoutine c.frame.attrib.encrypt)

/-- `g` is made of decrypted frames only: one of them, or several in one, without the
    Michael value, behind an Ethernet header. -/
inductive Assembled (calls : List PosthandleCall) : RecvFrame → Prop where
  | one {g : RecvFrame} : Decrypted calls g → Assembled calls g
  | append {pr next : RecvFrame} : Assembled calls pr → Decrypted calls next →
      Assembled calls (appendFragment pr next)
  | michael {g : RecvFrame} : Assembled calls g → Assembled calls (recvframePullTail g 8)
  | ethernet {g : RecvFrame} : Assembled calls g → Assembled calls (wlanhdrToEthhdr g)

section assembled

variable {calls calls' : List PosthandleCall} {g k : RecvFrame}

theorem Decrypted.mono (h : Decrypted calls g) (hsub : calls ⊆ calls') : Decrypted calls' g := by
  obtain ⟨c, hc, hrest⟩ := h
  exact ⟨c, hsub hc, hrest⟩

theorem Assembled.mono (h : Assembled calls g) (hsub : calls ⊆ calls') : Assembled calls' g := by
  induction h with
  | one hg => exact .one (hg.mono hsub)
  | append _ hnext ih => exact .append ih (hnext.mono hsub)
  | michael _ ih => exact .michael ih
  | ethernet _ ih => exact .ethernet ih

/-- Nothing is made of nothing. -/
theorem Assembled.exists_decrypted (h : Assembled calls g) : ∃ d, Decrypted calls d := by
  induction h with
  | one hg => exact ⟨_, hg⟩
  | append _ hnext _ => exact ⟨_, hnext⟩
  | michael _ ih => exact ih
  | ethernet _ ih => exact ih

theorem Assembled.defragLoop {num : ℕ} {pr r : RecvFrame} {q : List RecvFrame}
    (hpr : Assembled calls pr) (hq : ∀ p ∈ q, Decrypted calls p)
    (h : defragLoop num pr q = some r) : Assembled calls r := by
  induction q generalizing num pr with
  | nil =>
    obtain rfl := Option.some.inj h
    exact hpr
  | cons f q ih =>
    unfold Recv.defragLoop at h
    split_ifs at h
    exact ih (hpr.append (hq f List.mem_cons_self))
      (fun p hp => hq p (List.mem_cons_of_mem f hp)) h

/-- The frame that `recvframe_chk_defrag` returns for decrypted fragments. -/
theorem Decrypted.chkDefrag {sec : MicContext} {pdefragQ : Option (List RecvFrame)}
    (hg : Decrypted calls g) (hq : ∀ p ∈ pdefragQ.getD [], Decrypted calls p)
    (h : (recvframeChkDefrag sec pdefragQ g).ret = some k) : Assembled calls k := by
  obtain ⟨g₀, hk, hfrom⟩ := recvframeChkDefrag_ret h
  have hg₀ : Assembled calls g₀ := by
    rcases hfrom with ⟨-, rfl⟩ | ⟨-, pr, q, rfl, -, hloop⟩
    · exact .one hg
    · refine Assembled.defragLoop (.one (hq pr List.mem_cons_self)) (fun p hp => ?_) hloop
      rcases List.mem_append.mp hp with hp | hp
      · exact hq p (List.mem_cons_of_mem pr hp)
      · exact List.mem_singleton.mp hp ▸ hg
  rcases hk with rfl | rfl
  · exact hg₀
  · exact .michael hg₀

theorem Assembled.msduOf (h : Assembled calls k) : Assembled calls (msduOf k) := by
  unfold Recv.msduOf
  split
  · exact .ethernet h
  · exact h

/-- A frame with the Protected bit, a cipher and a key is decrypted. -/
theorem decrypted_of_call {c : PosthandleCall} (hc : c ∈ calls)
    (hprivacy : c.frame.attrib.privacy = true) (hcipher : HasRoutine c.frame.attrib.encrypt)
    (hkey : keyInstalled c.priv c.frame = true)
    (hret : (decryptor c.priv c.message c.frame).ret = some g) : Decrypted calls g := by
  refine ⟨c, hc, hprivacy, hret, ?_⟩
  cases hsw : swPath c.priv (setKeyIndex c.frame) with
  | true => exact Or.inr ⟨rfl, hcipher⟩
  | false =>
    have hne : c.frame.attrib.encrypt ≠ .noPrivacy := by
      rcases hcipher with h | h | h | h <;> rw [h] <;> nofun
    refine Or.inl ⟨?_, hkey⟩
    rw [setKeyIndex, if_pos hne] at hsw
    cases hb : c.frame.attrib.bdecrypted with
    | true => rfl
    | false => simp [swPath, hb, hne] at hsw

end assembled

/-! ## The property -/

/-- A station with 802.1X whose pairwise key is installed and whose port is open. -/
structure LinkUp (priv : RtlPriv) : Prop where
  station : priv.fwState.station = true
  auth : priv.dot11AuthAlgrthm = .ieee8021X
  key : priv.busetkipkey = true
  port : portBlocked priv priv.mybssid = false

/-- The frame is to be protected: a group-addressed one once the group key is installed. -/
def Covered (priv : RtlPriv) (f : RecvFrame) : Prop :=
  LinkUp priv ∧ (isMulticast f.attrib.ra = true → priv.binstallGrpkey = true)

/-- The interface, and the calls of `recv_func_posthandle` so far. -/
structure Link where
  iface : Iface
  calls : List PosthandleCall := []

/-- The calls of `recv_func_posthandle` in one step. -/
def stepCalls (s : Iface) : IfaceOp → List PosthandleCall
  | .recv drv pstaAddr mickey _ f =>
    (rxCalls (s.env drv pstaAddr mickey) s.clear f).map fun c =>
      { priv := s.priv, message := c.1.message, frame := c.2 }
  | .config _ | .timeout _ _ _ | .sta _ => []

def linkStep (s : Link) (op : IfaceOp) : Link :=
  { iface := ifaceStep s.iface op, calls := s.calls ++ stepCalls s.iface op }

/-- What the step passes on of frames that are to be protected is EAPOL, or made of
    decrypted frames. -/
def LinkProtected (s : Link) (op : IfaceOp) : Prop :=
  ∀ d ∈ (linkStep s op).iface.delivered, Covered (linkStep s op).iface.priv d.1 →
    ethProto d.2.skb ≠ 0x888e → Assembled (linkStep s op).calls d.1

/-! ## The condition -/

/-- On a protected link, a frame that enters `recv_func_posthandle` has the Protected bit,
    a cipher and a key; or it is no fragment, and it is EAPOL, is not to be protected, or is
    dropped by `portctrl`. -/
def CallOk (env : RecvEnv) (s : RecvPriv) (f : RecvFrame) : Prop :=
  LinkUp env.priv →
    (f.attrib.privacy = true ∧ HasRoutine f.attrib.encrypt ∧ keyInstalled env.priv f = true) ∨
      (Whole f ∧ (Covered env.priv f → ∀ k, portctrlFrame env s f = some k →
        portctrl env k = true → IsEapol k))

/-- The condition on a step. When the link becomes protected, the fragments that wait are
    decrypted, and so are the frames in the reorder queues that are not EAPOL. -/
def LinkOk (s : Link) : IfaceOp → Prop
  | .config priv =>
    (LinkUp priv → ¬LinkUp s.iface.priv →
      ∀ psta, ∀ g ∈ s.iface.rx.defragQ psta, Decrypted s.calls g) ∧
    ∀ psta tid, ∀ f ∈ (s.iface.rx.recvreorderCtrl psta tid).pending,
      Covered priv f → ¬Covered s.iface.priv f → EapolOnly f ∨ Assembled s.calls f
  | .recv drv pstaAddr mickey _ f =>
    ∀ c ∈ rxCalls (s.iface.env drv pstaAddr mickey) s.iface.clear f,
      CallOk (s.iface.env drv pstaAddr mickey) c.1 c.2
  | .timeout _ _ _ | .sta _ => True

/-! ## Through the receive path -/

/-- What holds of the frames in the queues. -/
def LinkPlace (priv : RtlPriv) (calls : List PosthandleCall) : Loc → RecvFrame → Prop
  | .pool, _ | .hand, _ | .ucSwdec, _ => True
  | .defragQ _, g => LinkUp priv → Decrypted calls g
  | .reorder _ _, f => Covered priv f → EapolOnly f ∨ Assembled calls f

/-- What holds of what is handed on. -/
def LinkEvent (priv : RtlPriv) (calls : List PosthandleCall) (e : RecvEvent) : Prop :=
  Covered priv e.frame →
    (∀ c ∈ e.osCalls priv, ethProto c.skb = 0x888e) ∨ Assembled calls e.frame

theorem covered_congr {priv : RtlPriv} {f g : RecvFrame} (h : g.attrib.ra = f.attrib.ra) :
    Covered priv g ↔ Covered priv f := by
  unfold Covered
  rw [h]

theorem CallOk.passes {env : RecvEnv} {s : RecvPriv} {calls : List PosthandleCall}
    {f g k : RecvFrame} (hok : CallOk env s f)
    (hmem : { priv := env.priv, message := s.message, frame := f } ∈ calls)
    (hQ : Queued (LinkPlace env.priv calls) s)
    (hret : (decryptor env.priv s.message f).ret = some g)
    (hk : (recvframeChkDefrag env.micContext ((defragSta env.priv g).map s.defragQ) g).ret =
      some k) (hport : portctrl env k = true) (hcov : Covered env.priv k) :
    IsEapol k ∨ Assembled calls k := by
  rcases hok hcov.1 with ⟨hprivacy, hcipher, hkey⟩ | ⟨hwhole, heapol⟩
  · have hg : Decrypted calls g := decrypted_of_call hmem hprivacy hcipher hkey hret
    refine Or.inr (hg.chkDefrag (fun p hp => ?_) hk)
    cases hsta : defragSta env.priv g with
    | none =>
      rw [hsta] at hp
      exact absurd hp List.not_mem_nil
    | some psta =>
      rw [hsta] at hp
      exact hQ (.defragQ psta) p hp hcov.1
  · obtain ⟨keyIndex, hattrib⟩ := decryptor_attrib hret
    have hnum : g.attrib.fragNum = 0 := by
      rw [hattrib]
      exact hwhole.2
    have hra : k.attrib.ra = f.attrib.ra := by
      rcases recvframeChkDefrag_madeOf hk with ⟨-, -, -, icvLen, hmade⟩ | ⟨hne, -⟩
      · rw [hmade, hattrib]
      · exact absurd hnum hne
    have hframe : portctrlFrame env s f = some k := by
      rw [portctrlFrame, hret]
      exact hk
    exact Or.inl (heapol ((covered_congr hra).mp hcov) k hframe hport)

theorem link_stages (env : RecvEnv) (calls : List PosthandleCall) :
    Stages env (fun _ => True) (LinkPlace env.priv calls)
      (fun s f => CallOk env s f ∧
        { priv := env.priv, message := s.message, frame := f } ∈ calls)
      (LinkEvent env.priv calls) where
  unpark _ _ := trivial
  defragQ s f g psta hC _ hret hfrag _ := by
    intro hlink
    rcases hC.1 hlink with ⟨hprivacy, hcipher, hkey⟩ | ⟨hwhole, -⟩
    · exact decrypted_of_call hC.2 hprivacy hcipher hkey hret
    · obtain ⟨keyIndex, hattrib⟩ := decryptor_attrib hret
      refine absurd ?_ hfrag
      unfold Whole
      rw [hattrib]
      exact hwhole
  pass s f g k hQ hC _ hret hk hport := by
    have hpass := hC.1.passes hC.2 hQ hret hk hport
    refine ⟨fun hcov => ?_, fun _ hcov => ?_⟩
    · rcases hpass ((covered_congr (msduOf_ra k)).mp hcov) with heapol | hmade
      · exact Or.inl heapol.msduOf
      · exact Or.inr hmade.msduOf
    · have hra : (wlanhdrToEthhdr k).attrib.ra = k.attrib.ra := by simp
      rcases hpass ((covered_congr hra).mp hcov) with heapol | hmade
      · exact Or.inl (heapol.osCalls env.priv)
      · exact Or.inr (.ethernet hmade)
  event psta tid f hf hcov := by
    rw [indicateOne_frame] at hcov ⊢
    rcases hf hcov with heapol | hmade
    · exact Or.inl (heapol.osCalls env.priv env.drv)
    · exact Or.inr hmade

/-! ## Runs -/

/-- What holds between the steps. -/
def LinkInv (s : Link) : Prop := Queued (LinkPlace s.iface.priv s.calls) s.iface.rx

theorem LinkPlace.mono {priv : RtlPriv} {calls calls' : List PosthandleCall}
    (hsub : calls ⊆ calls') (l : Loc) (f : RecvFrame) (h : LinkPlace priv calls l f) :
    LinkPlace priv calls' l f := by
  cases l with
  | pool => trivial
  | hand => trivial
  | ucSwdec => trivial
  | defragQ psta => exact fun hlink => (h hlink).mono hsub
  | reorder psta tid => exact fun hcov => (h hcov).imp_right fun hmade => hmade.mono hsub

theorem linkStep_sound {s : Link} {op : IfaceOp} (hok : LinkOk s op) (hi : LinkInv s) :
    Sound (LinkPlace (linkStep s op).iface.priv (linkStep s op).calls)
      (LinkEvent (linkStep s op).iface.priv (linkStep s op).calls) (fun _ => True)
      (linkStep s op).iface.rx := by
  have hsub : s.calls ⊆ s.calls ++ stepCalls s.iface op := List.subset_append_left _ _
  have hQ := hi.mono (LinkPlace.mono hsub)
  cases op with
  | config priv =>
    refine Iface.sound_clear (s := { s.iface with priv := priv }) fun l f hf => ?_
    cases l with
    | pool => trivial
    | hand => trivial
    | ucSwdec => trivial
    | defragQ psta =>
      intro hlink
      by_cases hold : LinkUp s.iface.priv
      · exact hQ (.defragQ psta) f hf hold
      · exact (hok.1 hlink hold psta f hf).mono hsub
    | reorder psta tid =>
      intro hcov
      by_cases hold : Covered s.iface.priv f
      · exact hQ (.reorder psta tid) f hf hold
      · exact (hok.2 psta tid f hf hcov hold).imp_right fun hmade => hmade.mono hsub
  | recv drv pstaAddr mickey mgt f =>
    refine (link_stages (s.iface.env drv pstaAddr mickey) _).recvbuf2recvframe
      (Iface.sound_clear hQ)
      (fun addr skb _ _ _ => ⟨fun _ _ => trivial, fun _ => by split <;> trivial⟩) fun c hc => ?_
    exact ⟨hok c hc, List.mem_append_right _ (List.mem_map_of_mem hc)⟩
  | timeout drv psta tid =>
    exact (Iface.sound_clear hQ).timeout psta tid fun _ =>
      (link_stages (s.iface.env drv none []) _).event psta tid
  | sta op => exact (Iface.sound_clear hQ).staQueueStep op

theorem LinkInv.linkProtected {s : Link} {op : IfaceOp} (hok : LinkOk s op) (hi : LinkInv s) :
    LinkProtected s op := by
  rintro ⟨f, c⟩ hd hcov htype
  obtain ⟨e, he, rfl, hc⟩ := Iface.mem_delivered.mp hd
  exact ((linkStep_sound hok hi).2.1 e he hcov).resolve_left fun h => htype (h c hc)

/-- Every MSDU that is delivered on a protected link is EAPOL or made of decrypted frames,
    in every run whose steps meet the condition. -/
theorem linkProtected_of_run (priv : RtlPriv) (ops : List IfaceOp)
    (hok : Guarded linkStep LinkOk { iface := { priv := priv } } ops) :
    Guarded linkStep LinkProtected { iface := { priv := priv } } ops := by
  refine hok.of_invariant (fun s op hc (hi : LinkInv s) => (linkStep_sound hc hi).1)
    (fun s op hc hi => hi.linkProtected hc) fun l f hf => ?_
  cases l <;> exact absurd hf List.not_mem_nil

/-! ### One frame -/

/-- A station of the access point 2:2:2:2:2:2, with CCMP and an installed key. -/
def keyedSta : RtlPriv :=
  { fwState := { station := true, linked := true }
    mybssid := Vector.replicate 6 2
    lookup := fun a => if a = Vector.replicate 6 2 then some 1 else none
    sta := fun _ => { dot118021XPrivacy := .aes }
    dot11AuthAlgrthm := .ieee8021X, dot11PrivacyAlgrthm := .aes, busetkipkey := true }

/-- A data frame from the access point to the station, with the second byte of its frame
    control field. -/
def apFrame (flags : UInt8) (bdecrypted : Bool) (body : Bytes) : RecvFrame :=
  let mem := [0x08, flags, 0, 0] ++ List.replicate 6 0 ++ List.replicate 6 2 ++
    List.replicate 6 3 ++ [0, 0] ++ body
  { addr := 0, skb := none, attrib := { bdecrypted := bdecrypted }, len := mem.length
    mem := mem, rxData := 0, rxTail := mem.length, data_le_tail := Nat.zero_le _
    tail_le_end := Nat.le_refl _ }

/-- The LLC/SNAP header of type 0x0800. -/
def snapBody : Bytes := [0xaa, 0xaa, 3, 0, 0, 0, 8, 0]

/-- Decrypted by the hardware: IV, body and MIC are still there. -/
def protectedFrame : RecvFrame :=
  apFrame 0x42 true (List.replicate 8 0 ++ snapBody ++ List.replicate 8 0)

def plainFrame : RecvFrame := apFrame 0x02 false snapBody

/-- The access point sends `f`. -/
def fromAp (f : RecvFrame) : IfaceOp := .recv {} none (List.replicate 16 0) [] f

theorem linkProtected_ccmp :
    Guarded linkStep LinkProtected { iface := { priv := keyedSta } } [fromAp protectedFrame] := by
  refine linkProtected_of_run keyedSta [fromAp protectedFrame] ⟨fun c hc _ => Or.inl ?_, trivial⟩
  have hcalls : ∀ c ∈ rxCalls (Iface.env { priv := keyedSta } {} none (List.replicate 16 0))
      (Iface.clear { priv := keyedSta }) protectedFrame,
      c.2.attrib.privacy = true ∧ HasRoutine c.2.attrib.encrypt ∧
        keyInstalled keyedSta c.2 = true := by
    decide +kernel
  exact hcalls c hc

/-- A frame without the Protected bit is delivered as it came. -/
theorem plainFrame_delivered :
    ¬ ∀ (priv : RtlPriv) (ops : List IfaceOp),
      Guarded linkStep LinkProtected { iface := { priv := priv } } ops := by
  intro h
  have hstep := (h keyedSta [fromAp plainFrame]).1
  have hplain : ∀ c ∈ stepCalls { priv := keyedSta } (fromAp plainFrame),
      c.frame.attrib.privacy = false := by
    decide +kernel
  have hnone : ∀ g, ¬Assembled (stepCalls { priv := keyedSta } (fromAp plainFrame)) g := by
    intro g hg
    obtain ⟨d, c, hc, hprivacy, -⟩ := hg.exists_decrypted
    rw [hplain c hc] at hprivacy
    cases hprivacy
  have hlink : LinkUp keyedSta := ⟨rfl, rfl, rfl, by decide⟩
  have hip : ∃ d ∈ (ifaceStep { priv := keyedSta } (fromAp plainFrame)).delivered,
      ethProto d.2.skb = 0x0800 ∧ isMulticast d.1.attrib.ra = false := by
    decide +kernel
  obtain ⟨d, hd, htype, hra⟩ := hip
  refine hnone d.1 (hstep d hd ⟨hlink, fun hm => ?_⟩ ?_)
  · rw [hra] at hm
    cases hm
  · rw [htype]
    decide

end Rtl8821au.Recv
