import Rtl8821au.Phy.PowerLimit

/-!
# Channel and bandwidth

`PHY_HandleSwChnlAndSetBW8812` (`hal/rtl8812a_phycfg.c`, lines 85–202) with its three callers, over
`rtl8821au_phy_sw_chnl_callback` and `rtl8821au_phy_set_bw_mode_callback` (`phy.c`), against a
variant that never skips a request.

* `step_agrees_iff`: one request.
* `skipping_safe_iff`: a run of requests.

**What goes wrong.** `bChnlBWInitialzed` is set although the driver is stopped and nothing is
programmed, so the same request is skipped later. If the driver is stopped between the two tests of
it, the new values are recorded and not programmed. The channel is tested only if it is another one
than the recorded one, which is 0 at first.

Of the registers, those are in the model that say the channel, the bandwidth and the offsets: the
workarounds for spurs, thresholds, gain tables, the LC tank and the transmit power are not.
-/

namespace Rtl8821au.Phy.ChnlBw

open PowerLimit (ChannelWidth)

/-! ## The radio -/

/-- A bandwidth and offsets, as in `current_chan_bw`, `cur_40_prime_sc` and `cur_80_prime_sc`. -/
structure Width where
  chanBw : ChannelWidth
  prime40 : UInt8
  prime80 : UInt8
deriving DecidableEq

/-- What is recorded. -/
structure Tuning where
  channel : UInt8
  width : Width
deriving DecidableEq

/-- The bits of the registers that say the band and the channel, on every path, and the bandwidth
    and the offsets. -/
structure Radio where
  cckCheck : Bool
  fcArea : ℕ
  rfModAg : ℕ → ℕ
  rfChannel : ℕ → UInt8
  trxptclBw : ℕ
  rfmodBw : ℕ
  rfBw : ℕ
  dataSc : UInt8
  rfmodSc : UInt8
  ccaOnSec : UInt8
  cckSystem : Bool

def primeLower : UInt8 := 1

def primeUpper : UInt8 := 2

/-- `_rtl8821au_phy_get_secondary_chnl` (lines 4075–4118). -/
def getSecondaryChnl (w : Width) : UInt8 :=
  match w.chanBw with
  | .width80 =>
    let sc40 : UInt8 :=
      if w.prime80 = primeLower then 10 else if w.prime80 = primeUpper then 9 else 0
    let sc20 : UInt8 :=
      if w.prime40 = primeLower ∧ w.prime80 = primeLower then 4
      else if w.prime40 = primeUpper ∧ w.prime80 = primeLower then 2
      else if w.prime40 = primeLower ∧ w.prime80 = primeUpper then 1
      else if w.prime40 = primeUpper ∧ w.prime80 = primeUpper then 3
      else 0
    (sc40 <<< 4) ||| sc20
  | .width40 => if w.prime40 = primeUpper then 1 else if w.prime40 = primeLower then 2 else 0
  | _ => 0

/-- `_rtl8821au_phy_set_reg_bw` (lines 4018–4039): bits 8 and 7 of `REG_WMAC_TRXPTCL_CTL`. -/
def setRegBw (w : Width) (r : Radio) : Radio :=
  match w.chanBw with
  | .width20 => { r with trxptclBw := 0 }
  | .width40 => { r with trxptclBw := 1 }
  | .width80 => { r with trxptclBw := 2 }
  | _ => r

/-- `rtl8821au_phy_rf6052_set_bandwidth` (`rf.c`, lines 16–37), on both paths. -/
def rf6052SetBandwidth (w : Width) (r : Radio) : Radio :=
  match w.chanBw with
  | .width20 => { r with rfBw := 3 }
  | .width40 => { r with rfBw := 1 }
  | .width80 => { r with rfBw := 0 }
  | _ => r

/-- `rtl8821au_phy_set_bw_mode_callback` (lines 4121–4211). -/
def setBwModeCallback (w : Width) (r : Radio) : Radio :=
  let subChnlNum := getSecondaryChnl w
  let r := { setRegBw w r with dataSc := subChnlNum }
  let r :=
    match w.chanBw with
    | .width20 => { r with rfmodBw := 0 }
    | .width40 => { r with
        rfmodBw := 1
        rfmodSc := subChnlNum &&& 0xf
        ccaOnSec := subChnlNum &&& 0xf
        cckSystem := subChnlNum = 1 }
    | .width80 => { r with
        rfmodBw := 2
        rfmodSc := subChnlNum &&& 0xf
        ccaOnSec := subChnlNum &&& 0xf }
    | _ => r
  rf6052SetBandwidth w r

/-- `fc_area` (lines 6539–6548). -/
def fcAreaOf (channel : UInt8) : ℕ :=
  if 36 ≤ channel ∧ channel ≤ 48 then 0x494
  else if 50 ≤ channel ∧ channel ≤ 64 then 0x453
  else if 100 ≤ channel ∧ channel ≤ 116 then 0x452
  else if 118 ≤ channel then 0x412
  else 0x96a

/-- `RF_MOD_AG` (lines 6562–6569). -/
def modAgOf (channel : UInt8) : ℕ :=
  if 36 ≤ channel ∧ channel ≤ 64 then 0x101
  else if 100 ≤ channel ∧ channel ≤ 140 then 0x301
  else if 140 < channel then 0x501
  else 0

/-- `rtl8821au_phy_sw_chnl_callback` (lines 6525–6591) with `phy_SwBand8812`, which leaves the
    band that the channel is in. -/
def swChnlCallback (numTotalRfpath : ℕ) (channel : UInt8) (r : Radio) : Radio :=
  { r with
    cckCheck := 14 < channel
    fcArea := fcAreaOf channel
    rfModAg := fun path => if path < numTotalRfpath then modAgOf channel else r.rfModAg path
    rfChannel := fun path => if path < numTotalRfpath then channel else r.rfChannel path }

/-! ## Requests -/

/-- What the driver has, and the values that were last programmed. -/
structure Adapter where
  record : Tuning
  chnlBwInitialized : Bool
  radio : Radio
  programmed : Tuning

/-- Whether the driver is neither stopped nor the device removed, at the first test (line 150) and
    at the second (line 155). -/
structure Driver where
  first : Bool
  second : Bool

/-- `WIRELESS_MODE_MAX` and what is supported of it (`ieee80211.h`, lines 203–210). -/
def wirelessModeMax : ℕ := 0x5f

def isSupported5g (mode : ℕ) : Bool := mode &&& 0x14 ≠ 0

def isSupported24g (mode : ℕ) : Bool := mode &&& 0xb ≠ 0

/-- `HAL_IsLegalChannel` (`hal_com.c`, lines 64–86). -/
def halIsLegalChannel (channel : UInt8) : Bool :=
  if 14 < channel then isSupported5g wirelessModeMax
  else if 1 ≤ channel then isSupported24g wirelessModeMax
  else false

/-- Lines 159–168, with the values recorded. -/
def program (numTotalRfpath : ℕ) (swChnl setChnlBw : Bool) (a : Adapter) : Adapter :=
  let a := if swChnl then { a with
      radio := swChnlCallback numTotalRfpath a.record.channel a.radio
      programmed := { a.programmed with channel := a.record.channel } }
    else a
  if setChnlBw then { a with
    radio := setBwModeCallback a.record.width a.radio
    programmed := { a.programmed with width := a.record.width } }
  else a

/-- `PHY_HandleSwChnlAndSetBW8812`. -/
def handleSwChnlAndSetBw (numTotalRfpath : ℕ) (d : Driver) (a : Adapter)
    (switchChannel setBandwidth : Bool) (channel : UInt8) (w : Width) (center : UInt8) :
    Adapter :=
  if ¬ switchChannel ∧ ¬ setBandwidth then a
  else if switchChannel ∧ a.record.channel ≠ channel ∧ ¬ halIsLegalChannel channel then a
  else
    let swChnl : Bool := switchChannel ∧ a.record.channel ≠ channel
    let setChnlBw : Bool := setBandwidth ∧
      (¬ a.chnlBwInitialized ∨ a.record.width ≠ w ∨ a.record.channel ≠ center)
    let a := { a with chnlBwInitialized := a.chnlBwInitialized || setBandwidth }
    if ¬ swChnl ∧ ¬ setChnlBw then a
    else
      let record : Tuning := ⟨if swChnl then channel else a.record.channel,
        if setChnlBw then w else a.record.width⟩
      if d.first then
        if d.second then program numTotalRfpath swChnl setChnlBw { a with record := record }
        else { a with record := record }
      -- lines 185–192 put back what was recorded
      else a

inductive Request where
  | swChnl (channel : UInt8)
  | setBwMode (bandwidth : ChannelWidth) (offset : UInt8)
  | setSwChnlBwMode (channel : UInt8) (bandwidth : ChannelWidth) (offset40 offset80 : UInt8)

/-- `PHY_SwChnl8812`, `PHY_SetBWMode8812` and `PHY_SetSwChnlBWMode8812` (lines 204–232). -/
def Adapter.request (a : Adapter) (numTotalRfpath : ℕ) (q : Request) (d : Driver) : Adapter :=
  match q with
  | .swChnl channel =>
    handleSwChnlAndSetBw numTotalRfpath d a true false channel ⟨.width20, 0, 0⟩ channel
  | .setBwMode bandwidth offset =>
    handleSwChnlAndSetBw numTotalRfpath d a false true a.record.channel
      ⟨bandwidth, offset, offset⟩ a.record.channel
  | .setSwChnlBwMode channel bandwidth offset40 offset80 =>
    handleSwChnlAndSetBw numTotalRfpath d a true true channel
      ⟨bandwidth, offset40, offset80⟩ channel

/-! ## The variant -/

/-- A request is legal if its channel is. -/
def Request.legal : Request → Bool
  | .swChnl channel => halIsLegalChannel channel
  | .setBwMode _ _ => true
  | .setSwChnlBwMode channel _ _ _ => halIsLegalChannel channel

/-- Programs all of a request. -/
def Request.program (numTotalRfpath : ℕ) (r : Radio) : Request → Radio
  | .swChnl channel => swChnlCallback numTotalRfpath channel r
  | .setBwMode bandwidth offset => setBwModeCallback ⟨bandwidth, offset, offset⟩ r
  | .setSwChnlBwMode channel bandwidth offset40 offset80 =>
    setBwModeCallback ⟨bandwidth, offset40, offset80⟩ (swChnlCallback numTotalRfpath channel r)

/-- Programs every legal request that is made while the driver runs. -/
def neverSkip (numTotalRfpath : ℕ) (r : Radio) (q : Request) (d : Driver) : Radio :=
  if q.legal ∧ d.first ∧ d.second then q.program numTotalRfpath r else r

/-! ## Runs -/

/-- A radio with whatever is in its registers, and no channel. -/
def fresh (r : Radio) (w : Width) : Adapter := ⟨⟨0, w⟩, false, r, ⟨0, w⟩⟩

def run (numTotalRfpath : ℕ) (a : Adapter) (qs : List (Request × Driver)) : Adapter :=
  qs.foldl (fun a q => a.request numTotalRfpath q.1 q.2) a

def runNeverSkip (numTotalRfpath : ℕ) (r : Radio) (qs : List (Request × Driver)) : Radio :=
  qs.foldl (fun r q => neverSkip numTotalRfpath r q.1 q.2) r

/-- The record is what was last programmed, and the radio is as the variant has left it. -/
structure Agrees (a : Adapter) (r : Radio) : Prop where
  record : a.record = a.programmed
  radio : a.radio = r

/-! ## When it is safe -/

/-- A bandwidth and offsets that are those of the record are in the radio already, if they are
    skipped. Others are programmed, if the driver runs at the first test, and the request should
    have been. -/
def WidthFine (a : Adapter) (w : Width) (legal : Bool) (d : Driver) : Prop :=
  if a.chnlBwInitialized ∧ a.record.width = w then
    legal → d.first → d.second → setBwModeCallback w a.radio = a.radio
  else if d.second then d.first → legal ∨ setBwModeCallback w a.radio = a.radio
  else d.first → a.record.width = w

/-- A channel that is another one than that of the record is programmed, if it is legal and the
    driver runs at the first test. -/
def ChannelFine (channel : UInt8) (d : Driver) : Prop :=
  halIsLegalChannel channel → d.first → d.second

def Fine (a : Adapter) (q : Request) (d : Driver) : Prop :=
  match q with
  | .swChnl channel => channel ≠ a.record.channel → ChannelFine channel d
  | .setBwMode bandwidth offset => WidthFine a ⟨bandwidth, offset, offset⟩ true d
  | .setSwChnlBwMode channel bandwidth offset40 offset80 =>
    if channel = a.record.channel then
      WidthFine a ⟨bandwidth, offset40, offset80⟩ (halIsLegalChannel channel) d
    else ChannelFine channel d

/-! ## The callbacks -/

section callbacks

variable {n : ℕ} {channel : UInt8} {w : Width} {r : Radio}

theorem swChnl_swChnl :
    swChnlCallback n channel (swChnlCallback n channel r) = swChnlCallback n channel r := by
  simp only [swChnlCallback, Radio.mk.injEq, true_and, and_true]
  constructor
  · funext path
    by_cases hpath : path < n
    · simp only [if_pos hpath]
    · simp only [if_neg hpath]
  · funext path
    by_cases hpath : path < n
    · simp only [if_pos hpath]
    · simp only [if_neg hpath]

/-- The two callbacks program different bits. -/
theorem swChnl_setBwMode :
    swChnlCallback n channel (setBwModeCallback w r) =
      setBwModeCallback w (swChnlCallback n channel r) := by
  obtain ⟨bw, prime40, prime80⟩ := w
  cases bw <;> rfl

end callbacks

/-! ## One request -/

section step

variable {n : ℕ} {a : Adapter} {r : Radio} {channel : UInt8} {w : Width} {d : Driver}

/-- The radio of the variant, with the record in it. -/
structure Inv (n : ℕ) (a : Adapter) (r : Radio) : Prop extends Agrees a r where
  channel : halIsLegalChannel a.record.channel → swChnlCallback n a.record.channel a.radio = a.radio

/-- A request for another channel. -/
theorem handle_channel (hne : channel ≠ a.record.channel) (setBandwidth : Bool) :
    handleSwChnlAndSetBw n d a true setBandwidth channel w channel =
      if halIsLegalChannel channel = false then a
      else
        let a := { a with chnlBwInitialized := a.chnlBwInitialized || setBandwidth }
        let record : Tuning := ⟨channel, if setBandwidth then w else a.record.width⟩
        if d.first then
          if d.second then program n true setBandwidth { a with record := record }
          else { a with record := record }
        else a := by
  simp [handleSwChnlAndSetBw, Ne.symm hne]

/-- A request for a bandwidth and offsets on the same channel. -/
theorem handle_width (switchChannel : Bool) :
    handleSwChnlAndSetBw n d a switchChannel true a.record.channel w a.record.channel =
      let b := { a with chnlBwInitialized := true }
      if a.chnlBwInitialized ∧ a.record.width = w then b
      else if d.first then
        if d.second then program n false true { b with record := ⟨a.record.channel, w⟩ }
        else { b with record := ⟨a.record.channel, w⟩ }
      else b := by
  by_cases hinit : a.chnlBwInitialized <;> by_cases hsame : a.record.width = w <;>
    simp [handleSwChnlAndSetBw, hinit, hsame]

/-- The radio that the variant leaves. -/
def neverSkipChannel (n : ℕ) (r : Radio) (channel : UInt8) (w : Option Width) (d : Driver) : Radio :=
  if halIsLegalChannel channel ∧ d.first ∧ d.second then
    w.elim (swChnlCallback n channel r) fun w => setBwModeCallback w (swChnlCallback n channel r)
  else r

/-- On another channel, with a bandwidth or without. -/
theorem channel_inv (h : Inv n a r) (hne : channel ≠ a.record.channel) (setBandwidth : Bool)
    (hfine : ChannelFine channel d) :
    Inv n (handleSwChnlAndSetBw n d a true setBandwidth channel w channel)
      (neverSkipChannel n r channel (if setBandwidth then some w else none) d) := by
  rw [handle_channel hne, neverSkipChannel]
  cases hlegal : halIsLegalChannel channel with
  | false =>
    simp only [Bool.false_eq_true, false_and, if_true, if_false]
    exact h
  | true =>
    cases hfirst : d.first with
    | false =>
      simp only [Bool.false_eq_true, Bool.true_eq_false, false_and, and_false, if_false]
      exact ⟨⟨h.record, h.radio⟩, h.channel⟩
    | true =>
      have hrecord := h.record
      have hradio := h.radio
      simp only [hfine hlegal hfirst, Bool.true_eq_false, and_self, if_true, if_false]
      cases setBandwidth with
      | false =>
        refine ⟨⟨?_, ?_⟩, fun _ => swChnl_swChnl⟩
        · simp [program, hrecord]
        · simp [program, hradio]
      | true =>
        refine ⟨⟨?_, ?_⟩, fun _ => ?_⟩
        · simp [program]
        · simp [program, hradio]
        · simp [program, swChnl_setBwMode, swChnl_swChnl]

/-- Otherwise the channel is recorded and not programmed. -/
theorem channel_fine (h : Inv n a r) (hne : channel ≠ a.record.channel) (setBandwidth : Bool)
    {r' : Radio}
    (hagrees : Agrees (handleSwChnlAndSetBw n d a true setBandwidth channel w channel) r') :
    ChannelFine channel d := by
  intro hlegal hfirst
  by_contra hsecond
  have hrecord := hagrees.record
  simp only [handle_channel hne, hlegal, hfirst, hsecond, Bool.true_eq_false, if_true, if_false,
    ← h.record] at hrecord
  exact hne (congrArg Tuning.channel hrecord)

/-- The radio that the variant leaves on the channel of the record. -/
def neverSkipWidth (r : Radio) (w : Width) (legal : Bool) (d : Driver) : Radio :=
  if legal ∧ d.first ∧ d.second then setBwModeCallback w r else r

/-- On the channel of the record. -/
theorem width_inv (h : Inv n a r) (switchChannel legal : Bool) (hfine : WidthFine a w legal d) :
    Inv n (handleSwChnlAndSetBw n d a switchChannel true a.record.channel w a.record.channel)
      (neverSkipWidth r w legal d) := by
  have hradio := h.radio
  have hchannel := h.channel
  rw [handle_width, neverSkipWidth, ← hradio]
  by_cases hskip : a.chnlBwInitialized ∧ a.record.width = w
  · rw [WidthFine, if_pos hskip] at hfine
    have hsame : (if legal ∧ d.first ∧ d.second then setBwModeCallback w a.radio
        else a.radio) = a.radio := by
      split_ifs with hall
      · exact hfine hall.1 hall.2.1 hall.2.2
      · rfl
    rw [hsame]
    simp only [if_pos hskip]
    exact ⟨⟨h.record, rfl⟩, hchannel⟩
  · rw [WidthFine, if_neg hskip] at hfine
    simp only [if_neg hskip]
    cases hfirst : d.first with
    | false =>
      simp only [Bool.false_eq_true, false_and, and_false, if_false]
      exact ⟨⟨h.record, rfl⟩, hchannel⟩
    | true =>
      cases hsecond : d.second with
      | false =>
        rw [hsecond, if_neg Bool.false_ne_true] at hfine
        obtain rfl := hfine hfirst
        simp only [Bool.false_eq_true, and_false, if_true, if_false]
        exact ⟨⟨h.record, rfl⟩, hchannel⟩
      | true =>
        rw [hsecond, if_pos rfl] at hfine
        simp only [and_true, if_true]
        refine ⟨⟨?_, ?_⟩, fun hlegal => ?_⟩
        · simp [program, ← h.record]
        · rcases hfine hfirst with rfl | hsame
          · simp [program]
          · simp [program, hsame]
        · have hkept := hchannel hlegal
          simp [program, swChnl_setBwMode, hkept]

theorem width_fine (h : Inv n a r) (switchChannel legal : Bool)
    (hagrees : Agrees
      (handleSwChnlAndSetBw n d a switchChannel true a.record.channel w a.record.channel)
      (neverSkipWidth r w legal d)) :
    WidthFine a w legal d := by
  obtain ⟨hrecord, hradio⟩ := hagrees
  rw [handle_width] at hrecord hradio
  rw [neverSkipWidth, ← h.radio] at hradio
  rw [WidthFine]
  by_cases hskip : a.chnlBwInitialized ∧ a.record.width = w
  · rw [if_pos hskip]
    intro hlegal hfirst hsecond
    simp only [if_pos hskip, hlegal, hfirst, hsecond, and_self, if_true] at hradio
    exact hradio.symm
  · rw [if_neg hskip]
    simp only [if_neg hskip] at hrecord hradio
    split_ifs with hsecond
    · intro hfirst
      rw [or_iff_not_imp_left]
      intro hlegal
      simpa [hlegal, hfirst, hsecond, program] using hradio
    · intro hfirst
      simp only [hfirst, hsecond, if_true, ← h.record] at hrecord
      exact (congrArg Tuning.width hrecord).symm

/-- The variant, with nothing left to do for the channel. -/
theorem neverSkip_same (h : Inv n a r) (bandwidth : ChannelWidth) (offset40 offset80 : UInt8) :
    neverSkip n r (.setSwChnlBwMode a.record.channel bandwidth offset40 offset80) d =
      neverSkipWidth r ⟨bandwidth, offset40, offset80⟩ (halIsLegalChannel a.record.channel) d := by
  have hchannel := h.channel
  rw [h.radio] at hchannel
  rw [neverSkip, neverSkipWidth]
  by_cases hall : halIsLegalChannel a.record.channel ∧ d.first ∧ d.second
  · rw [if_pos hall]
    refine (if_pos hall).trans ?_
    rw [Request.program, hchannel hall.1]
  · rw [if_neg hall]
    exact if_neg hall

/-- One request keeps the invariant if it is fine. -/
theorem Inv.request (h : Inv n a r) (q : Request) (hfine : Fine a q d) :
    Inv n (a.request n q d) (neverSkip n r q d) := by
  cases q with
  | swChnl channel =>
    by_cases hne : channel = a.record.channel
    · have hkept : a.request n (.swChnl channel) d = a := by
        simp [Adapter.request, handleSwChnlAndSetBw, hne]
      have hnever : neverSkip n r (.swChnl channel) d = r := by
        rw [neverSkip]
        split_ifs with hall
        · have hlegal : halIsLegalChannel a.record.channel := hne ▸ hall.1
          have hchannel := h.channel hlegal
          rwa [h.radio, ← hne] at hchannel
        · rfl
      rw [hkept, hnever]
      exact h
    · exact channel_inv h hne false (hfine hne)
  | setBwMode bandwidth offset => exact width_inv h false true hfine
  | setSwChnlBwMode channel bandwidth offset40 offset80 =>
    rw [Fine] at hfine
    by_cases hne : channel = a.record.channel
    · subst hne
      rw [if_pos rfl] at hfine
      rw [neverSkip_same h]
      exact width_inv h true _ hfine
    · rw [if_neg hne] at hfine
      exact channel_inv h hne true hfine

/-- It is fine if the record and the radio agree behind it. -/
theorem Inv.fine (h : Inv n a r) (q : Request)
    (hagrees : Agrees (a.request n q d) (neverSkip n r q d)) : Fine a q d := by
  cases q with
  | swChnl channel => exact fun hne => channel_fine h hne false hagrees
  | setBwMode bandwidth offset => exact width_fine h false true hagrees
  | setSwChnlBwMode channel bandwidth offset40 offset80 =>
    rw [Fine]
    split_ifs with hne
    · subst hne
      rw [neverSkip_same h] at hagrees
      exact width_fine h true _ hagrees
    · exact channel_fine h hne true hagrees

end step

/-! ## Runs -/

section runs

variable {n : ℕ} {a : Adapter} {r : Radio} {qs : List (Request × Driver)}

/-- Fine requests keep the invariant. -/
theorem inv_run (h : Inv n a r) (hfine : ∀ before q d after, qs = before ++ (q, d) :: after →
    Fine (run n a before) q d) : Inv n (run n a qs) (runNeverSkip n r qs) := by
  induction qs generalizing a r with
  | nil => exact h
  | cons q qs ih =>
    refine ih (h.request q.1 (hfine [] q.1 q.2 qs rfl)) fun before q' d after hqs => ?_
    exact hfine (q :: before) q' d after (congrArg (q :: ·) hqs)

/-- The first request that is not fine is seen behind it. -/
theorem fine_run (h : Inv n a r) (hagrees : ∀ before after, qs = before ++ after →
      Agrees (run n a before) (runNeverSkip n r before)) :
    ∀ before q d after, qs = before ++ (q, d) :: after → Fine (run n a before) q d := by
  induction qs generalizing a r with
  | nil =>
    intro before q d after hqs
    cases before <;> cases hqs
  | cons q qs ih =>
    have hfine : Fine a q.1 q.2 := h.fine q.1 (hagrees [q] qs rfl)
    intro before q' d after hqs
    cases before with
    | nil =>
      cases hqs
      exact hfine
    | cons q'' before =>
      obtain ⟨rfl, htail⟩ := List.cons.inj hqs
      refine ih (h.request q.1 hfine) (fun before' after' hqs' => ?_) before q' d after htail
      exact hagrees (q :: before') after' (congrArg (q :: ·) hqs')

theorem fresh_inv (n : ℕ) (r : Radio) (w : Width) : Inv n (fresh r w) r :=
  ⟨⟨rfl, rfl⟩, fun hlegal => Bool.noConfusion hlegal⟩

/-- Behind every request of a run the record is what was last programmed, and the radio as if
    nothing were skipped, exactly if every request is fine. -/
theorem skipping_safe_iff (n : ℕ) (r : Radio) (w : Width) (qs : List (Request × Driver)) :
    (∀ before after, qs = before ++ after →
        Agrees (run n (fresh r w) before) (runNeverSkip n r before)) ↔
      ∀ before q d after, qs = before ++ (q, d) :: after →
        Fine (run n (fresh r w) before) q d := by
  refine ⟨fine_run (fresh_inv n r w), fun hfine before after hqs => ?_⟩
  refine (inv_run (fresh_inv n r w) fun before' q d after' hbefore => ?_).toAgrees
  refine hfine before' q d (after' ++ after) ?_
  rw [hqs, hbefore, List.append_assoc, List.cons_append]

end runs

/-! ## A request while the driver is stopped -/

/-- Everything is as for 40 MHz. -/
def radio40 : Radio := setBwModeCallback ⟨.width40, 1, 1⟩
  ⟨false, 0, fun _ => 0, fun _ => 0, 0, 0, 0, 0, 0, 0, false⟩

/-- 20 MHz, first while the driver is stopped. -/
def twice20 : List (Request × Driver) :=
  [(.setBwMode .width20 0, ⟨false, false⟩), (.setBwMode .width20 0, ⟨true, true⟩)]

/-- The radio stays at 40 MHz. -/
theorem twice20_skipped : ¬ ∀ before after, twice20 = before ++ after →
    Agrees (run 2 (fresh radio40 ⟨.width20, 0, 0⟩) before) (runNeverSkip 2 radio40 before) := by
  intro h
  have hradio := (h twice20 [] (List.append_nil _).symm).radio
  exact absurd (congrArg Radio.rfBw hradio) (by decide)

end Rtl8821au.Phy.ChnlBw
