import Mathlib.Tactic.IntervalCases
import Rtl8821au.Lib.Run
import Rtl8821au.Phy.ThermalDrift

/-!
# Runs of the thermal tracking

Readings, switches of the channel and the band, resets and initialisations in any order.

* `start_tracked`, `step_ok`: the invariant holds at first, and every event keeps it.
* `recordRing_four`: four readings fill the ring, wherever it stands.
* `tracking_right`: what follows for a run in which no mean is too far from the base.
* `single_not_restored`: one reading equal to the base does not restore the default.
-/

namespace Rtl8821au.Phy.ThermalTrack

open Checked PowerLimit SwingTables Run
open TxPower (u8 s8 RfPath)

variable {dev : Device} {s s' : Dm} {band : Band}

/-! ## Resets -/

theorem ok_default {d offset swing last : ℤ} (hd : d = 18 ∨ d = 24) :
    PathPart.Ok dev d ⟨offset, dev.char d, swing, 0, last, d⟩ := by
  have hzero : s8 0 = 0 := rfl
  refine ⟨char_zero.symm, show -18 ≤ s8 0 ∧ s8 0 ≤ 16 from by decide, ?_, ?_⟩
  · change d = d + s8 0
    rw [hzero, add_zero]
  · change dev.char d = clampIndex (d + s8 0)
    rw [hzero, add_zero, char_of_small (by omega), clampIndex, lastScale, if_neg (by omega),
      if_neg (by omega)]

theorem clean_tracked (hs : Tracked dev s) : Tracked dev (cleanTxpowerTrackingState dev s) where
  default := hs.default
  part _ := ok_default hs.default
  others _ _ := ⟨rfl, rfl⟩
  atBase _ _ := rfl
  uncalibrated _ := rfl
  control := hs.control
  ring := hs.ring
  known := hs.known
  band := hs.band

theorem getSwingIndex_eq (hs : Known dev s s.currentBandtype) :
    ((getSwingIndex dev s).1 : ℤ) = 24 + 2 * (bandSwing dev s.currentBandtype).1 ∧
      (getSwingIndex dev s).2 = withDiff dev s.currentBandtype s := by
  rw [getSwingIndex, phyGetTxSwing_eq hs]
  refine ⟨?_, rfl⟩
  change ((txscallingTbl.idxOf (bandSwing dev s.currentBandtype).2 : ℕ) : ℤ) = _
  rcases bandSwing_cases dev s.currentBandtype with h | h
  · rw [h]
    decide
  · rw [h]
    decide

theorem bandSwing_fst (dev : Device) (band : Band) :
    (bandSwing dev band).1 = 0 ∨ (bandSwing dev band).1 = -3 := by
  rcases bandSwing_cases dev band with h | h
  · exact Or.inl (by rw [h])
  · exact Or.inr (by rw [h])

theorem default_cases (dev : Device) (band : Band) :
    24 + 2 * (bandSwing dev band).1 = 18 ∨ 24 + 2 * (bandSwing dev band).1 = 24 := by
  have h := bandSwing_fst dev band
  omega

theorem withDiff_self (dev : Device) (band : Band) (s : Dm) :
    (withDiff dev band s).swingDiff band = dev.char (bandSwing dev band).1 :=
  Function.update_self _ _ _

theorem withDiff_ne {b : Band} (h : b ≠ band) (s : Dm) :
    (withDiff dev band s).swingDiff b = s.swingDiff b := Function.update_of_ne h _ _

theorem withDiff_known (hs : ∀ b, Known dev s b) (band b : Band) :
    Known dev (withDiff dev band s) b := by
  rw [Known]
  by_cases hb : b = band
  · rw [hb]
    exact Or.inr (withDiff_self dev band s)
  · rw [withDiff_ne hb]
    exact hs b

theorem initialize_tracked (hs : ∀ b, Known dev s b) (hring : s.thermalvalueAvgIndex < 4) :
    Tracked dev (initializeTxpowerTracking dev s) := by
  obtain ⟨hidx, hdm⟩ := getSwingIndex_eq (hs s.currentBandtype)
  have hindex : (if (getSwingIndex dev s).1 = txscaleTableSize then (24 : ℤ)
      else (getSwingIndex dev s).1) = 24 + 2 * (bandSwing dev s.currentBandtype).1 := by
    have hcases := default_cases dev s.currentBandtype
    rw [if_neg, hidx]
    rw [txscaleTableSize]
    omega
  have hdefault : (initializeTxpowerTracking dev s).defaultOfdmIndex =
      24 + 2 * (bandSwing dev s.currentBandtype).1 := hindex
  have hcur : (initializeTxpowerTracking dev s).currentBandtype = s.currentBandtype := by
    change (getSwingIndex dev s).2.currentBandtype = _
    rw [hdm]
    rfl
  have hdiff : (initializeTxpowerTracking dev s).swingDiff =
      (withDiff dev s.currentBandtype s).swingDiff := by
    change (getSwingIndex dev s).2.swingDiff = _
    rw [hdm]
  have hd := default_cases dev s.currentBandtype
  rw [← hdefault] at hd
  constructor
  · exact hd
  · exact fun _ => ok_default hd
  · exact fun _ _ => ⟨rfl, rfl⟩
  · exact fun _ _ => rfl
  · exact fun _ => rfl
  · rfl
  · change (getSwingIndex dev s).2.thermalvalueAvgIndex < 4
    rw [hdm]
    exact hring
  · intro b
    rw [Known, hdiff]
    exact withDiff_known hs _ b
  · intro _
    rw [hdefault, hcur, hdiff]
    exact ⟨withDiff_self dev _ s, rfl⟩

/-! ### The band -/

theorem s8_char_sub_char (x y : ℤ) : s8 (dev.char x - dev.char y) = s8 (x - y) := by
  rw [← s8_char dev, char_sub_char, s8_char]

/-- What the switch leaves, before the reset. -/
def switched (dev : Device) (band : Band) (s : Dm) : Dm :=
  { withDiff dev band s with
    currentBandtype := band
    txScale := Function.update (Function.update s.txScale .a (bandSwing dev band).2) .b
      (bandSwing dev band).2 }

theorem switchWirelessband_eq (hadjusts : dev.adjusts = true) (hs : Known dev s band) :
    switchWirelessband dev band s = cleanTxpowerTrackingState dev
      (adjustDefault band s.currentBandtype (switched dev band s)) := by
  have hone : Known dev { s with currentBandtype := band } band := hs
  rw [switchWirelessband]
  simp only [hadjusts, if_true, phyGetTxSwing_eq hone]
  rw [phyGetTxSwing_eq (Or.inr (Function.update_self _ _ _))]
  simp only [switched, withDiff, Function.update_idem]

/-- The default after a switch is that of the new band. -/
theorem adjustDefault_switched (hs : Tracked dev s) (hadjusts : dev.adjusts = true) :
    adjustDefault band s.currentBandtype (switched dev band s) =
      { switched dev band s with defaultOfdmIndex := 24 + 2 * (bandSwing dev band).1 } := by
  obtain ⟨hdiff, hdefault⟩ := hs.band hadjusts
  rw [adjustDefault]
  by_cases hsame : band = s.currentBandtype
  · rw [if_neg (not_not.mpr hsame), hsame, ← hdefault]
    rfl
  · rw [if_pos hsame]
    have hnew : (switched dev band s).swingDiff band = dev.char (bandSwing dev band).1 :=
      withDiff_self dev band s
    have hold : (switched dev band s).swingDiff s.currentBandtype =
        dev.char (bandSwing dev s.currentBandtype).1 :=
      (withDiff_ne (Ne.symm hsame) s).trans hdiff
    have hx := bandSwing_fst dev band
    have hy := bandSwing_fst dev s.currentBandtype
    have hsum : s8 (if band = .on24G then
          s8 ((switched dev band s).swingDiff .on24G - (switched dev band s).swingDiff .on5G)
        else -1 *
          s8 ((switched dev band s).swingDiff .on24G - (switched dev band s).swingDiff .on5G)) =
        (bandSwing dev band).1 - (bandSwing dev s.currentBandtype).1 := by
      cases hcur : s.currentBandtype <;> cases band <;> rw [hcur] at hsame hold hy
      · exact absurd rfl hsame
      · have hinner := s8_of_small
          (x := (bandSwing dev .on24G).1 - (bandSwing dev .on5G).1) (by omega)
        rw [if_neg (by decide), hnew, hold, s8_char_sub_char, hinner, s8_of_small (by omega)]
        omega
      · have hinner := s8_of_small
          (x := (bandSwing dev .on24G).1 - (bandSwing dev .on5G).1) (by omega)
        rw [if_pos rfl, hnew, hold, s8_char_sub_char, hinner, hinner]
      · exact absurd rfl hsame
    simp only [hsum]
    congr 1
    change u8 (s.defaultOfdmIndex + _) = _
    rw [hdefault, u8_of_small (by omega)]
    omega

theorem switch_tracked (hs : Tracked dev s) (band : Band) :
    Tracked dev (switchWirelessband dev band s) := by
  by_cases hadjusts : dev.adjusts = true
  · rw [switchWirelessband_eq hadjusts (hs.known band), adjustDefault_switched hs hadjusts]
    have hd := default_cases dev band
    exact {
      default := hd
      part := fun _ => ok_default hd
      others := fun _ _ => ⟨rfl, rfl⟩
      atBase := fun _ _ => rfl
      uncalibrated := fun _ => rfl
      control := hs.control
      ring := hs.ring
      known := withDiff_known hs.known band
      band := fun _ => ⟨withDiff_self dev band s, rfl⟩ }
  · rw [switchWirelessband]
    simp only [if_neg hadjusts]
    exact { hs with band := fun h => absurd h hadjusts }

/-! ## Runs -/

theorem switch_known (hs : ∀ b, Known dev s b) (band : Band) :
    (∀ b, Known dev (switchWirelessband dev band s) b) ∧
      (switchWirelessband dev band s).thermalvalueAvgIndex = s.thermalvalueAvgIndex := by
  by_cases hadjusts : dev.adjusts = true
  · rw [switchWirelessband_eq hadjusts (hs band), adjustDefault]
    by_cases hsame : band ≠ s.currentBandtype
    · rw [if_pos hsame]
      exact ⟨withDiff_known hs band, rfl⟩
    · rw [if_neg hsame]
      exact ⟨withDiff_known hs band, rfl⟩
  · rw [switchWirelessband]
    simp only [if_neg hadjusts]
    exact ⟨hs, trivial⟩

theorem start_tracked (dev : Device) (band : Band) : Tracked dev (start dev band) := by
  have hzero : ∀ b, Known dev zeroed b := fun _ => Or.inl rfl
  obtain ⟨hknown, hring⟩ := switch_known hzero band
  refine initialize_tracked hknown ?_
  rw [hring]
  decide

/-- What a run needs: every mean of a reading is near the base. -/
def NearAfter (dev : Device) : Except Checked.Fault Dm → Event → Prop
  | .ok s, .track reading => Near dev reading s
  | _, _ => True

instance (reading : Fin 64) (s : Dm) : Decidable (Near dev reading s) :=
  inferInstanceAs (Decidable (_ < _))

instance : (x : Except Checked.Fault Dm) → (e : Event) → Decidable (NearAfter dev x e)
  | .ok s, .track reading => inferInstanceAs (Decidable (Near dev reading s))
  | .ok _, .switchBand _ => isTrue trivial
  | .ok _, .setChannel _ => isTrue trivial
  | .ok _, .updateInitRate _ => isTrue trivial
  | .ok _, .clean => isTrue trivial
  | .ok _, .init => isTrue trivial
  | .error _, _ => isTrue trivial

/-- One event. Apart from the initialisation, only a switch of the band changes the default. -/
theorem step_ok (hs : Tracked dev s) {e : Event} (hnear : NearAfter dev (.ok s) e) :
    ∃ s', step dev s e = .ok s' ∧ Tracked dev s' ∧
      (dev.adjusts = false → e ≠ .init → s'.defaultOfdmIndex = s.defaultOfdmIndex) := by
  cases e with
  | track reading =>
    obtain ⟨s', hrun, hs', hrest, _⟩ := track_ok hs fun _ _ => hnear
    refine ⟨s', hrun, hs', fun _ _ => ?_⟩
    have hdefault := congrArg Dm.defaultOfdmIndex hrest
    split_ifs at hdefault
    · exact hdefault
    · exact hdefault
  | switchBand band =>
    refine ⟨_, rfl, switch_tracked hs band, fun hno _ => ?_⟩
    rw [switchWirelessband]
    simp only [hno]
    rfl
  | setChannel channel => exact ⟨_, rfl, { hs with }, fun _ _ => rfl⟩
  | updateInitRate rate => exact ⟨_, rfl, { hs with }, fun _ _ => rfl⟩
  | clean => exact ⟨_, rfl, clean_tracked hs, fun _ _ => rfl⟩
  | init => exact ⟨_, rfl, initialize_tracked hs.known hs.ring, fun _ h => absurd rfl h⟩

variable {es : List Event}

/-- The state after so many events. -/
def after (dev : Device) (band : Band) (es : List Event) (n : ℕ) : Except Checked.Fault Dm :=
  run (runStep dev) (.ok (start dev band)) (es.take n)

/-- Every index of a path is at the default. -/
def AtDefault (s : Dm) : Prop :=
  ∀ p, s.swingIdxOfdmBase p = s.defaultOfdmIndex ∧ s.ofdmIndex p = s.defaultOfdmIndex

/-- What is said of a run. -/
structure Right (dev : Device) (band : Band) (es : List Event) : Prop where
  /-- No index is outside its table. -/
  inside : ∀ n, Fine (after dev band es n)
  /-- The base is the default and the index, and the index of the scale is their sum, limited. -/
  steady : ∀ n s, after dev band es n = .ok s → ∀ p,
    s.swingIdxOfdmBase p = s.defaultOfdmIndex + s8 (s.deltaPowerIndex p) ∧
      s.ofdmIndex p = clampIndex (s.defaultOfdmIndex + s8 (s.deltaPowerIndex p))
  /-- A mean that is the base restores the default. -/
  restored : ∀ n s s' reading, es[n]? = some (.track reading) → after dev band es n = .ok s →
    averaged reading s = dev.base → after dev band es (n + 1) = .ok s' → AtDefault s'
  /-- So do four readings that are the base. -/
  settled : ∀ n s' (reading : Fin 64), reading.val = dev.base →
    (∀ k < 4, es[n + k]? = some (.track reading)) →
    after dev band es (n + 4) = .ok s' → AtDefault s'
  /-- Back in a band the default is what it was there. -/
  bands : ∀ m n s s', m ≤ n → (∀ k, m ≤ k → k < n → es[k]? ≠ some .init) →
    after dev band es m = .ok s → after dev band es n = .ok s' →
    s.currentBandtype = s'.currentBandtype → s.defaultOfdmIndex = s'.defaultOfdmIndex

theorem Tracked.atDefault (hs : Tracked dev s) (hzero : ∀ p, s.deltaPowerIndex p = 0) :
    AtDefault s := by
  intro p
  have hok := hs.part p
  have hd := hs.default
  have hindex : s8 (s.part p).index = 0 := by
    rw [show (s.part p).index = 0 from hzero p]
    rfl
  refine ⟨?_, ?_⟩
  · exact hok.base.trans (by rw [hindex, add_zero])
  · refine hok.ofdm.trans ?_
    rw [hindex, add_zero, clampIndex, lastScale, if_neg (by omega), if_neg (by omega)]

theorem after_succ {n : ℕ} {e : Event} {band : Band} (he : es[n]? = some e) :
    after dev band es (n + 1) = runStep dev (after dev band es n) e := run_take_succ he

theorem after_tracked (hnear : Guarded (runStep dev) (NearAfter dev) (.ok (start dev band)) es)
    (n : ℕ) : ∃ s, after dev band es n = .ok s ∧ Tracked dev s := by
  have hstep : ∀ x e, NearAfter dev x e → (∃ s, x = .ok s ∧ Tracked dev s) →
      ∃ s, runStep dev x e = .ok s ∧ Tracked dev s := by
    rintro x e hC ⟨s, rfl, hs⟩
    obtain ⟨s', hrun, hs', _⟩ := step_ok hs hC
    exact ⟨s', hrun, hs'⟩
  exact invariant_run_take hstep hnear ⟨_, rfl, start_tracked dev band⟩ n

/-- A callback on the way. -/
theorem after_track (hnear : Guarded (runStep dev) (NearAfter dev) (.ok (start dev band)) es)
    {n : ℕ} {reading : Fin 64} (he : es[n]? = some (.track reading))
    (hs : after dev band es n = .ok s) (hs' : after dev band es (n + 1) = .ok s') :
    s'.rest = (if dev.calibrated then recordReading reading s else s).rest ∧
      (averaged reading s = dev.base → AtDefault s') := by
  obtain ⟨s₀, hrun, htracked⟩ := after_tracked hnear n
  obtain rfl := Except.ok.inj (hs.symm.trans hrun)
  have hC := hnear.at he
  rw [show run _ _ _ = _ from hs] at hC
  obtain ⟨s₁, hstep, htracked', hrest, hbase⟩ := track_ok htracked fun _ _ => hC
  rw [after_succ he, hs] at hs'
  obtain rfl := Except.ok.inj (hs'.symm.trans hstep)
  exact ⟨hrest, fun h => htracked'.atDefault (hbase h)⟩

/-! ### Four readings -/

/-- The ring of readings, with the place of the next one. -/
def Dm.ring (s : Dm) : (ℕ → ℕ) × ℕ := (s.thermalvalueAvg, s.thermalvalueAvgIndex)

def recordRing (x : ℕ) (r : (ℕ → ℕ) × ℕ) : (ℕ → ℕ) × ℕ :=
  (Function.update r.1 r.2 x, if r.2 + 1 = 4 then 0 else r.2 + 1)

/-- Wherever it starts, four values fill the ring. -/
theorem recordRing_four (x : ℕ) {r : (ℕ → ℕ) × ℕ} (h : r.2 < 4) {i : ℕ} (hi : i < 4) :
    (recordRing x (recordRing x (recordRing x (recordRing x r)))).1 i = x := by
  obtain ⟨values, k⟩ := r
  change k < 4 at h
  interval_cases k <;> interval_cases i <;> simp [recordRing]

theorem average_eq {reading : Fin 64} (hne : reading.val ≠ 0)
    (h : ∀ i < 4, s.thermalvalueAvg i = reading) : average reading s = reading := by
  have hvalues : (List.range 4).map s.thermalvalueAvg = List.replicate 4 reading.val := by
    change [s.thermalvalueAvg 0, s.thermalvalueAvg 1, s.thermalvalueAvg 2, s.thermalvalueAvg 3] = _
    rw [h 0 (by decide), h 1 (by decide), h 2 (by decide), h 3 (by decide)]
    rfl
  have hlt := reading.isLt
  rw [average, hvalues, List.filter_replicate_of_pos (by simpa using hne)]
  simp only [List.length_replicate, List.sum_replicate, smul_eq_mul]
  rw [if_pos (by decide), Nat.mul_div_cancel_left _ (by decide), Nat.mod_eq_of_lt (by omega)]

theorem settled_right (hnear : Guarded (runStep dev) (NearAfter dev) (.ok (start dev band)) es)
    {n : ℕ} {reading : Fin 64} (hbase : reading.val = dev.base)
    (he : ∀ k < 4, es[n + k]? = some (.track reading))
    (hs' : after dev band es (n + 4) = .ok s') : AtDefault s' := by
  by_cases hcal : dev.calibrated = true
  · obtain ⟨s₀, hrun₀, h₀⟩ := after_tracked hnear n
    obtain ⟨s₁, hrun₁, _⟩ := after_tracked hnear (n + 1)
    obtain ⟨s₂, hrun₂, _⟩ := after_tracked hnear (n + 2)
    obtain ⟨s₃, hrun₃, _⟩ := after_tracked hnear (n + 3)
    obtain ⟨hrest₁, _⟩ := after_track hnear (he 0 (by decide)) hrun₀ hrun₁
    obtain ⟨hrest₂, _⟩ := after_track hnear (he 1 (by decide)) hrun₁ hrun₂
    obtain ⟨hrest₃, _⟩ := after_track hnear (he 2 (by decide)) hrun₂ hrun₃
    rw [if_pos hcal] at hrest₁ hrest₂ hrest₃
    have hring₁ : s₁.ring = recordRing reading s₀.ring := (congrArg Dm.ring hrest₁ :)
    have hring₂ : s₂.ring = recordRing reading s₁.ring := (congrArg Dm.ring hrest₂ :)
    have hring₃ : s₃.ring = recordRing reading s₂.ring := (congrArg Dm.ring hrest₃ :)
    refine (after_track hnear (he 3 (by decide)) hrun₃ hs').2 ?_
    have hne : reading.val ≠ 0 := by
      rw [hbase]
      exact (of_decide_eq_true hcal).1
    rw [← hbase]
    refine average_eq hne fun i hi => ?_
    change (recordRing reading s₃.ring).1 i = reading
    rw [hring₃, hring₂, hring₁]
    exact recordRing_four _ h₀.ring hi
  · obtain ⟨s, hrun, hs⟩ := after_tracked hnear (n + 4)
    obtain rfl := Except.ok.inj (hs'.symm.trans hrun)
    exact hs.atDefault (hs.atBase (hs.uncalibrated (eq_false_of_ne_true hcal)))

/-! ### Bands -/

theorem bands_right (hnear : Guarded (runStep dev) (NearAfter dev) (.ok (start dev band)) es)
    {m n : ℕ} (hmn : m ≤ n) (he : ∀ k, m ≤ k → k < n → es[k]? ≠ some .init)
    (hs : after dev band es m = .ok s) (hs' : after dev band es n = .ok s')
    (hband : s.currentBandtype = s'.currentBandtype) :
    s.defaultOfdmIndex = s'.defaultOfdmIndex := by
  by_cases hadjusts : dev.adjusts = true
  · obtain ⟨s₀, hrun₀, h₀⟩ := after_tracked hnear m
    obtain ⟨s₁, hrun₁, h₁⟩ := after_tracked hnear n
    obtain rfl := Except.ok.inj (hs.symm.trans hrun₀)
    obtain rfl := Except.ok.inj (hs'.symm.trans hrun₁)
    rw [(h₀.band hadjusts).2, (h₁.band hadjusts).2, hband]
  · -- nothing but the initialisation changes the default
    clear hband
    induction n, hmn using Nat.le_induction generalizing s' with
    | base => rw [Except.ok.inj (hs.symm.trans hs')]
    | succ n hmn ih =>
      obtain ⟨s₁, hrun₁, h₁⟩ := after_tracked hnear n
      have hsame := ih (fun k hmk hkn => he k hmk (Nat.lt_succ_of_lt hkn)) hrun₁
      cases hget : es[n]? with
      | none =>
        have hlen := List.getElem?_eq_none_iff.mp hget
        rw [after, List.take_of_length_le (Nat.le_succ_of_le hlen), ← List.take_of_length_le hlen]
          at hs'
        rw [hsame, Except.ok.inj (hrun₁.symm.trans hs')]
      | some e =>
        have hC := hnear.at hget
        rw [show run _ _ _ = _ from hrun₁] at hC
        obtain ⟨s₂, hstep, _, hkeep⟩ := step_ok h₁ hC
        rw [after_succ hget, hrun₁] at hs'
        obtain rfl := Except.ok.inj (hs'.symm.trans hstep)
        have hinit : e ≠ .init := fun h => he n hmn (Nat.lt_succ_self n) (h ▸ hget)
        rw [hsame, hkeep (eq_false_of_ne_true hadjusts) hinit]

/-- In every run whose means are near the base, the tracking is right. -/
theorem tracking_right (dev : Device) (band : Band) (es : List Event)
    (hnear : Guarded (runStep dev) (NearAfter dev) (.ok (start dev band)) es) :
    Right dev band es where
  inside n := by
    obtain ⟨s, hrun, _⟩ := after_tracked hnear n
    exact ⟨s, hrun⟩
  steady n s hs p := by
    obtain ⟨s₀, hrun, h₀⟩ := after_tracked hnear n
    obtain rfl := Except.ok.inj (hs.symm.trans hrun)
    exact ⟨(h₀.part p).base, (h₀.part p).ofdm⟩
  restored _ _ _ _ he hs hbase hs' := (after_track hnear he hs hs').2 hbase
  settled _ _ _ hbase he hs' := settled_right hnear hbase he hs'
  bands _ _ _ _ hmn he hs hs' hband := bands_right hnear hmn he hs hs' hband

/-! ### One reading -/

theorem thermalTwenty_lt : 20 < 256 := by decide

theorem codeFive_lt : 5 < 256 := by decide

theorem codeZero_lt : 0 < 256 := by decide

/-- A device of either chip that has been calibrated at 20. -/
def sampleDevice (chip : Chip) (charSigned : Bool) : Device where
  chip := chip
  normalChip := true
  rfeType := 0
  charSigned := charSigned
  eepromThermalmeter := ⟨20, thermalTwenty_lt⟩
  autoloadFailflag := false
  externalPa := fun _ => false
  txBbswing := fun b => if b = .on24G then ⟨5, codeFive_lt⟩ else ⟨0, codeZero_lt⟩

theorem sample_right : Right (sampleDevice .rtl8821 false) .on24G
    [.setChannel 6, .track 5, .switchBand .on5G, .setChannel 36, .clean, .track 40, .track 20,
      .switchBand .on24G, .track 20] :=
  tracking_right _ _ _ (by decide +kernel)

/-- A first reading next to the base does not leave the tables. -/
theorem track_fine_sample :
    Fine (checkTxPowerTracking (sampleDevice .rtl8821 false) 21
      (start (sampleDevice .rtl8821 false) .on24G)) :=
  (track_fine_iff (start_tracked _ _) 21).mpr fun _ _ => by decide +kernel

/-- The base of path A and the default. -/
def observe : Except Checked.Fault Dm → Option (ℤ × ℤ)
  | .ok s => some (s.swingIdxOfdmBase .a, s.defaultOfdmIndex)
  | .error _ => none

/-- After a reading of 30, one of 20 leaves a mean of 25. -/
theorem single_not_restored :
    ¬ ∀ (dev : Device) (band : Band) (es : List Event) (n : ℕ) (s' : Dm) (reading : Fin 64),
      es[n]? = some (.track reading) → reading.val = dev.base →
      after dev band es (n + 1) = .ok s' → AtDefault s' := by
  intro h
  have hobserve : observe (after (sampleDevice .rtl8812 true) .on24G
      [.track 30, .track 20] 2) = some (19, 18) := by decide +kernel
  cases hrun : after (sampleDevice .rtl8812 true) .on24G [.track 30, .track 20] 2 with
  | error e =>
    rw [hrun] at hobserve
    cases hobserve
  | ok s' =>
    have hdefault := (h _ _ _ 1 s' 20 rfl rfl hrun .a).1
    rw [hrun, observe, hdefault] at hobserve
    have hpair := Prod.mk.inj (Option.some.inj hobserve)
    exact absurd (hpair.1.symm.trans hpair.2) (by decide)

end Rtl8821au.Phy.ThermalTrack
