import Rtl8821au.Phy.ThermalTrack

/-!
# One run of the thermal tracking

What is true of the swing between two runs of a callback (`Tracked`), and that a run keeps it as
long as the tables are not left.

* `phyGetTxSwing_eq`: what is read of a band is the same every time.
* `PathPart.sum_move`: the differences of successive indices add up to the last of them.
* `track_ok`: a run of a callback keeps the invariant.
* `track_fine_iff`: when it leaves the tables.
-/

namespace Rtl8821au.Phy.ThermalTrack

open Checked PowerLimit SwingTables Run
open TxPower (u8 s8 RfPath)

variable {dev : Device} {s s' : Dm} {t : Swing} {thermal delta : ℕ} {p : RfPath} {band : Band}

/-! ## Numbers -/

theorem s8_char (dev : Device) (x : ℤ) : s8 (dev.char x) = s8 x := by
  rw [Device.char]
  split_ifs
  · rw [s8, s8]
    omega
  · rw [s8, u8, s8]
    omega

theorem s8_of_small {x : ℤ} (h : -128 ≤ x ∧ x < 128) : s8 x = x := by
  rw [s8]
  omega

theorem char_of_small {x : ℤ} (h : 0 ≤ x ∧ x < 128) : dev.char x = x := by
  rw [Device.char]
  split_ifs
  · rw [s8]
    omega
  · rw [u8]
    omega

theorem u8_of_small {x : ℤ} (h : 0 ≤ x ∧ x < 256) : u8 x = x := by
  rw [u8]
  omega

theorem char_zero : dev.char 0 = 0 := char_of_small ⟨le_rfl, by decide⟩

/-- A sum of two numbers kept in a `char` is kept in one. -/
theorem char_add_char (x y : ℤ) : dev.char (x + dev.char y) = dev.char (x + y) := by
  rw [Device.char, Device.char, Device.char]
  split_ifs
  · rw [s8, s8, s8]
    omega
  · rw [u8, u8, u8]
    omega

theorem char_sub_char (x y : ℤ) : dev.char (dev.char x - dev.char y) = dev.char (x - y) := by
  rw [Device.char, Device.char, Device.char, Device.char]
  split_ifs
  · rw [s8, s8, s8, s8]
    omega
  · rw [u8, u8, u8, u8]
    omega

/-! ## The swing of a band -/

/-- The difference and the scale of a band once it has been read: the code of path B counts, then
    that of path A. -/
def bandSwing (dev : Device) (band : Band) : ℤ × ℕ :=
  if dev.autoloadFailflag then if dev.externalPa band then (-3, 0x16A) else (0, 0x200)
  else ((swingOfCode (dev.codes band).2).or (swingOfCode (dev.codes band).1)).getD (0, 0x200)

theorem swingOfCode_cases {code : ℕ} (h : code < 4) :
    swingOfCode code = some (0, 0x200) ∨ swingOfCode code = some (-3, 0x16A) ∨
      swingOfCode code = none := by
  rw [swingOfCode]
  by_cases h0 : code = 0x00
  · exact Or.inl (if_pos h0)
  · rw [if_neg h0]
    by_cases h1 : code = 0x01
    · exact Or.inr (Or.inl (if_pos h1))
    · rw [if_neg h1, if_neg (by omega), if_neg (by omega)]
      exact Or.inr (Or.inr rfl)

theorem bandSwing_cases (dev : Device) (band : Band) :
    bandSwing dev band = (0, 0x200) ∨ bandSwing dev band = (-3, 0x16A) := by
  rw [bandSwing]
  split_ifs
  · exact Or.inr rfl
  · exact Or.inl rfl
  · have ha : (dev.codes band).1 < 4 := Nat.mod_lt _ (by decide)
    have hb : (dev.codes band).2 < 4 := Nat.mod_lt _ (by decide)
    rcases swingOfCode_cases hb with h | h | h
    · exact Or.inl (by rw [h]; rfl)
    · exact Or.inr (by rw [h]; rfl)
    · rw [h, Option.none_or]
      rcases swingOfCode_cases ha with h | h | h
      · exact Or.inl (by rw [h]; rfl)
      · exact Or.inr (by rw [h]; rfl)
      · exact Or.inl (by rw [h]; rfl)

/-- What the source keeps of a band: nothing, or what has been read. -/
def Known (dev : Device) (s : Dm) (band : Band) : Prop :=
  s.swingDiff band = 0 ∨ s.swingDiff band = dev.char (bandSwing dev band).1

/-- With the difference of a band as it is once it has been read. -/
def withDiff (dev : Device) (band : Band) (s : Dm) : Dm :=
  { s with swingDiff := Function.update s.swingDiff band (dev.char (bandSwing dev band).1) }

theorem swingAutoloadFail_eq (h : dev.autoloadFailflag = true) :
    swingAutoloadFail dev band s = ((bandSwing dev band).2, withDiff dev band s) := by
  have hswing : dev.char (-1 * dev.char (-1)) = 1 := by
    rw [Device.char, Device.char]
    split_ifs <;> rfl
  rw [swingAutoloadFail, withDiff, bandSwing, if_pos h]
  simp only [hswing]
  rw [if_neg (by decide), if_neg (by decide), if_neg (by decide), if_neg (by decide)]
  by_cases hpa : dev.externalPa band = true
  · rw [if_pos hpa, if_pos hpa]
  · rw [if_neg hpa, if_neg hpa]

theorem phyGetTxSwing_eq (hs : Known dev s band) :
    phyGetTxSwing dev band s = ((bandSwing dev band).2, withDiff dev band s) := by
  rw [phyGetTxSwing]
  by_cases hfail : dev.autoloadFailflag = true
  · rw [if_pos hfail, swingAutoloadFail_eq hfail]
  · rw [if_neg hfail]
    have hcodes : bandSwing dev band =
        ((swingOfCode (dev.codes band).2).or (swingOfCode (dev.codes band).1)).getD (0, 0x200) :=
      if_neg hfail
    change applyCode dev band (dev.codes band).2
      (applyCode dev band (dev.codes band).1 (0x200, s)) = _
    rw [withDiff]
    cases hb : swingOfCode (dev.codes band).2 with
    | some r =>
      rw [hcodes, hb, Option.some_or, Option.getD_some, applyCode, hb]
      cases ha : swingOfCode (dev.codes band).1 with
      | some q => simp only [applyCode, ha, Function.update_idem]
      | none => simp only [applyCode, ha]
    | none =>
      rw [applyCode, hb, hcodes, hb, Option.none_or]
      cases ha : swingOfCode (dev.codes band).1 with
      | some q => simp only [applyCode, ha, Option.getD_some]
      | none =>
        have hzero : s.swingDiff band = dev.char 0 := by
          rw [Known, hcodes, ha, hb] at hs
          rcases hs with hs | hs
          · rw [hs, char_zero]
          · exact hs
        simp only [applyCode, ha, Option.getD_none, ← hzero, Function.update_eq_self]

/-! ## Moving the index -/

theorem paths_nodup (dev : Device) : dev.paths.Nodup := by
  rw [Device.paths]
  split <;> decide

theorem mem_paths (hp : p ∈ dev.paths) : p = .a ∨ p = .b := by
  rw [Device.paths] at hp
  split at hp
  · simpa using hp
  · exact Or.inl (by simpa using hp)

/-- The change of the swing of a path at a temperature. -/
def newSwing (dev : Device) (t : Swing) (thermal delta : ℕ) (p : RfPath) : ℤ :=
  if dev.base < thermal then (t.up p).getD delta 0 else -1 * (t.down p).getD delta 0

/-- What `moveIndex` leaves. -/
def movedIndex (dev : Device) (t : Swing) (thermal delta : ℕ) (s : Dm) (p : RfPath) : Dm :=
  { s with
    deltaPowerIndexLast := Function.update s.deltaPowerIndexLast p (s.deltaPowerIndex p)
    deltaPowerIndex :=
      Function.update s.deltaPowerIndex p (dev.char (newSwing dev t thermal delta p))
    absoluteOfdmSwingIdx := Function.update s.absoluteOfdmSwingIdx p
      (dev.char (if dev.base < thermal then t.upA.getD delta 0
        else newSwing dev t thermal delta p)) }

theorem readTable_of_lt {l : List ℕ} {i : ℕ} (h : i < l.length) :
    readTable l i = .ok (l.getD i 0) := if_pos h

theorem moveIndex_eq (ht : Sized t) (hdelta : delta < deltaSwingidxSize) :
    moveIndex dev t thermal delta = fun s p => pure (movedIndex dev t thermal delta s p) := by
  funext s p
  rw [moveIndex, movedIndex, newSwing]
  by_cases hup : dev.base < thermal
  · rw [if_pos hup, readTable_of_lt (by rw [(ht.up p).1]; exact hdelta), bind_ok,
      readTable_of_lt (by rw [ht.upA.1]; exact hdelta), bind_ok, if_pos hup, if_pos hup]
    rfl
  · rw [if_neg hup, readTable_of_lt (by rw [(ht.down p).1]; exact hdelta), bind_ok, if_neg hup,
      if_neg hup]
    rfl

theorem newSwing_range (ht : Sized t) (hdelta : delta < deltaSwingidxSize) (p : RfPath) :
    -18 ≤ newSwing dev t thermal delta p ∧ newSwing dev t thermal delta p ≤ 16 := by
  have hmem : ∀ l : List ℕ, l.length = deltaSwingidxSize → l.getD delta 0 ∈ l := by
    intro l hl
    have hlt : delta < l.length := by
      rw [hl]
      exact hdelta
    rw [List.getD_eq_getElem _ _ hlt]
    exact List.getElem_mem hlt
  rw [newSwing]
  split_ifs
  · have hup := (ht.up p).2 _ (hmem _ (ht.up p).1)
    omega
  · have hdown := (ht.down p).2.1 _ (hmem _ (ht.down p).1)
    omega

theorem newSwing_base (ht : Sized t) (p : RfPath) : newSwing dev t dev.base 0 p = 0 := by
  have hdown := (ht.down p).2.2
  rw [newSwing, if_neg (lt_irrefl _), List.getD_eq_getElem?_getD, hdown]
  rfl

/-! ## One path -/

/-- What the state has of a path. -/
structure PathPart where
  offset : ℤ
  ofdm : ℤ
  swing : ℤ
  index : ℤ
  last : ℤ
  base : ℤ

def Dm.part (s : Dm) (p : RfPath) : PathPart where
  offset := s.powerIndexOffset p
  ofdm := s.ofdmIndex p
  swing := s.swingIdxOfdm p
  index := s.deltaPowerIndex p
  last := s.deltaPowerIndexLast p
  base := s.swingIdxOfdmBase p

/-- The base is the default and the index, the latter read with its sign, and the index of the
    scale is their sum, limited. -/
structure PathPart.Ok (dev : Device) (default : ℤ) (q : PathPart) : Prop where
  index : q.index = dev.char (s8 q.index)
  range : -18 ≤ s8 q.index ∧ s8 q.index ≤ 16
  base : q.base = default + s8 q.index
  ofdm : q.ofdm = clampIndex (default + s8 q.index)

/-- What becomes of it when it moves by so much. -/
def PathPart.move (dev : Device) (swing : ℤ) (q : PathPart) : PathPart :=
  { q with last := q.index, index := dev.char swing }

def PathPart.offsetTo (dev : Device) (q : PathPart) : PathPart :=
  let offset := if q.index = q.last then 0 else dev.char (q.index - q.last)
  let ofdm := dev.char (q.base + offset)
  { q with offset := offset, ofdm := clampIndex ofdm, swing := u8 ofdm }

def PathPart.commit (q : PathPart) : PathPart := { q with base := q.swing }

section part

variable {d w x : ℤ} {q : PathPart}

theorem PathPart.offset_move (hq : q.index = dev.char x) :
    ((q.move dev w).offsetTo dev).offset = dev.char (w - x) := by
  change (if dev.char w = q.index then 0 else dev.char (dev.char w - q.index)) = _
  rw [hq]
  split_ifs with heq
  · rw [← char_sub_char, heq, sub_self, char_zero]
  · rw [char_sub_char]

/-- The differences of successive indices add up to the last of them. -/
theorem PathPart.sum_move (hd : d = 18 ∨ d = 24) (hw : -18 ≤ w ∧ w ≤ 16)
    (hq : q.index = dev.char x) (hbase : q.base = d + x) :
    dev.char (q.base + ((q.move dev w).offsetTo dev).offset) = d + w := by
  rw [PathPart.offset_move hq, char_add_char, hbase,
    show d + x + (w - x) = d + w by omega, char_of_small (by omega)]

/-- What moving a path leaves, if its base is set to the new swing afterwards. -/
theorem PathPart.Ok.move (hd : d = 18 ∨ d = 24) (hw : -18 ≤ w ∧ w ≤ 16) (hq : q.Ok dev d) :
    ((q.move dev w).offsetTo dev).commit.Ok dev d := by
  have hsum : dev.char (q.base + ((q.move dev w).offsetTo dev).offset) = d + w :=
    PathPart.sum_move hd hw hq.index hq.base
  have hindex : s8 (dev.char w) = w := by rw [s8_char, s8_of_small (by omega)]
  constructor
  · change dev.char w = dev.char (s8 (dev.char w))
    rw [hindex]
  · change -18 ≤ s8 (dev.char w) ∧ s8 (dev.char w) ≤ 16
    rw [hindex]
    exact hw
  · change u8 (dev.char (q.base + ((q.move dev w).offsetTo dev).offset)) = d + s8 (dev.char w)
    rw [hsum, hindex, u8_of_small (by omega)]
  · change clampIndex (dev.char (q.base + ((q.move dev w).offsetTo dev).offset)) = _
    rw [hsum]
    change _ = clampIndex (d + s8 (dev.char w))
    rw [hindex]

/-- If the offset is 0, the path has not moved. -/
theorem PathPart.Ok.still (hw : -18 ≤ w ∧ w ≤ 16) (hq : q.Ok dev d)
    (hoff : ((q.move dev w).offsetTo dev).offset = 0) :
    ((q.move dev w).offsetTo dev).index = q.index := by
  have hrange := hq.range
  rw [PathPart.offset_move hq.index] at hoff
  have hzero : w - s8 q.index = 0 := by
    rw [← s8_of_small (x := w - s8 q.index) (by omega), ← s8_char dev, hoff]
    rfl
  change dev.char w = q.index
  rw [hq.index, show w = s8 q.index by omega]

/-- Then it is as it has to be without its base being set. -/
theorem PathPart.Ok.rest (hd : d = 18 ∨ d = 24) (hw : -18 ≤ w ∧ w ≤ 16) (hq : q.Ok dev d)
    (hoff : ((q.move dev w).offsetTo dev).offset = 0) : ((q.move dev w).offsetTo dev).Ok dev d := by
  have hmove := hq.move hd hw
  refine ⟨hmove.index, hmove.range, ?_, hmove.ofdm⟩
  change q.base = _
  rw [hq.base, hq.still hw hoff]

end part

/-! ## All paths -/

/-- The part of the state that is not of a path, and that neither moving the index nor setting the
    power changes. -/
def Dm.rest (s : Dm) : Dm :=
  { s with
    powerIndexOffset := 0
    ofdmIndex := 0
    swingIdxOfdm := 0
    deltaPowerIndex := 0
    deltaPowerIndexLast := 0
    swingIdxOfdmBase := 0
    absoluteOfdmSwingIdx := 0
    remnantOfdmSwingIdx := 0
    remnantCckIdx := 0
    cckIndex := 0
    swingIdxCck := 0
    swingIdxCckBase := 0
    modifyTxagcFlagPathA := false
    txScale := 0
    thermalvalue := 0
    thermalvalueIqk := 0
    thermalvalueLck := 0 }

theorem part_movedIndex (s : Dm) (p : RfPath) :
    (movedIndex dev t thermal delta s p).part p =
      (s.part p).move dev (newSwing dev t thermal delta p) := by
  simp only [Dm.part, movedIndex, PathPart.move, Function.update_self]

theorem part_movedIndex_ne {j : RfPath} (h : j ≠ p) (s : Dm) :
    (movedIndex dev t thermal delta s j).part p = s.part p := by
  simp only [Dm.part, movedIndex, Function.update_of_ne h.symm]

theorem part_offsetIndex (s : Dm) (p : RfPath) :
    (offsetIndex dev s p).part p = (s.part p).offsetTo dev := by
  simp only [Dm.part, offsetIndex, PathPart.offsetTo, Function.update_self]
  rfl

theorem part_offsetIndex_ne {j : RfPath} (h : j ≠ p) (s : Dm) :
    (offsetIndex dev s j).part p = s.part p := by
  simp only [Dm.part, offsetIndex, Function.update_of_ne h.symm]

theorem part_clearOffset (s : Dm) (p : RfPath) :
    (clearOffset s p).part p = { s.part p with offset := 0 } := by
  simp only [Dm.part, clearOffset, Function.update_self]

theorem part_clearOffset_ne {j : RfPath} (h : j ≠ p) (s : Dm) :
    (clearOffset s j).part p = s.part p := by
  simp only [Dm.part, clearOffset, Function.update_of_ne h.symm]

theorem part_commitBase (s : Dm) (p : RfPath) :
    (commitBase s p).part p = (s.part p).commit := by
  simp only [Dm.part, commitBase, PathPart.commit, Function.update_self]

theorem part_commitBase_ne {j : RfPath} (h : j ≠ p) (s : Dm) :
    (commitBase s j).part p = s.part p := by
  simp only [Dm.part, commitBase, Function.update_of_ne h.symm]

/-- A loop over the paths of the device: each of them is changed once, the others are not. -/
theorem part_foldl {f : Dm → RfPath → Dm} {c : RfPath → PathPart → PathPart}
    (hne : ∀ {j p : RfPath}, j ≠ p → ∀ s, (f s j).part p = s.part p)
    (hself : ∀ s p, (f s p).part p = c p (s.part p)) (s : Dm) (p : RfPath) :
    (dev.paths.foldl f s).part p = if p ∈ dev.paths then c p (s.part p) else s.part p := by
  split_ifs with hp
  · exact foldl_once (g := fun s => s.part p) (paths_nodup dev) hp
      (fun s j _ hj => hne hj s) (fun s => hself s p) s
  · refine foldl_keeps (g := fun s => s.part p) (fun s j hj => hne (fun h => hp ?_) s) s
    exact h ▸ hj

/-! ## One run of a callback -/

/-- What is true between the runs. -/
structure Tracked (dev : Device) (s : Dm) : Prop where
  default : s.defaultOfdmIndex = 18 ∨ s.defaultOfdmIndex = 24
  part : ∀ p, (s.part p).Ok dev s.defaultOfdmIndex
  others : ∀ p ∉ dev.paths, s.deltaPowerIndex p = 0 ∧ s.powerIndexOffset p = 0
  atBase : s.thermalvalue = dev.base → ∀ p, s.deltaPowerIndex p = 0
  uncalibrated : dev.calibrated = false → s.thermalvalue = dev.base
  control : s.txpowerTrackControl = true
  ring : s.thermalvalueAvgIndex < 4
  known : ∀ band, Known dev s band
  band : dev.adjusts = true →
    s.swingDiff s.currentBandtype = dev.char (bandSwing dev s.currentBandtype).1 ∧
      s.defaultOfdmIndex = 24 + 2 * (bandSwing dev s.currentBandtype).1

/-- What moving the index leaves: a path whose offset is 0 has not moved, and if there is an offset,
    setting the bases is right for every path. -/
structure Moved (dev : Device) (thermal : ℕ) (s s' : Dm) : Prop where
  rest : s'.rest = s.rest
  thermalvalue : s'.thermalvalue = s.thermalvalue
  others : ∀ p ∉ dev.paths, s'.part p = s.part p
  still : ∀ p ∈ dev.paths, s'.powerIndexOffset p = 0 →
    s'.deltaPowerIndex p = s.deltaPowerIndex p ∧ (s'.part p).Ok dev s.defaultOfdmIndex
  moved : ∀ p ∈ dev.paths, s'.powerIndexOffset p ≠ 0 → ∀ q ∈ dev.paths,
    (s'.part q).commit.Ok dev s.defaultOfdmIndex
  atBase : thermal = dev.base → ∀ p, s'.deltaPowerIndex p = 0

theorem distance_eq_zero {x y : ℕ} : distance x y = 0 ↔ x = y := by
  rw [distance]
  split_ifs
  · omega
  · omega

/-- Nothing has changed. -/
theorem clearOffsets_moved (hs : Tracked dev s) (hsame : thermal = s.thermalvalue) :
    Moved dev thermal s (dev.paths.foldl clearOffset s) := by
  have hpart : ∀ p, (dev.paths.foldl clearOffset s).part p =
      if p ∈ dev.paths then { s.part p with offset := 0 } else s.part p :=
    part_foldl (c := fun _ q => { q with offset := 0 }) part_clearOffset_ne part_clearOffset s
  have hindex : ∀ p, (dev.paths.foldl clearOffset s).deltaPowerIndex p = s.deltaPowerIndex p := by
    intro p
    have h := congrArg PathPart.index (hpart p)
    split_ifs at h
    · exact h
    · exact h
  constructor
  · exact foldl_keeps (f := clearOffset) (g := Dm.rest) (fun _ _ _ => rfl) s
  · exact foldl_keeps (f := clearOffset) (g := Dm.thermalvalue) (fun _ _ _ => rfl) s
  · intro p hp
    rw [hpart, if_neg hp]
  · intro p hp _
    refine ⟨hindex p, ?_⟩
    have hok := hs.part p
    rw [hpart, if_pos hp]
    exact ⟨hok.index, hok.range, hok.base, hok.ofdm⟩
  · intro p hp hne
    have h := congrArg PathPart.offset (hpart p)
    rw [if_pos hp] at h
    exact absurd h hne
  · intro hbase p
    rw [hindex]
    exact hs.atBase (hsame.symm.trans hbase) p

/-- The loops of a change of temperature. -/
theorem offsets_moved (hs : Tracked dev s) (ht : Sized t) (hdelta : delta < deltaSwingidxSize)
    (hbase : thermal = dev.base → delta = 0) :
    Moved dev thermal s
      (dev.paths.foldl (offsetIndex dev)
        (dev.paths.foldl (movedIndex dev t thermal delta) s)) := by
  have hpart : ∀ p ∈ dev.paths,
      (dev.paths.foldl (offsetIndex dev)
        (dev.paths.foldl (movedIndex dev t thermal delta) s)).part p =
      ((s.part p).move dev (newSwing dev t thermal delta p)).offsetTo dev := by
    intro p hp
    rw [part_foldl (c := fun _ => PathPart.offsetTo dev) part_offsetIndex_ne part_offsetIndex,
      if_pos hp, part_foldl (c := fun p => PathPart.move dev (newSwing dev t thermal delta p))
        part_movedIndex_ne part_movedIndex, if_pos hp]
  have hother : ∀ p ∉ dev.paths,
      (dev.paths.foldl (offsetIndex dev)
        (dev.paths.foldl (movedIndex dev t thermal delta) s)).part p = s.part p := by
    intro p hp
    rw [part_foldl (c := fun _ => PathPart.offsetTo dev) part_offsetIndex_ne part_offsetIndex,
      if_neg hp, part_foldl (c := fun p => PathPart.move dev (newSwing dev t thermal delta p))
        part_movedIndex_ne part_movedIndex, if_neg hp]
  have hrange : ∀ p, -18 ≤ newSwing dev t thermal delta p ∧ newSwing dev t thermal delta p ≤ 16 :=
    newSwing_range ht hdelta
  constructor
  · rw [foldl_keeps (f := offsetIndex dev) (g := Dm.rest) (fun _ _ _ => rfl),
      foldl_keeps (f := movedIndex dev t thermal delta) (g := Dm.rest) (fun _ _ _ => rfl)]
  · rw [foldl_keeps (f := offsetIndex dev) (g := Dm.thermalvalue) (fun _ _ _ => rfl),
      foldl_keeps (f := movedIndex dev t thermal delta) (g := Dm.thermalvalue) (fun _ _ _ => rfl)]
  · exact hother
  · intro p hp hzero
    have hoff :
        (((s.part p).move dev (newSwing dev t thermal delta p)).offsetTo dev).offset = 0 := by
      rw [← hpart p hp]
      exact hzero
    refine ⟨?_, ?_⟩
    · have hindex := congrArg PathPart.index (hpart p hp)
      exact hindex.trans ((hs.part p).still (hrange p) hoff)
    · rw [hpart p hp]
      exact (hs.part p).rest hs.default (hrange p) hoff
  · intro _ _ _ q hq
    have hswing := congrArg PathPart.swing (hpart q hq)
    have hmove := (hs.part q).move hs.default (hrange q)
    rw [← hpart q hq] at hmove
    exact hmove
  · intro hthermal p
    by_cases hp : p ∈ dev.paths
    · have hindex := congrArg PathPart.index (hpart p hp)
      obtain rfl := hbase hthermal
      obtain rfl := hthermal
      have hzero : dev.char (newSwing dev t dev.base 0 p) = 0 := by
        rw [newSwing_base ht, char_zero]
      exact hindex.trans hzero
    · have hindex := congrArg PathPart.index (hother p hp)
      exact hindex.trans (hs.others p hp).1

theorem moveSwing_ok (hs : Tracked dev s) (ht : Sized t) (hcontrol : s.txpowerTrackControl = true)
    (hnear : thermal ≠ s.thermalvalue → distance thermal dev.base < deltaSwingidxSize) :
    ∃ s', moveSwing dev t thermal s = .ok s' ∧ Moved dev thermal s s' := by
  rw [moveSwing]
  by_cases hsame : thermal = s.thermalvalue
  · rw [if_neg (by rw [distance_eq_zero.mpr hsame]; exact fun h => lt_irrefl 0 h.1)]
    exact ⟨_, rfl, clearOffsets_moved hs hsame⟩
  · have hdelta := hnear hsame
    have hcap : ¬ txscaleTableSize ≤ distance thermal dev.base := by
      rw [deltaSwingidxSize] at hdelta
      rw [txscaleTableSize]
      omega
    have hpos : 0 < distance thermal s.thermalvalue :=
      Nat.pos_of_ne_zero fun h => hsame (distance_eq_zero.mp h)
    rw [if_pos ⟨hpos, hcontrol⟩]
    have hmoved := offsets_moved hs ht hdelta distance_eq_zero.mpr
    simp only [if_neg hcap, moveIndex_eq ht hdelta, List.foldlM_pure, pure_bind]
    exact ⟨_, rfl, ⟨hmoved.rest, hmoved.thermalvalue, hmoved.others, hmoved.still, hmoved.moved,
      hmoved.atBase⟩⟩

/-! ### Setting the power -/

/-- The state without what setting the power changes. -/
def Dm.unset (s : Dm) : Dm :=
  { s with
    txScale := 0
    remnantOfdmSwingIdx := 0
    remnantCckIdx := 0
    modifyTxagcFlagPathA := false }

theorem readScale_of_le {i : ℤ} (h : 0 ≤ i ∧ i ≤ pwrTrackingLimit) :
    ∃ scale, readScale i = .ok scale := by
  refine ⟨_, if_pos ⟨h.1, ?_⟩⟩
  have hlimit : i ≤ 26 := h.2
  rw [txscaleTableSize]
  omega

theorem pxpwrTrackSetPwr_ok (h : 0 ≤ s.ofdmIndex p) :
    ∃ s', pxpwrTrackSetPwr s p = .ok s' ∧ s'.unset = s.unset := by
  have hfinal : 0 ≤ (if pwrTrackingLimit < s.ofdmIndex p then pwrTrackingLimit else s.ofdmIndex p) ∧
      (if pwrTrackingLimit < s.ofdmIndex p then pwrTrackingLimit else s.ofdmIndex p) ≤
        pwrTrackingLimit := by
    split_ifs with hlimit
    · exact ⟨by decide, le_rfl⟩
    · exact ⟨h, not_lt.mp hlimit⟩
  obtain ⟨scale, hscale⟩ := readScale_of_le hfinal
  refine ⟨{ s with txScale := Function.update s.txScale p scale }, ?_, rfl⟩
  rw [pxpwrTrackSetPwr]
  simp only [hscale, bind_ok]

/-- The mix mode limits every sum. -/
theorem txpwrTrackSetPwr_ok (dev : Device) (s : Dm) (p : RfPath) :
    ∃ s', txpwrTrackSetPwr dev s p = .ok s' ∧ s'.unset = s.unset := by
  rw [txpwrTrackSetPwr]
  generalize s8 (s.defaultOfdmIndex + s.absoluteOfdmSwingIdx p) = final
  simp only
  by_cases hhigh : pwrTrackingLimit < final
  · obtain ⟨scale, hscale⟩ := readScale_of_le (i := pwrTrackingLimit) ⟨by decide, le_rfl⟩
    rw [if_pos hhigh, hscale, bind_ok]
    exact ⟨_, rfl, rfl⟩
  · rw [if_neg hhigh]
    by_cases hlow : final < 0
    · obtain ⟨scale, hscale⟩ := readScale_of_le (i := 0) ⟨le_rfl, by decide⟩
      rw [if_pos hlow, hscale, bind_ok]
      exact ⟨_, rfl, rfl⟩
    · obtain ⟨scale, hscale⟩ := readScale_of_le (i := final) ⟨not_lt.mp hlow, not_lt.mp hhigh⟩
      rw [if_neg hlow, hscale, bind_ok]
      split_ifs
      · exact ⟨_, rfl, rfl⟩
      · exact ⟨_, rfl, rfl⟩

/-- A function that sets the power without leaving the table of scales. -/
def SetsPower (setPwr : Dm → RfPath → Except Checked.Fault Dm) : Prop :=
  ∀ s p, 0 ≤ s.ofdmIndex p → ∃ s', setPwr s p = .ok s' ∧ s'.unset = s.unset

theorem setPwr_paths {setPwr : Dm → RfPath → Except Checked.Fault Dm} (hset : SetsPower setPwr)
    (hs : ∀ p, 0 ≤ s.ofdmIndex p) (ps : List RfPath) :
    ∃ s', ps.foldlM setPwr s = .ok s' ∧ s'.unset = s.unset := by
  refine foldlM_fine (P := fun s' : Dm => s'.unset = s.unset) (fun s₁ p h₁ => ?_) ps rfl
  have hofdm : s₁.ofdmIndex = s.ofdmIndex := (congrArg Dm.ofdmIndex h₁ :)
  obtain ⟨s₂, hrun, h₂⟩ := hset s₁ p (by rw [hofdm]; exact hs p)
  exact ⟨s₂, hrun, h₂.trans h₁⟩

/-! ### The whole run -/

theorem clampIndex_nonneg (x : ℤ) : 0 ≤ clampIndex x := by
  rw [clampIndex, lastScale]
  split_ifs
  · decide
  · exact le_rfl
  · omega

theorem Tracked.of_rest (hs : Tracked dev s) (hrest : s'.rest = s.rest)
    (hpart : ∀ p, (s'.part p).Ok dev s.defaultOfdmIndex)
    (hothers : ∀ p ∉ dev.paths, s'.deltaPowerIndex p = 0 ∧ s'.powerIndexOffset p = 0)
    (hbase : s'.thermalvalue = dev.base → ∀ p, s'.deltaPowerIndex p = 0)
    (hcal : dev.calibrated = false → s'.thermalvalue = dev.base) : Tracked dev s' := by
  have hdefault : s'.defaultOfdmIndex = s.defaultOfdmIndex := (congrArg Dm.defaultOfdmIndex hrest :)
  have hdiff : s'.swingDiff = s.swingDiff := (congrArg Dm.swingDiff hrest :)
  have hband : s'.currentBandtype = s.currentBandtype := (congrArg Dm.currentBandtype hrest :)
  have hcontrol : s'.txpowerTrackControl = s.txpowerTrackControl :=
    (congrArg Dm.txpowerTrackControl hrest :)
  have hring : s'.thermalvalueAvgIndex = s.thermalvalueAvgIndex :=
    (congrArg Dm.thermalvalueAvgIndex hrest :)
  constructor
  · rw [hdefault]
    exact hs.default
  · rw [hdefault]
    exact hpart
  · exact hothers
  · exact hbase
  · exact hcal
  · rw [hcontrol]
    exact hs.control
  · rw [hring]
    exact hs.ring
  · intro band
    rw [Known, hdiff]
    exact hs.known band
  · rw [hdefault, hdiff, hband]
    exact hs.band

theorem configureSwing_ok {setPwr : Dm → RfPath → Except Checked.Fault Dm} (hset : SetsPower setPwr)
    (hs : Tracked dev s) (hcal : dev.calibrated = true) (hm : Moved dev thermal s s')
    (hcontrol : s'.txpowerTrackControl = true) :
    ∃ s₂, configureSwing dev setPwr thermal s' = .ok s₂ ∧ Tracked dev s₂ ∧ s₂.rest = s.rest ∧
      (thermal = dev.base → ∀ p, s₂.deltaPowerIndex p = 0) := by
  have hothers : ∀ p ∉ dev.paths, s'.deltaPowerIndex p = 0 ∧ s'.powerIndexOffset p = 0 := by
    intro p hp
    have hpart := hm.others p hp
    exact ⟨(congrArg PathPart.index hpart).trans (hs.others p hp).1,
      (congrArg PathPart.offset hpart).trans (hs.others p hp).2⟩
  rw [configureSwing]
  by_cases hoff : s'.powerIndexOffset .a ≠ 0 ∨ s'.powerIndexOffset .b ≠ 0
  · -- an offset is that of a path of the device, and all bases are set
    rw [if_pos ⟨hoff, hcontrol⟩]
    obtain ⟨j, hj, hne⟩ : ∃ j ∈ dev.paths, s'.powerIndexOffset j ≠ 0 := by
      rcases hoff with h | h
      · exact ⟨.a, by by_contra hno; exact h (hothers _ hno).2, h⟩
      · exact ⟨.b, by by_contra hno; exact h (hothers _ hno).2, h⟩
    have hmoved := hm.moved j hj hne
    have hnonneg : ∀ p, 0 ≤ s'.ofdmIndex p := by
      intro p
      by_cases hp : p ∈ dev.paths
      · rw [show s'.ofdmIndex p = _ from (hmoved p hp).ofdm]
        exact clampIndex_nonneg _
      · rw [show s'.ofdmIndex p = _ from congrArg PathPart.ofdm (hm.others p hp),
          (hs.part p).ofdm]
        exact clampIndex_nonneg _
    obtain ⟨s₁, hrun, h₁⟩ := setPwr_paths hset hnonneg dev.paths
    rw [hrun, bind_ok]
    have hpart₁ : ∀ p, s₁.part p = s'.part p := fun p =>
      (congrArg (fun s => Dm.part s p) h₁ :)
    have hpart : ∀ p,
        (dev.paths.foldl commitBase { s₁ with swingIdxCckBase := s₁.swingIdxCck }).part p =
        if p ∈ dev.paths then (s'.part p).commit else s'.part p := by
      intro p
      rw [← hpart₁ p]
      exact part_foldl (c := fun _ => PathPart.commit) part_commitBase_ne
        part_commitBase _ p
    have hrest : (dev.paths.foldl commitBase { s₁ with swingIdxCckBase := s₁.swingIdxCck }).rest =
        s.rest := by
      rw [foldl_keeps (f := commitBase) (g := Dm.rest) (fun _ _ _ => rfl), ← hm.rest]
      exact (congrArg Dm.rest h₁ :)
    have hindex : ∀ p,
        (dev.paths.foldl commitBase
          { s₁ with swingIdxCckBase := s₁.swingIdxCck }).deltaPowerIndex p =
        s'.deltaPowerIndex p := by
      intro p
      have h := congrArg PathPart.index (hpart p)
      split_ifs at h
      · exact h
      · exact h
    refine ⟨_, rfl, hs.of_rest hrest ?_ ?_ ?_ ?_, hrest, ?_⟩
    · intro p
      by_cases hp : p ∈ dev.paths
      · have hok := hmoved p hp
        have heq := hpart p
        rw [if_pos hp] at heq
        rw [← heq] at hok
        exact hok
      · have heq := hpart p
        rw [if_neg hp, hm.others p hp] at heq
        have hok := hs.part p
        rw [← heq] at hok
        exact hok
    · intro p hp
      have heq := hpart p
      rw [if_neg hp] at heq
      exact ⟨(hindex p).trans (hothers p hp).1,
        (congrArg PathPart.offset heq).trans (hothers p hp).2⟩
    · intro hthermal p
      exact (hindex p).trans (hm.atBase hthermal p)
    · intro hno
      rw [hcal] at hno
      cases hno
    · intro hthermal p
      exact (hindex p).trans (hm.atBase hthermal p)
  · -- no path has moved
    rw [if_neg fun h => hoff h.1]
    have hstill : ∀ p ∈ dev.paths, s'.powerIndexOffset p = 0 := by
      intro p hp
      by_contra hne
      rcases mem_paths hp with rfl | rfl
      · exact hoff (Or.inl hne)
      · exact hoff (Or.inr hne)
    have hindex : ∀ p, s'.deltaPowerIndex p = s.deltaPowerIndex p := by
      intro p
      by_cases hp : p ∈ dev.paths
      · exact (hm.still p hp (hstill p hp)).1
      · exact congrArg PathPart.index (hm.others p hp)
    refine ⟨s', rfl, hs.of_rest hm.rest ?_ hothers ?_ ?_, hm.rest, hm.atBase⟩
    · intro p
      by_cases hp : p ∈ dev.paths
      · exact (hm.still p hp (hstill p hp)).2
      · rw [hm.others p hp]
        exact hs.part p
    · intro hthermal p
      rw [hindex]
      exact hs.atBase (hm.thermalvalue.symm.trans hthermal) p
    · intro hno
      rw [hm.thermalvalue]
      exact hs.uncalibrated hno

theorem recordReading_tracked (hs : Tracked dev s) (reading : Fin 64) :
    Tracked dev (recordReading reading s) := by
  refine ⟨hs.default, hs.part, hs.others, hs.atBase, hs.uncalibrated, hs.control, ?_, hs.known,
    hs.band⟩
  have hring := hs.ring
  change (if s.thermalvalueAvgIndex + 1 = 4 then 0 else s.thermalvalueAvgIndex + 1) < 4
  split_ifs
  · decide
  · omega

/-- The mean that a callback works with. -/
def averaged (reading : Fin 64) (s : Dm) : ℕ := average reading (recordReading reading s)

/-- The distance at which a table is looked up is in the tables. -/
def Near (dev : Device) (reading : Fin 64) (s : Dm) : Prop :=
  distance (averaged reading s) dev.base < deltaSwingidxSize

theorem lcCalibrate_tracked (hs : Tracked dev s) (thermal : ℕ) :
    Tracked dev (lcCalibrate thermal s) := by
  rw [lcCalibrate]
  split_ifs
  · exact hs.of_rest rfl hs.part hs.others hs.atBase hs.uncalibrated
  · exact hs

theorem lcCalibrate_rest (thermal : ℕ) (s : Dm) :
    (lcCalibrate thermal s).rest = s.rest ∧
      (lcCalibrate thermal s).thermalvalue = s.thermalvalue := by
  rw [lcCalibrate]
  split_ifs
  · exact ⟨rfl, rfl⟩
  · exact ⟨rfl, rfl⟩

theorem doIqk_tracked (hs : Tracked dev s) (thermal deltaIqk : ℕ) :
    Tracked dev (doIqk thermal deltaIqk s) ∧ (doIqk thermal deltaIqk s).rest = s.rest ∧
      (doIqk thermal deltaIqk s).deltaPowerIndex = s.deltaPowerIndex := by
  rw [doIqk]
  split_ifs
  · exact ⟨hs.of_rest rfl hs.part hs.others hs.atBase hs.uncalibrated, rfl, rfl⟩
  · exact ⟨hs, rfl, rfl⟩

/-- The callback, where there is a base. -/
theorem callback_eq {setPwr : Dm → RfPath → Except Checked.Fault Dm} {reading : Fin 64}
    (hs : Tracked dev s) (hcal : dev.calibrated = true) :
    txpowerTrackingCallback dev t setPwr reading s =
      (moveSwing dev t (averaged reading s)
          (lcCalibrate (averaged reading s) (recordReading reading s)) >>= fun s₁ =>
        configureSwing dev setPwr (averaged reading s) s₁ >>= fun s₂ =>
        .ok (doIqk (averaged reading s) (distance (averaged reading s) s.thermalvalueIqk) s₂)) :=
  if_pos ⟨hs.control, hcal⟩

theorem callback_ok {setPwr : Dm → RfPath → Except Checked.Fault Dm} {reading : Fin 64}
    (ht : Sized t) (hset : SetsPower setPwr) (hs : Tracked dev s) (hcal : dev.calibrated = true)
    (hnear : averaged reading s ≠ s.thermalvalue → Near dev reading s) :
    ∃ s', txpowerTrackingCallback dev t setPwr reading s = .ok s' ∧ Tracked dev s' ∧
      s'.rest = (recordReading reading s).rest ∧
      (averaged reading s = dev.base → ∀ p, s'.deltaPowerIndex p = 0) := by
  have hs₁ := lcCalibrate_tracked (recordReading_tracked hs reading) (averaged reading s)
  obtain ⟨hrest₁, hthermal₁⟩ :=
    lcCalibrate_rest (averaged reading s) (recordReading reading s)
  obtain ⟨s₂, hrun₂, hmoved⟩ :=
    moveSwing_ok hs₁ ht hs₁.control fun h => hnear (hthermal₁ ▸ h)
  have hcontrol : s₂.txpowerTrackControl = true :=
    (congrArg Dm.txpowerTrackControl hmoved.rest :).trans hs₁.control
  obtain ⟨s₃, hrun₃, hs₃, hrest₃, hbase⟩ := configureSwing_ok hset hs₁ hcal hmoved hcontrol
  obtain ⟨hs₄, hrest₄, hindex⟩ := doIqk_tracked hs₃ (averaged reading s)
    (distance (averaged reading s) s.thermalvalueIqk)
  refine ⟨_, ?_, hs₄, hrest₄.trans (hrest₃.trans hrest₁), fun h p => ?_⟩
  · rw [callback_eq hs hcal, hrun₂, bind_ok, hrun₃, bind_ok]
  · rw [hindex]
    exact hbase h p

theorem callback_uncalibrated {setPwr : Dm → RfPath → Except Checked.Fault Dm} {reading : Fin 64}
    (hcal : dev.calibrated = false) : txpowerTrackingCallback dev t setPwr reading s = .ok s :=
  if_neg fun h => by rw [hcal] at h; exact absurd h.2 (by decide)

theorem track_ok (hs : Tracked dev s) {reading : Fin 64}
    (hnear : dev.calibrated = true → averaged reading s ≠ s.thermalvalue → Near dev reading s) :
    ∃ s', checkTxPowerTracking dev reading s = .ok s' ∧ Tracked dev s' ∧
      s'.rest = (if dev.calibrated then recordReading reading s else s).rest ∧
      (averaged reading s = dev.base → ∀ p, s'.deltaPowerIndex p = 0) := by
  rw [checkTxPowerTracking, rtl8812auTxpowerTrackingCallback, rtl8821auTxpowerTrackingCallback]
  by_cases hcal : dev.calibrated = true
  · rw [if_pos hcal]
    cases dev.chip with
    | rtl8812 =>
      exact callback_ok (rtl8812auGetDeltaSwingTable_sized _ _ _ _)
        (fun s p h => pxpwrTrackSetPwr_ok h) hs hcal (hnear hcal)
    | rtl8821 =>
      exact callback_ok (rtl8821auGetDeltaSwingTable_sized _)
        (fun s p _ => txpwrTrackSetPwr_ok dev s p) hs hcal (hnear hcal)
  · have hno : dev.calibrated = false := eq_false_of_ne_true hcal
    rw [if_neg hcal, callback_uncalibrated hno, callback_uncalibrated hno]
    refine ⟨s, ?_, hs, rfl, fun _ => hs.atBase (hs.uncalibrated hno)⟩
    cases dev.chip with
    | rtl8812 => rfl
    | rtl8821 => rfl

/-! ### Leaving the tables -/

theorem moveIndex_leaves (ht : Sized t) (hdelta : deltaSwingidxSize ≤ delta) (s : Dm) (p : RfPath) :
    moveIndex dev t thermal delta s p = .error .beyond := by
  rw [moveIndex]
  split_ifs
  · rw [show readTable (t.up p) delta = .error .beyond from
      if_neg (by rw [(ht.up p).1]; omega), bind_error]
  · rw [show readTable (t.down p) delta = .error .beyond from
      if_neg (by rw [(ht.down p).1]; omega), bind_error]

/-- The limit of the distance is that of the other table. -/
theorem moveSwing_leaves (ht : Sized t) (hcontrol : s.txpowerTrackControl = true)
    (hsame : thermal ≠ s.thermalvalue) (hfar : deltaSwingidxSize ≤ distance thermal dev.base) :
    moveSwing dev t thermal s = .error .beyond := by
  have hpos : 0 < distance thermal s.thermalvalue :=
    Nat.pos_of_ne_zero fun h => hsame (distance_eq_zero.mp h)
  have hcapped : deltaSwingidxSize ≤ if txscaleTableSize ≤ distance thermal dev.base
      then txscaleTableSize - 1 else distance thermal dev.base := by
    split_ifs
    · decide
    · exact hfar
  obtain ⟨p, ps, hpaths⟩ : ∃ p ps, dev.paths = p :: ps := by
    rw [Device.paths]
    cases dev.chip with
    | rtl8812 => exact ⟨_, _, rfl⟩
    | rtl8821 => exact ⟨_, _, rfl⟩
  rw [moveSwing, if_pos ⟨hpos, hcontrol⟩]
  simp only [hpaths, List.foldlM_cons, moveIndex_leaves ht hcapped, bind_error]

/-- A callback leaves the tables exactly when the mean has changed and is too far from the base. -/
theorem track_fine_iff (hs : Tracked dev s) (reading : Fin 64) :
    Fine (checkTxPowerTracking dev reading s) ↔
      (dev.calibrated = true → averaged reading s ≠ s.thermalvalue → Near dev reading s) := by
  constructor
  · intro hfine hcal hsame
    by_contra hfar
    have hleaves : ∀ {t : Swing} (setPwr), Sized t →
        txpowerTrackingCallback dev t setPwr reading s = .error .beyond := by
      intro t setPwr ht
      have hs₁ := lcCalibrate_tracked (recordReading_tracked hs reading) (averaged reading s)
      obtain ⟨_, hthermal₁⟩ := lcCalibrate_rest (averaged reading s) (recordReading reading s)
      rw [callback_eq hs hcal, moveSwing_leaves ht hs₁.control (fun h => hsame (h.trans hthermal₁))
        (not_lt.mp hfar), bind_error]
    rw [checkTxPowerTracking, rtl8812auTxpowerTrackingCallback, rtl8821auTxpowerTrackingCallback,
      hleaves _ (rtl8812auGetDeltaSwingTable_sized _ _ _ _),
      hleaves _ (rtl8821auGetDeltaSwingTable_sized _)] at hfine
    split at hfine
    · exact not_fine_error _ hfine
    · exact not_fine_error _ hfine
  · intro h
    obtain ⟨s', hrun, _⟩ := track_ok hs h
    exact ⟨s', hrun⟩

end Rtl8821au.Phy.ThermalTrack
