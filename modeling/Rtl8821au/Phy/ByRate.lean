import Mathlib.Algebra.Group.Nat.Defs
import Mathlib.Data.List.Basic
import Mathlib.Tactic.SplitIfs

/-!
# Power by rate

`tx_power_by_rate_offset` of `struct rtl_phy` (`wifi.h`, lines 904–907): how
`_rtl8821au_store_tx_power_by_rate` loads the lines of the tables into it (`phy.c`, lines
5457–5916), and `_rtl8821au_phy_get_txpower_by_rate` reads it (lines 5230–5264).

* `load_ok_iff`: when no line is stored outside or without values, and what the table is then.
* `load_never_right`: not every rate can be read back, whatever is loaded.

**What goes wrong.** The last dimension of the table has 12 entries (`TX_PWR_BY_RATE_NUM_SECTION`),
and it is indexed with one of 84 rates (`TX_PWR_BY_RATE_NUM_RATE`). An index from 12 on is in
another row, that of another rate, and in the last rows behind the table. Four registers have two
rates and count four. The number of streams stays at that of `MGN_VHT2SS_MCS0` once it has been
set.

The table is zero at first, as the record is allocated. What a `s8` leaves in an `u32` of it is
read back as it was.
-/

namespace Rtl8821au.Phy.ByRate

/-! ## Rates -/

/-- `enum MGN_RATE` in the order of the indices. -/
def mgnRates : List UInt8 :=
  [0x02, 0x04, 0x0B, 0x16, 0x0C, 0x12, 0x18, 0x24, 0x30, 0x48, 0x60, 0x6C,
    0x80, 0x81, 0x82, 0x83, 0x84, 0x85, 0x86, 0x87, 0x88, 0x89, 0x8A, 0x8B, 0x8C, 0x8D, 0x8E, 0x8F,
    0x90, 0x91, 0x92, 0x93, 0x94, 0x95, 0x96, 0x97, 0x98, 0x99, 0x9A, 0x9B, 0x9C, 0x9D, 0x9E, 0x9F,
    0xA0, 0xA1, 0xA2, 0xA3, 0xA4, 0xA5, 0xA6, 0xA7, 0xA8, 0xA9,
    0xAA, 0xAB, 0xAC, 0xAD, 0xAE, 0xAF, 0xB0, 0xB1, 0xB2, 0xB3,
    0xB4, 0xB5, 0xB6, 0xB7, 0xB8, 0xB9, 0xBA, 0xBB, 0xBC, 0xBD,
    0xBE, 0xBF, 0xC0, 0xC1, 0xC2, 0xC3, 0xC4, 0xC5, 0xC6, 0xC7]

/-- `PHY_GetRateIndexOfTxPowerByRate` (lines 3118–3382). -/
def getRateIndex (rate : UInt8) : ℕ := (mgnRates.findIdx? (· == rate)).getD 0

/-- `RF_1TX`, `RF_2TX` and `RF_MAX_TX_NUM`. -/
def rf1Tx : ℕ := 0

def rf2Tx : ℕ := 1

def rfMaxTxNum : ℕ := 4

/-- `phy_GetCurrentTxNum_8812A` (lines 3105–3116). -/
def getCurrentTxNum (rate : UInt8) : ℕ :=
  if 0x88 ≤ rate ∧ rate ≤ 0x8F ∨ 0xAA ≤ rate ∧ rate ≤ 0xB3 then rf2Tx else rf1Tx

/-! ## Lines -/

/-- A line: `band`, `rfpath`, `txnum`, `regaddr`, `bitmask` and `data`. -/
structure Line where
  band : ℕ
  rfpath : ℕ
  txnum : ℕ
  regaddr : ℕ
  bitmask : ℕ
  data : ℕ
deriving DecidableEq

/-- Two decimal digits. -/
def digits (data i : ℕ) : Int8 :=
  .ofNat (data / 2 ^ (i * 8 + 4) % 16 * 10 + data / 2 ^ (i * 8) % 16)

/-- Rates from the byte `i` on. -/
def bytesFrom (rates : List UInt8) (i : ℕ) : List (Option (UInt8 × ℕ)) :=
  rates.mapIdx fun k rate => some (rate, i + k)

/-- The rates of a register, and which byte has the value of each; `none` is counted in `RateNum`
    and not set (lines 5461–5860). -/
def ratesOf (regaddr bitmask : ℕ) : List (Option (UInt8 × ℕ)) :=
  if regaddr ∈ [0xe00, 0x830] then bytesFrom [0x0C, 0x12, 0x18, 0x24] 0
  else if regaddr ∈ [0xe04, 0x834] then bytesFrom [0x30, 0x48, 0x60, 0x6C] 0
  else if regaddr = 0xe08 then bytesFrom [0x02] 1
  else if regaddr = 0x86c then
    if bitmask = 0xffffff00 then bytesFrom [0x04, 0x0B, 0x16] 1
    else if bitmask = 0x000000ff then bytesFrom [0x16] 0
    else []
  else if regaddr ∈ [0xe10, 0x83c] then bytesFrom [0x80, 0x81, 0x82, 0x83] 0
  else if regaddr ∈ [0xe14, 0x848] then bytesFrom [0x84, 0x85, 0x86, 0x87] 0
  else if regaddr ∈ [0xe18, 0x84c] then bytesFrom [0x88, 0x89, 0x8A, 0x8B] 0
  else if regaddr ∈ [0xe1c, 0x868] then bytesFrom [0x8C, 0x8D, 0x8E, 0x8F] 0
  else if regaddr = 0x838 then bytesFrom [0x02, 0x04, 0x0B] 1
  else if regaddr ∈ [0xC20, 0xE20, 0x1820, 0x1a20] then bytesFrom [0x02, 0x04, 0x0B, 0x16] 0
  else if regaddr ∈ [0xC24, 0xE24, 0x1824, 0x1a24] then bytesFrom [0x0C, 0x12, 0x18, 0x24] 0
  else if regaddr ∈ [0xC28, 0xE28, 0x1828, 0x1a28] then bytesFrom [0x30, 0x48, 0x60, 0x6C] 0
  else if regaddr ∈ [0xC2C, 0xE2C, 0x182C, 0x1a2C] then bytesFrom [0x80, 0x81, 0x82, 0x83] 0
  else if regaddr ∈ [0xC30, 0xE30, 0x1830, 0x1a30] then bytesFrom [0x84, 0x85, 0x86, 0x87] 0
  else if regaddr ∈ [0xC34, 0xE34, 0x1834, 0x1a34] then bytesFrom [0x88, 0x89, 0x8A, 0x8B] 0
  else if regaddr ∈ [0xC38, 0xE38, 0x1838, 0x1a38] then bytesFrom [0x8C, 0x8D, 0x8E, 0x8F] 0
  else if regaddr ∈ [0xC3C, 0xE3C, 0x183C, 0x1a3C] then bytesFrom [0xA0, 0xA1, 0xA2, 0xA3] 0
  else if regaddr ∈ [0xC40, 0xE40, 0x1840, 0x1a40] then bytesFrom [0xA4, 0xA5, 0xA6, 0xA7] 0
  else if regaddr ∈ [0xC44, 0xE44, 0x1844, 0x1a44] then bytesFrom [0xA8, 0xA9, 0xAA, 0xAB] 0
  else if regaddr ∈ [0xC48, 0xE48, 0x1848, 0x1a48] then bytesFrom [0xAC, 0xAD, 0xAE, 0xAF] 0
  else if regaddr ∈ [0xC4C, 0xE4C, 0x184C, 0x1a4C] then bytesFrom [0xB0, 0xB1, 0xB2, 0xB3] 0
  else if regaddr ∈ [0xCD8, 0xED8, 0x18D8, 0x1aD8] then bytesFrom [0x90, 0x91, 0x92, 0x93] 0
  else if regaddr ∈ [0xCDC, 0xEDC, 0x18DC, 0x1aDC] then bytesFrom [0x94, 0x95, 0x96, 0x97] 0
  else if regaddr ∈ [0xCE0, 0xEE0, 0x18E0, 0x1aE0] then bytesFrom [0xB4, 0xB5, 0xB6, 0xB7] 0
  else if regaddr ∈ [0xCE4, 0xEE4, 0x18E4, 0x1aE4] then bytesFrom [0xB8, 0xB9, 0xBA, 0xBB] 0
  else if regaddr ∈ [0xCE8, 0xEE8, 0x18E8, 0x1aE8] then bytesFrom [0xBC, 0xBD] 0 ++ [none, none]
  else []

/-! ## The table -/

/-- Why a line is not stored, or an entry not read. -/
inductive Fault where
  | outside
  | uninitialised
deriving DecidableEq

/-- `TX_PWR_BY_RATE_NUM_SECTION`. -/
def numSection : ℕ := 12

/-- `TX_PWR_BY_RATE_NUM_RATE`. -/
def numRate : ℕ := 84

/-- The entries; `TX_PWR_BY_RATE_NUM_BAND` is 2 and `TX_PWR_BY_RATE_NUM_RF` is 4. -/
def tableSize : ℕ := 2 * 4 * 4 * numSection

/-- Where `[band][rfpath][txnum][rateIdx]` is. -/
def place (band rfpath txnum rateIdx : ℕ) : ℕ :=
  ((band * 4 + rfpath) * 4 + txnum) * numSection + rateIdx

/-- What has been written, the last first. -/
abbrev Table : Type := List (ℕ × Int8)

/-- What an entry holds. -/
def Table.held (t : Table) (a : ℕ) : Int8 :=
  match t.find? (·.1 == a) with
  | some w => w.2
  | none => 0

/-- The loop of `_rtl8821au_store_tx_power_by_rate` (lines 5908–5915). -/
def storeRates (l : Line) : ℕ → List (Option (UInt8 × ℕ)) → Table → Except Fault Table
  | _, [], t => .ok t
  | _, none :: _, _ => .error .uninitialised
  | txnum, some (rate, i) :: rates, t =>
    let rateIdx := getRateIndex rate
    let txnum := if rateIdx = getRateIndex 0xAA ∨ rateIdx = getRateIndex 0xAB then rf2Tx else txnum
    let a := place l.band l.rfpath txnum rateIdx
    if a < tableSize then storeRates l txnum rates ((a, digits l.data i) :: t)
    else .error .outside

/-- `_rtl8821au_store_tx_power_by_rate` (lines 5879–5916). -/
def store (l : Line) (t : Table) : Except Fault Table :=
  if l.band ≠ 0 ∧ l.band ≠ 1 then .ok t
  else if 3 < l.rfpath then .ok t
  else if 3 < l.txnum then .ok t
  else storeRates l l.txnum (ratesOf l.regaddr l.bitmask) t

def load (lines : List Line) : Except Fault Table := lines.foldlM (fun t l => store l t) []

/-- `_rtl8821au_phy_get_txpower_by_rate`. -/
def getTxpowerByRate (t : Table) (band rfpath txnum : ℕ) (rate : UInt8) : Except Fault Int8 :=
  let rateIndex := getRateIndex rate
  if band ≠ 0 ∧ band ≠ 1 then .ok 0
  else if 3 < rfpath then .ok 0
  else if rfMaxTxNum ≤ txnum then .ok 0
  else if numRate ≤ rateIndex then .ok 0
  else if place band rfpath txnum rateIndex < tableSize then
    .ok (t.held (place band rfpath txnum rateIndex))
  else .error .outside

/-! ## What it should do -/

/-- What a line has for a rate of a band, a path and the number of streams of the rate. -/
def Line.value (l : Line) (band rfpath : ℕ) (rate : UInt8) : Option Int8 :=
  let txnum := if rate = 0xAA ∨ rate = 0xAB then rf2Tx else l.txnum
  if l.band = band ∧ l.rfpath = rfpath ∧ l.txnum < rfMaxTxNum ∧ txnum = getCurrentTxNum rate then
    (ratesOf l.regaddr l.bitmask).findSome? fun e => e.bind fun x =>
      if x.1 = rate then some (digits l.data x.2) else none
  else none

/-- That of the last line that has one. -/
def loaded (lines : List Line) (band rfpath : ℕ) (rate : UInt8) : Int8 :=
  (lines.reverse.findSome? fun l => l.value band rfpath rate).getD 0

/-- Every line is stored inside the table, with values, and every rate is read back. -/
def LoadsRight (lines : List Line) : Prop :=
  ∃ t, load lines = .ok t ∧ ∀ band < 2, ∀ rfpath < 4, ∀ rate ∈ mgnRates,
    getTxpowerByRate t band rfpath (getCurrentTxNum rate) rate = .ok (loaded lines band rfpath rate)

/-! ## Loading -/

/-- What a line writes, in its order. -/
def writesOf (l : Line) : ℕ → List (Option (UInt8 × ℕ)) → List (ℕ × Int8)
  | _, [] => []
  | txnum, none :: rates => writesOf l txnum rates
  | txnum, some (rate, i) :: rates =>
    let rateIdx := getRateIndex rate
    let txnum := if rateIdx = getRateIndex 0xAA ∨ rateIdx = getRateIndex 0xAB then rf2Tx else txnum
    (place l.band l.rfpath txnum rateIdx, digits l.data i) :: writesOf l txnum rates

/-- A line that is stored at all. -/
def Line.Stored (l : Line) : Prop := l.band < 2 ∧ l.rfpath < 4 ∧ l.txnum < 4

instance (l : Line) : Decidable l.Stored := inferInstanceAs (Decidable (_ ∧ _ ∧ _))

def Line.writes (l : Line) : List (ℕ × Int8) :=
  if l.Stored then writesOf l l.txnum (ratesOf l.regaddr l.bitmask) else []

/-- All of its rates are set, and their entries in the table. -/
def Line.Inside (l : Line) : Prop :=
  l.Stored → (∀ e ∈ ratesOf l.regaddr l.bitmask, e.isSome) ∧ ∀ w ∈ l.writes, w.1 < tableSize

section loading

variable {l : Line} {t t' : Table}

theorem storeRates_ok_iff (txnum : ℕ) (rates : List (Option (UInt8 × ℕ))) :
    storeRates l txnum rates t = .ok t' ↔
      (∀ e ∈ rates, e.isSome) ∧ (∀ w ∈ writesOf l txnum rates, w.1 < tableSize) ∧
        t' = (writesOf l txnum rates).reverse ++ t := by
  induction rates generalizing txnum t with
  | nil =>
    rw [storeRates, writesOf, Except.ok.injEq]
    constructor
    · rintro rfl
      exact ⟨fun e he => absurd he List.not_mem_nil, fun w hw => absurd hw List.not_mem_nil, rfl⟩
    · rintro ⟨-, -, rfl⟩
      rfl
  | cons e rates ih =>
    cases e with
    | none =>
      refine iff_of_false (fun h => by cases h) fun h => ?_
      exact absurd (h.1 none List.mem_cons_self) Bool.false_ne_true
    | some x =>
      rw [storeRates, writesOf, List.forall_mem_cons, List.forall_mem_cons,
        and_iff_right Option.isSome_some, List.reverse_cons, List.append_assoc]
      by_cases hinside : place l.band l.rfpath (if getRateIndex x.1 = getRateIndex 0xAA ∨
          getRateIndex x.1 = getRateIndex 0xAB then rf2Tx else txnum) (getRateIndex x.1) < tableSize
      · simp only [if_pos hinside, and_iff_right hinside]
        exact ih _
      · simp only [if_neg hinside]
        exact iff_of_false (fun h => by cases h) fun h => hinside h.2.1.1

theorem store_ok_iff : store l t = .ok t' ↔ l.Inside ∧ t' = l.writes.reverse ++ t := by
  by_cases hstored : l.Stored
  · have ⟨hband, hpath, htx⟩ := hstored
    rw [Line.Inside, Line.writes, if_pos hstored, forall_prop_of_true hstored, store,
      if_neg (by omega), if_neg (by omega), if_neg (by omega), storeRates_ok_iff, and_assoc]
  · have hkept : store l t = .ok t := by
      rw [store]
      split_ifs with hband hpath htx
      · rfl
      · rfl
      · rfl
      · exact absurd ⟨by omega, by omega, by omega⟩ hstored
    rw [hkept, Line.writes, if_neg hstored, Except.ok.injEq, eq_comm]
    exact (and_iff_right fun h => absurd h hstored).symm

end loading

/-- Which lines can be loaded, and what is written then. -/
theorem load_ok_iff (lines : List Line) (t : Table) :
    load lines = .ok t ↔ (∀ l ∈ lines, l.Inside) ∧ t = (lines.flatMap Line.writes).reverse := by
  have hfrom : ∀ start, lines.foldlM (fun t l => store l t) start = .ok t ↔
      (∀ l ∈ lines, l.Inside) ∧ t = (lines.flatMap Line.writes).reverse ++ start := by
    induction lines with
    | nil =>
      intro start
      rw [List.foldlM_nil]
      change Except.ok start = Except.ok t ↔ _
      rw [Except.ok.injEq, eq_comm]
      exact (and_iff_right fun l hl => absurd hl List.not_mem_nil).symm
    | cons l lines ih =>
      intro start
      rw [List.foldlM_cons, List.forall_mem_cons, List.flatMap_cons, List.reverse_append,
        List.append_assoc]
      by_cases hl : l.Inside
      · have hstore := store_ok_iff.mpr ⟨hl, Eq.refl (l.writes.reverse ++ start)⟩
        rw [hstore, and_iff_right hl]
        exact ih _
      · cases hstore : store l start with
        | ok t' => exact absurd (store_ok_iff.mp hstore).1 hl
        | error e => exact iff_of_false (fun h => by cases h) fun h => hl h.1.1
  rw [load, hfrom, List.append_nil]

/-- Two streams of `MGN_VHT2SS_MCS9` on the last path of the 5 GHz band are behind the table. -/
theorem last_outside (t : Table) : getTxpowerByRate t 1 3 (getCurrentTxNum 0xB3) 0xB3 =
    .error .outside := rfl

theorem load_never_right (lines : List Line) : ¬ LoadsRight lines := by
  rintro ⟨t, -, hreads⟩
  have hlast := hreads 1 (by decide) 3 (by decide) 0xB3 (by decide)
  rw [last_outside] at hlast
  cases hlast

/-- Rates of CCK on path B, then rates of VHT on path A. -/
def overwriting : List Line :=
  [⟨0, 1, rf1Tx, 0xE20, 0xffffffff, 0x32323232⟩, ⟨0, 0, rf1Tx, 0xC40, 0xffffffff, 0x10101010⟩]

/-- The rates of VHT have taken the place of those of CCK. -/
theorem overwriting_wrong : ¬ LoadsRight overwriting := by
  rintro ⟨t, hload, hreads⟩
  have hfirst := hreads 0 (by decide) 1 (by decide) 0x02 (by decide)
  obtain rfl := Except.ok.inj hload
  exact absurd hfirst (by decide)

end Rtl8821au.Phy.ByRate
