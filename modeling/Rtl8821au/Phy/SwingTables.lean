import Rtl8821au.Phy.TxPower

/-!
# The tables of the thermal tracking

The tables of `dm.c` that say how much the swing of the baseband has to change with the temperature
(lines 626–788 and 998–1076), `rtl8812au_get_delta_swing_table` (lines 792–865) and
`rtl8821au_get_delta_swing_table` (lines 1080–1126), which choose among them by the channel and the
rate, and `txscalling_tbl` (lines 16–54), the scale for each index of the swing.

* `rtl8812auGetDeltaSwingTable_sized`, `rtl8821auGetDeltaSwingTable_sized`: every choice has the
  size of the tables, starts with 0 where it is cooler, and changes by 18 at most.
-/

namespace Rtl8821au.Phy.SwingTables

open TxPower (isCckRate RfPath)

/-- `DELTA_SWINGIDX_SIZE` (`odm.h`, line 72). -/
def deltaSwingidxSize : ℕ := 30

/-- The tables that a callback uses: for temperatures above and below the base, for either path. -/
structure Swing where
  upA : List ℕ
  downA : List ℕ
  upB : List ℕ
  downB : List ℕ

/-- `up_a` or `up_b`. -/
def Swing.up (t : Swing) (p : RfPath) : List ℕ := if p = .a then t.upA else t.upB

def Swing.down (t : Swing) (p : RfPath) : List ℕ := if p = .a then t.downA else t.downB

/-- The tables of a device, under the names that the source has for them. -/
structure DeltaSwingTable where
  idx24gCckaP : List ℕ
  idx24gCckaN : List ℕ
  idx24gCckbP : List ℕ
  idx24gCckbN : List ℕ
  idx24gaP : List ℕ
  idx24gaN : List ℕ
  idx24gbP : List ℕ
  idx24gbN : List ℕ
  idx5gaP : List (List ℕ)
  idx5gaN : List (List ℕ)
  idx5gbP : List (List ℕ)
  idx5gbN : List (List ℕ)

/-! ## Data -/

/-- `rtl8812au_delta_swing_table_idx_*`, and those of `rtl8812ae` for 5 GHz (lines 634–707). -/
def rtl8812au : DeltaSwingTable where
  idx24gCckaP :=
    [0, 1, 1, 2, 2, 2, 3, 3, 3, 4, 4, 4, 5, 5, 5, 6,
     6, 6, 7, 7, 7, 7, 7, 7, 7, 7, 7, 7, 7, 7]
  idx24gCckaN :=
    [0, 1, 1, 2, 2, 2, 3, 3, 3, 4, 4, 4, 5, 5, 5, 6,
     6, 6, 7, 7, 7, 8, 8, 9, 10, 10, 10, 10, 10, 10]
  idx24gCckbP :=
    [0, 1, 1, 2, 2, 2, 3, 3, 3, 4, 4, 4, 5, 5, 5, 6,
     6, 7, 7, 7, 7, 7, 7, 7, 7, 7, 7, 7, 7, 7]
  idx24gCckbN :=
    [0, 1, 1, 2, 2, 2, 3, 3, 3, 4, 4, 5, 5, 5, 6, 6,
     7, 7, 8, 8, 9, 9, 10, 10, 11, 11, 11, 11, 11, 11]
  idx24gaP :=
    [0, 1, 1, 2, 2, 2, 3, 3, 3, 4, 4, 4, 5, 5, 5, 6,
     6, 6, 7, 7, 7, 7, 7, 7, 7, 7, 7, 7, 7, 7]
  idx24gaN :=
    [0, 1, 1, 2, 2, 2, 3, 3, 3, 4, 4, 4, 5, 5, 5, 6,
     6, 6, 7, 7, 7, 8, 8, 9, 10, 10, 10, 10, 10, 10]
  idx24gbP :=
    [0, 1, 1, 2, 2, 2, 3, 3, 3, 4, 4, 4, 5, 5, 5, 6,
     6, 7, 7, 7, 7, 7, 7, 7, 7, 7, 7, 7, 7, 7]
  idx24gbN :=
    [0, 1, 1, 2, 2, 2, 3, 3, 3, 4, 4, 5, 5, 5, 6, 6,
     7, 7, 8, 8, 9, 9, 10, 10, 11, 11, 11, 11, 11, 11]
  idx5gaP :=
    [[0, 1, 1, 2, 2, 3, 4, 5, 6, 7, 7, 8, 8, 9, 10, 11,
      11, 11, 11, 11, 11, 11, 11, 11, 11, 11, 11, 11, 11, 11],
     [0, 1, 1, 2, 3, 3, 4, 5, 6, 7, 7, 8, 8, 9, 10, 11,
      11, 11, 11, 11, 11, 11, 11, 11, 11, 11, 11, 11, 11, 11],
     [0, 1, 1, 2, 3, 3, 4, 5, 6, 7, 7, 8, 8, 9, 10, 11,
      11, 12, 12, 11, 11, 11, 11, 11, 11, 11, 11, 11, 11, 11]]
  idx5gaN :=
    [[0, 1, 1, 2, 2, 3, 4, 5, 6, 6, 7, 7, 8, 8, 9, 9,
      10, 10, 11, 11, 12, 12, 13, 13, 14, 15, 15, 15, 15, 15],
     [0, 1, 1, 2, 2, 3, 4, 5, 6, 6, 7, 7, 8, 8, 9, 9,
      10, 10, 11, 11, 12, 12, 13, 13, 14, 15, 15, 15, 15, 15],
     [0, 1, 1, 2, 2, 3, 4, 5, 6, 6, 7, 7, 8, 8, 9, 9,
      10, 10, 11, 11, 12, 12, 13, 13, 14, 15, 15, 15, 15, 15]]
  idx5gbP :=
    [[0, 1, 1, 2, 2, 3, 3, 4, 5, 6, 7, 7, 8, 8, 9, 9,
      10, 10, 11, 11, 11, 11, 11, 11, 11, 11, 11, 11, 11, 11],
     [0, 1, 1, 2, 3, 3, 4, 5, 5, 6, 7, 7, 8, 8, 9, 9,
      10, 10, 11, 11, 11, 11, 11, 11, 11, 11, 11, 11, 11, 11],
     [0, 1, 1, 2, 3, 3, 4, 5, 6, 7, 7, 8, 8, 9, 9, 10,
      11, 11, 11, 11, 11, 11, 11, 11, 11, 11, 11, 11, 11, 11]]
  idx5gbN :=
    [[0, 1, 1, 2, 2, 3, 4, 5, 6, 6, 7, 7, 8, 8, 9, 9,
      10, 10, 11, 11, 12, 12, 13, 13, 14, 14, 14, 14, 14, 14],
     [0, 1, 1, 2, 3, 3, 4, 5, 5, 6, 7, 7, 8, 8, 9, 9,
      10, 10, 11, 11, 11, 11, 11, 11, 11, 11, 11, 11, 11, 11],
     [0, 1, 1, 2, 3, 3, 4, 5, 6, 7, 7, 8, 8, 9, 9, 10,
      11, 11, 11, 11, 11, 11, 11, 11, 11, 11, 11, 11, 11, 11]]

/-- The same for a front end of type 3 (lines 714–790). -/
def rtl8812auRfe3 : DeltaSwingTable where
  idx24gCckaP :=
    [0, 0, 1, 1, 1, 2, 2, 3, 3, 4, 4, 4, 5, 5, 5, 6,
     6, 7, 7, 8, 8, 9, 9, 10, 10, 11, 11, 11, 11, 11]
  idx24gCckaN :=
    [0, 1, 1, 2, 2, 3, 4, 5, 6, 6, 6, 7, 7, 8, 8, 9,
     10, 10, 11, 11, 12, 12, 13, 13, 13, 13, 14, 14, 15, 15]
  idx24gCckbP :=
    [0, 1, 1, 2, 2, 2, 2, 3, 3, 3, 4, 4, 5, 5, 5, 6,
     6, 7, 7, 8, 9, 10, 10, 10, 10, 11, 11, 11, 11, 11]
  idx24gCckbN :=
    [0, 1, 1, 2, 2, 3, 3, 4, 4, 4, 5, 5, 6, 6, 6, 7,
     7, 7, 8, 8, 9, 9, 10, 11, 12, 12, 13, 14, 15, 15]
  idx24gaP :=
    [0, 0, 1, 1, 1, 2, 2, 3, 3, 4, 4, 4, 5, 5, 5, 6,
     6, 7, 7, 8, 8, 9, 9, 10, 10, 11, 11, 11, 11, 11]
  idx24gaN :=
    [0, 1, 1, 2, 2, 3, 4, 5, 6, 6, 6, 7, 7, 8, 8, 9,
     10, 10, 11, 11, 12, 12, 13, 13, 13, 13, 14, 14, 15, 15]
  idx24gbP :=
    [0, 1, 1, 2, 2, 2, 2, 3, 3, 3, 4, 4, 5, 5, 5, 6,
     6, 7, 7, 8, 9, 10, 10, 10, 10, 11, 11, 11, 11, 11]
  idx24gbN :=
    [0, 1, 1, 2, 2, 3, 3, 4, 4, 4, 5, 5, 6, 6, 6, 7,
     7, 7, 8, 8, 9, 9, 10, 11, 12, 12, 13, 14, 15, 15]
  idx5gaP :=
    [[0, 1, 1, 2, 2, 3, 4, 5, 6, 7, 7, 8, 9, 9, 10, 10,
      11, 11, 11, 11, 11, 11, 11, 11, 11, 11, 11, 11, 11, 11],
     [0, 1, 2, 3, 4, 4, 5, 5, 6, 7, 7, 8, 9, 9, 10, 11,
      11, 11, 11, 11, 11, 11, 11, 11, 11, 11, 11, 11, 11, 11],
     [0, 1, 2, 3, 4, 4, 5, 5, 6, 7, 7, 8, 9, 9, 10, 11,
      11, 11, 11, 11, 11, 11, 11, 11, 11, 11, 11, 11, 11, 11]]
  idx5gaN :=
    [[0, 1, 1, 2, 3, 3, 4, 5, 5, 6, 7, 7, 8, 8, 9, 9,
      10, 10, 11, 11, 12, 13, 14, 15, 16, 16, 17, 17, 18, 18],
     [0, 1, 1, 2, 3, 3, 4, 4, 5, 6, 6, 7, 7, 8, 9, 9,
      10, 10, 11, 11, 12, 12, 13, 13, 14, 15, 16, 16, 17, 17],
     [0, 1, 1, 2, 3, 3, 4, 4, 5, 6, 7, 7, 8, 8, 9, 9,
      10, 10, 11, 12, 13, 13, 14, 14, 15, 15, 16, 17, 18, 18]]
  idx5gbP :=
    [[0, 1, 1, 2, 3, 3, 4, 5, 6, 7, 7, 8, 9, 9, 10, 10,
      11, 11, 11, 11, 11, 11, 11, 11, 11, 11, 11, 11, 11, 11],
     [0, 1, 1, 2, 2, 3, 3, 4, 4, 5, 6, 7, 8, 8, 9, 9,
      10, 10, 11, 11, 11, 11, 11, 11, 11, 11, 11, 11, 11, 11],
     [0, 1, 1, 2, 2, 3, 3, 4, 4, 5, 6, 6, 7, 7, 8, 9,
      10, 10, 11, 11, 11, 11, 11, 11, 11, 11, 11, 11, 11, 11]]
  idx5gbN :=
    [[0, 1, 1, 2, 3, 3, 4, 5, 5, 6, 7, 7, 8, 8, 9, 9,
      10, 10, 11, 12, 13, 13, 14, 15, 16, 16, 17, 17, 18, 18],
     [0, 1, 1, 2, 2, 3, 3, 4, 4, 5, 6, 7, 8, 8, 9, 9,
      10, 10, 11, 11, 11, 11, 11, 11, 11, 11, 11, 11, 11, 11],
     [0, 1, 1, 2, 2, 3, 3, 4, 4, 5, 6, 6, 7, 7, 8, 9,
      10, 10, 11, 11, 11, 11, 11, 11, 11, 11, 11, 11, 11, 11]]

/-- `rtl8821au_delta_swing_table_idx_*` (lines 1001–1076). -/
def rtl8821au : DeltaSwingTable where
  idx24gCckaP :=
    [0, 1, 1, 2, 2, 2, 3, 3, 3, 4, 4, 4, 5, 5, 5, 6,
     6, 6, 7, 7, 7, 7, 7, 7, 7, 7, 7, 7, 7, 7]
  idx24gCckaN :=
    [0, 1, 1, 2, 2, 2, 3, 3, 3, 4, 4, 4, 5, 5, 5, 6,
     6, 6, 7, 7, 7, 8, 8, 9, 10, 10, 10, 10, 10, 10]
  idx24gCckbP :=
    [0, 1, 1, 2, 2, 2, 3, 3, 3, 4, 4, 4, 5, 5, 5, 6,
     6, 7, 7, 7, 7, 7, 7, 7, 7, 7, 7, 7, 7, 7]
  idx24gCckbN :=
    [0, 1, 1, 2, 2, 2, 3, 3, 3, 4, 4, 5, 5, 5, 6, 6,
     7, 7, 8, 8, 9, 9, 10, 10, 11, 11, 11, 11, 11, 11]
  idx24gaP :=
    [0, 1, 1, 2, 2, 2, 3, 3, 3, 4, 4, 4, 5, 5, 5, 6,
     6, 6, 7, 7, 7, 7, 7, 7, 7, 7, 7, 7, 7, 7]
  idx24gaN :=
    [0, 1, 1, 2, 2, 2, 3, 3, 3, 4, 4, 4, 5, 5, 5, 6,
     6, 6, 7, 7, 7, 8, 8, 9, 10, 10, 10, 10, 10, 10]
  idx24gbP :=
    [0, 1, 1, 2, 2, 2, 3, 3, 3, 4, 4, 4, 5, 5, 5, 6,
     6, 7, 7, 7, 7, 7, 7, 7, 7, 7, 7, 7, 7, 7]
  idx24gbN :=
    [0, 1, 1, 2, 2, 2, 3, 3, 3, 4, 4, 5, 5, 5, 6, 6,
     7, 7, 8, 8, 9, 9, 10, 10, 11, 11, 11, 11, 11, 11]
  idx5gaP :=
    [[1, 2, 3, 4, 5, 6, 7, 8, 9, 10, 11, 12, 13, 14, 15, 16,
      16, 16, 16, 16, 16, 16, 16, 16, 16, 16, 16, 16, 16, 16],
     [1, 2, 3, 4, 5, 6, 7, 8, 9, 10, 11, 12, 13, 14, 15, 16,
      16, 16, 16, 16, 16, 16, 16, 16, 16, 16, 16, 16, 16, 16],
     [1, 2, 3, 4, 5, 6, 7, 8, 9, 10, 11, 12, 13, 14, 15, 16,
      16, 16, 16, 16, 16, 16, 16, 16, 16, 16, 16, 16, 16, 16]]
  idx5gaN :=
    [[0, 0, 0, 1, 2, 2, 3, 4, 5, 6, 6, 7, 7, 8, 8, 9,
      9, 10, 10, 11, 11, 12, 12, 13, 13, 14, 15, 15, 15, 15],
     [0, 0, 0, 1, 2, 2, 3, 4, 5, 6, 6, 7, 7, 8, 8, 9,
      9, 10, 10, 11, 11, 12, 12, 13, 13, 14, 15, 15, 15, 15],
     [0, 0, 0, 1, 2, 2, 3, 4, 5, 6, 6, 7, 7, 8, 8, 9,
      9, 10, 10, 11, 11, 12, 12, 13, 13, 14, 15, 15, 15, 15]]
  idx5gbP :=
    [[0, 1, 1, 2, 2, 3, 3, 4, 5, 6, 7, 7, 8, 8, 9, 9,
      10, 10, 11, 11, 11, 11, 11, 11, 11, 11, 11, 11, 11, 11],
     [0, 1, 1, 2, 3, 3, 4, 5, 5, 6, 7, 7, 8, 8, 9, 9,
      10, 10, 11, 11, 11, 11, 11, 11, 11, 11, 11, 11, 11, 11],
     [0, 1, 1, 2, 3, 3, 4, 5, 6, 7, 7, 8, 8, 9, 9, 10,
      11, 11, 11, 11, 11, 11, 11, 11, 11, 11, 11, 11, 11, 11]]
  idx5gbN :=
    [[0, 1, 1, 2, 2, 3, 4, 5, 6, 6, 7, 7, 8, 8, 9, 9,
      10, 10, 11, 11, 12, 12, 13, 13, 14, 14, 14, 14, 14, 14],
     [0, 1, 1, 2, 3, 3, 4, 5, 5, 6, 7, 7, 8, 8, 9, 9,
      10, 10, 11, 11, 11, 11, 11, 11, 11, 11, 11, 11, 11, 11],
     [0, 1, 1, 2, 3, 3, 4, 5, 6, 7, 7, 8, 8, 9, 9, 10,
      11, 11, 11, 11, 11, 11, 11, 11, 11, 11, 11, 11, 11, 11]]

/-- `rtl8818e_delta_swing_table_idx_24gb_*` (lines 627–632), for all other channels. -/
def rtl8818eIdx24gbP : List ℕ :=
  [0, 0, 0, 0, 1, 1, 2, 2, 3, 3, 4, 4, 4, 4, 4, 4,
   4, 4, 5, 5, 7, 7, 8, 8, 8, 9, 9, 9, 9, 9]

def rtl8818eIdx24gbN : List ℕ :=
  [0, 0, 0, 2, 2, 3, 3, 4, 4, 4, 4, 5, 5, 6, 6, 7,
   7, 7, 7, 8, 8, 9, 9, 10, 10, 10, 11, 11, 11, 11]

/-- `txscalling_tbl`; `TXSCALE_TABLE_SIZE` is 37. -/
def txscallingTbl : List ℕ :=
  [0x081, 0x088, 0x090, 0x099, 0x0A2, 0x0AC, 0x0B6, 0x0C0, 0x0CC, 0x0D8, 0x0E5, 0x0F2, 0x101,
   0x110, 0x120, 0x131, 0x143, 0x156, 0x16A, 0x180, 0x197, 0x1AF, 0x1C8, 0x1E3, 0x200, 0x21E,
   0x23E, 0x261, 0x285, 0x2AB, 0x2D3, 0x2FE, 0x32B, 0x35C, 0x38E, 0x3C4, 0x3FE]

def txscaleTableSize : ℕ := 37

/-! ## Choice -/

/-- The row for one range of channels in the 5 GHz band. -/
def DeltaSwingTable.row (d : DeltaSwingTable) (i : ℕ) : Swing where
  upA := d.idx5gaP.getD i []
  downA := d.idx5gaN.getD i []
  upB := d.idx5gbP.getD i []
  downB := d.idx5gbN.getD i []

/-- What the two functions have in common. -/
def getDeltaSwingTable (d : DeltaSwingTable) (rate channel : ℕ) : Swing :=
  if 1 ≤ channel ∧ channel ≤ 14 then
    if isCckRate rate then ⟨d.idx24gCckaP, d.idx24gCckaN, d.idx24gCckbP, d.idx24gCckbN⟩
    else ⟨d.idx24gaP, d.idx24gaN, d.idx24gbP, d.idx24gbN⟩
  else if 36 ≤ channel ∧ channel ≤ 64 then d.row 0
  else if 100 ≤ channel ∧ channel ≤ 140 then d.row 1
  else if 149 ≤ channel ∧ channel ≤ 173 then d.row 2
  else ⟨rtl8818eIdx24gbP, rtl8818eIdx24gbN, rtl8818eIdx24gbP, rtl8818eIdx24gbN⟩

def rtl8812auGetDeltaSwingTable (rfeType : ℕ) (normalChip : Bool) (txRate channel : ℕ) : Swing :=
  getDeltaSwingTable (if rfeType = 3 ∧ normalChip then rtl8812auRfe3 else rtl8812au) txRate channel

/-- The rate is always 0. -/
def rtl8821auGetDeltaSwingTable (channel : ℕ) : Swing := getDeltaSwingTable rtl8821au 0 channel

/-! ## What every choice has -/

/-- A table for temperatures above the base. -/
def UpSized (l : List ℕ) : Prop := l.length = deltaSwingidxSize ∧ ∀ v ∈ l, v ≤ 16

/-- A table for temperatures below it, and for the base itself. -/
def DownSized (l : List ℕ) : Prop :=
  l.length = deltaSwingidxSize ∧ (∀ v ∈ l, v ≤ 18) ∧ l[0]? = some 0

instance (l : List ℕ) : Decidable (UpSized l) := inferInstanceAs (Decidable (_ ∧ _))

instance (l : List ℕ) : Decidable (DownSized l) := inferInstanceAs (Decidable (_ ∧ _))

structure Sized (t : Swing) : Prop where
  upA : UpSized t.upA
  downA : DownSized t.downA
  upB : UpSized t.upB
  downB : DownSized t.downB

instance (t : Swing) : Decidable (Sized t) :=
  decidable_of_iff (UpSized t.upA ∧ DownSized t.downA ∧ UpSized t.upB ∧ DownSized t.downB)
    ⟨fun h => ⟨h.1, h.2.1, h.2.2.1, h.2.2.2⟩, fun h => ⟨h.upA, h.downA, h.upB, h.downB⟩⟩

theorem Sized.up {t : Swing} (h : Sized t) (p : RfPath) : UpSized (t.up p) := by
  rw [Swing.up]
  split_ifs
  · exact h.upA
  · exact h.upB

theorem Sized.down {t : Swing} (h : Sized t) (p : RfPath) : DownSized (t.down p) := by
  rw [Swing.down]
  split_ifs
  · exact h.downA
  · exact h.downB

/-- All the choices there are for a device. -/
def DeltaSwingTable.choices (d : DeltaSwingTable) : List Swing :=
  [⟨d.idx24gCckaP, d.idx24gCckaN, d.idx24gCckbP, d.idx24gCckbN⟩,
   ⟨d.idx24gaP, d.idx24gaN, d.idx24gbP, d.idx24gbN⟩, d.row 0, d.row 1, d.row 2,
   ⟨rtl8818eIdx24gbP, rtl8818eIdx24gbN, rtl8818eIdx24gbP, rtl8818eIdx24gbN⟩]

theorem getDeltaSwingTable_mem (d : DeltaSwingTable) (rate channel : ℕ) :
    getDeltaSwingTable d rate channel ∈ d.choices := by
  rw [getDeltaSwingTable, DeltaSwingTable.choices]
  split_ifs <;> simp only [List.mem_cons, true_or, or_true]

theorem rtl8812auGetDeltaSwingTable_sized (rfeType : ℕ) (normalChip : Bool) (rate channel : ℕ) :
    Sized (rtl8812auGetDeltaSwingTable rfeType normalChip rate channel) := by
  have hplain : ∀ t ∈ rtl8812au.choices, Sized t := by decide
  have hrfe3 : ∀ t ∈ rtl8812auRfe3.choices, Sized t := by decide
  rw [rtl8812auGetDeltaSwingTable]
  split_ifs
  · exact hrfe3 _ (getDeltaSwingTable_mem _ _ _)
  · exact hplain _ (getDeltaSwingTable_mem _ _ _)

theorem rtl8821auGetDeltaSwingTable_sized (channel : ℕ) :
    Sized (rtl8821auGetDeltaSwingTable channel) := by
  have hall : ∀ t ∈ rtl8821au.choices, Sized t := by decide
  exact hall _ (getDeltaSwingTable_mem _ _ _)

end Rtl8821au.Phy.SwingTables
