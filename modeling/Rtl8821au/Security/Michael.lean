import Rtl8821au.Recv.Frame

/-!
# The Michael MIC

`rtw_secmicsetkey` … `rtw_seccalctkipmic` (`rtw_security.c`, lines 290–431). The
state holds the bytes of an incomplete word in `M`; `nBytesInM` is below 4 at
every entry, which `MicData` carries in its type.

* `rtwSecmicappend_append`: a message may be appended in pieces.
* `secmicpad_nBytesInM`: the padding loop of `rtw_secgetmic` ends on a word
  boundary.
-/

namespace Rtl8821au.Security

open Recv (Bytes)

/-- `struct mic_data` (`rtw_security.h`, lines 242–248). -/
structure MicData where
  K0 : BitVec 32
  K1 : BitVec 32
  L : BitVec 32
  R : BitVec 32
  M : BitVec 32
  nBytesInM : Fin 4
  deriving DecidableEq, Repr

/-- `ROL32` (`rtw_security.h`, line 239). -/
def rol32 (a : BitVec 32) (n : ℕ) : BitVec 32 :=
  (a <<< n) ||| ((a >>> (32 - n)) &&& ((1#32 <<< n) - 1#32))

/-- `ROR32` (line 240). -/
def ror32 (a : BitVec 32) (n : ℕ) : BitVec 32 := rol32 a (32 - n)

/-- `secmicgetuint32` (lines 292–304). -/
def secmicgetuint32 (p : Bytes) : BitVec 32 :=
  (List.range 4).foldl (fun res i => res ||| (BitVec.ofNat 32 (p.getD i 0).toNat <<< (8 * i))) 0#32

/-- `secmicputuint32` (lines 306–317). -/
def secmicputuint32 (val : BitVec 32) : Bytes :=
  (List.range 4).map fun i => UInt8.ofNat (val >>> (8 * i)).toNat

theorem wordStart_lt : 0 < 4 := by decide

/-- The first byte of a word. -/
abbrev wordStart : Fin 4 := ⟨0, wordStart_lt⟩

/-- `secmicclear` (lines 319–328). -/
def secmicclear (d : MicData) : MicData :=
  { d with L := d.K0, R := d.K1, nBytesInM := wordStart, M := 0#32 }

/-- `rtw_secmicsetkey` (lines 330–339). -/
def rtwSecmicsetkey (key : Bytes) : MicData :=
  secmicclear { K0 := secmicgetuint32 key, K1 := secmicgetuint32 (key.drop 4)
                L := 0#32, R := 0#32, M := 0#32, nBytesInM := wordStart }

/-- The rounds over a full word in `rtw_secmicappendbyte` (lines 350–358). -/
def secmicRounds (l r m : BitVec 32) : BitVec 32 × BitVec 32 :=
  let l := l ^^^ m
  let r := r ^^^ rol32 l 17
  let l := l + r
  let r := r ^^^ (((l &&& 0xff00ff00#32) >>> 8) ||| ((l &&& 0x00ff00ff#32) <<< 8))
  let l := l + r
  let r := r ^^^ rol32 l 3
  let l := l + r
  let r := r ^^^ ror32 l 2
  let l := l + r
  (l, r)

/-- `rtw_secmicappendbyte` (lines 341–364). -/
def rtwSecmicappendbyte (d : MicData) (b : UInt8) : MicData :=
  let m := d.M ||| (BitVec.ofNat 32 b.toNat <<< (8 * d.nBytesInM.val))
  if h : d.nBytesInM.val + 1 < 4 then { d with M := m, nBytesInM := ⟨d.nBytesInM.val + 1, h⟩ }
  else
    let (l, r) := secmicRounds d.L d.R m
    { d with L := l, R := r, M := 0#32, nBytesInM := wordStart }

/-- `rtw_secmicappend` (lines 366–375). -/
def rtwSecmicappend (d : MicData) (src : Bytes) : MicData := src.foldl rtwSecmicappendbyte d

/-- The `while` loop of `rtw_secgetmic` (lines 388–391). -/
def secmicpad : ℕ → MicData → MicData
  | 0, d => d
  | fuel + 1, d =>
    if d.nBytesInM ≠ wordStart then secmicpad fuel (rtwSecmicappendbyte d 0) else d

/-- `rtw_secgetmic` (lines 377–398). -/
def rtwSecgetmic (d : MicData) : Bytes :=
  let d := secmicpad 3 (rtwSecmicappend d [0x5a, 0, 0, 0, 0])
  secmicputuint32 d.L ++ secmicputuint32 d.R

/-- The addresses that `rtw_seccalctkipmic` authenticates (lines 410–425). -/
def michaelAddresses (header : Bytes) : Bytes :=
  let toDs := header.getD 1 0 &&& 1 ≠ 0
  let frDs := header.getD 1 0 &&& 2 ≠ 0
  let at6 := fun off => (header.drop off).take 6
  if toDs then at6 16 ++ (if frDs then at6 24 else at6 10)
  else at6 4 ++ (if frDs then at6 16 else at6 10)

/-- `rtw_seccalctkipmic` (lines 401–433). -/
def rtwSeccalctkipmic (key header data : Bytes) (pri : UInt8) : Bytes :=
  let d := rtwSecmicappend (rtwSecmicsetkey key) (michaelAddresses header)
  let d := rtwSecmicappend d [pri, 0, 0, 0]
  rtwSecgetmic (rtwSecmicappend d data)

/-! ## Appending in pieces -/

theorem rtwSecmicappend_append (d : MicData) (bs cs : Bytes) :
    rtwSecmicappend d (bs ++ cs) = rtwSecmicappend (rtwSecmicappend d bs) cs := List.foldl_append

theorem rtwSecmicappendbyte_nBytesInM (d : MicData) (b : UInt8) :
    (rtwSecmicappendbyte d b).nBytesInM.val = (d.nBytesInM.val + 1) % 4 := by
  have := d.nBytesInM.isLt
  unfold rtwSecmicappendbyte
  split_ifs with h
  · dsimp only
    omega
  · show 0 = _
    omega

theorem secmicpad_nBytesInM (d : MicData) : (secmicpad 3 d).nBytesInM = wordStart := by
  have h1 := rtwSecmicappendbyte_nBytesInM d 0
  have h2 := rtwSecmicappendbyte_nBytesInM (rtwSecmicappendbyte d 0) 0
  have h3 := rtwSecmicappendbyte_nBytesInM (rtwSecmicappendbyte (rtwSecmicappendbyte d 0) 0) 0
  have h := d.nBytesInM.isLt
  simp only [secmicpad]
  split_ifs with g1 g2 g3 <;> simp only [ne_eq, Fin.ext_iff, not_not] at * <;> omega

end Rtl8821au.Security
