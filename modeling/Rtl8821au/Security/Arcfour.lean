import Rtl8821au.Lib.Keystream
import Rtl8821au.Recv.Frame

/-!
# RC4 and CRC-32

`arcfour_init` … `getcrc32` (`rtw_security.c`, lines 38–155). All indices of the RC4
state are masked with `0xff`, so they are bytes here.

* `arcfourEncrypt_append`: payload and ICV may be encrypted one after the other.
* `arcfourEncrypt_arcfourEncrypt`: decryption is encryption.
* `getcrc32`: the CRC over the table that `crc32_init` fills.
-/

namespace Rtl8821au.Security

open Recv (Bytes)

/-! ## RC4 -/

/-- `struct arc4context` (lines 38–43). -/
structure Arc4Context where
  x : UInt8
  y : UInt8
  state : Vector UInt8 256
  deriving DecidableEq

/-- `state[j] = t; state[i] = u` with `t`, `u` the entries at `i` and `j`. -/
def swapEntries (state : Vector UInt8 256) (i j : UInt8) : Vector UInt8 256 :=
  let t := state.get i.toFin
  let u := state.get j.toFin
  (state.set j.toNat t j.toNat_lt).set i.toNat u i.toNat_lt

/-- The loop variables of `arcfour_init`. -/
structure KeySchedule where
  keyindex : ℕ
  stateindex : UInt8
  state : Vector UInt8 256

/-- The second loop of `arcfour_init` (lines 60–69); `key_len` is the length of
    `key`. -/
def keyScheduleStep (key : Bytes) (s : KeySchedule) (counter : UInt8) : KeySchedule :=
  let t := s.state.get counter.toFin
  let stateindex := s.stateindex + key.getD s.keyindex 0 + t
  { keyindex := if s.keyindex + 1 ≥ key.length then 0 else s.keyindex + 1
    stateindex := stateindex
    state := swapEntries s.state counter stateindex }

/-- `arcfour_init` (lines 46–72). -/
def arcfourInit (key : Bytes) : Arc4Context :=
  let s := (List.range 256).foldl (fun s counter => keyScheduleStep key s (UInt8.ofNat counter))
    { keyindex := 0, stateindex := 0, state := Vector.ofFn fun i => UInt8.ofNat i }
  { x := 0, y := 0, state := s.state }

/-- `arcfour_byte` (lines 73–92). -/
def arcfourByte (ctx : Arc4Context) : Arc4Context × UInt8 :=
  let x := ctx.x + 1
  let sx := ctx.state.get x.toFin
  let y := sx + ctx.y
  let sy := ctx.state.get y.toFin
  let state := (ctx.state.set y.toNat sx y.toNat_lt).set x.toNat sy x.toNat_lt
  ({ x := x, y := y, state := state }, state.get (sx + sy).toFin)

/-- `arcfour_encrypt` (lines 95–104): the context it leaves and `dest`. -/
def arcfourEncrypt (ctx : Arc4Context) (src : Bytes) : Arc4Context × Bytes :=
  (Keystream.after arcfourByte src.length ctx, Keystream.crypt arcfourByte (fun b k : UInt8 => b ^^^ k) ctx src)

@[simp] theorem arcfourEncrypt_length (ctx : Arc4Context) (src : Bytes) :
    (arcfourEncrypt ctx src).2.length = src.length := Keystream.length_crypt

theorem arcfourEncrypt_append (ctx : Arc4Context) (src src' : Bytes) :
    (arcfourEncrypt ctx (src ++ src')).2 =
      (arcfourEncrypt ctx src).2 ++ (arcfourEncrypt (arcfourEncrypt ctx src).1 src').2 :=
  Keystream.crypt_append

theorem arcfourEncrypt_arcfourEncrypt (ctx : Arc4Context) (src : Bytes) :
    (arcfourEncrypt ctx (arcfourEncrypt ctx src).2).2 = src := by
  apply Keystream.crypt_crypt
  intro a k
  rw [UInt8.xor_assoc, UInt8.xor_self, UInt8.xor_zero]

/-! ## CRC-32 -/

/-- `CRC32_POLY`. -/
def crc32Poly : UInt32 := 0x04c11db7

/-- `crc32_reverseBit` (lines 110–113). -/
def crc32ReverseBit (data : UInt8) : UInt8 :=
  let left (k mask : UInt8) : UInt8 := (data <<< k) &&& mask
  let right (k mask : UInt8) : UInt8 := (data >>> k) &&& mask
  left 7 0x80 ||| left 5 0x40 ||| left 3 0x20 ||| left 1 0x10 |||
    right 1 0x08 ||| right 3 0x04 ||| right 5 0x02 ||| right 7 0x01

/-- Byte `k` of a word in little-endian order. -/
def byteOf (w : UInt32) (k : ℕ) : UInt8 := (w >>> (8 * UInt32.ofNat k)).toUInt8

/-- The word of four bytes in little-endian order. -/
def wordOf (b0 b1 b2 b3 : UInt8) : UInt32 :=
  b0.toUInt32 ||| (b1.toUInt32 <<< 8) ||| (b2.toUInt32 <<< 16) ||| (b3.toUInt32 <<< 24)

/-- The inner loop of `crc32_init` (lines 133–135). -/
def crc32Shift : ℕ → UInt32 → UInt32
  | 0, c => c
  | j + 1, c =>
    crc32Shift j (if c &&& 0x80000000 ≠ 0 then (c <<< 1) ^^^ crc32Poly else c <<< 1)

/-- `crc32_table[i]` as `crc32_init` fills it (lines 130–142). -/
def crc32Table (i : UInt8) : UInt32 :=
  let c := crc32Shift 8 ((crc32ReverseBit i).toUInt32 <<< 24)
  wordOf (crc32ReverseBit (byteOf c 3)) (crc32ReverseBit (byteOf c 2))
    (crc32ReverseBit (byteOf c 1)) (crc32ReverseBit (byteOf c 0))

/-- `getcrc32` (lines 149–165). -/
def getcrc32 (buf : Bytes) : UInt32 :=
  ~~~(buf.foldl (fun crc p => crc32Table (crc.toUInt8 ^^^ p) ^^^ (crc >>> 8)) 0xffffffff)

example : getcrc32 [0x31, 0x32, 0x33, 0x34, 0x35, 0x36, 0x37, 0x38, 0x39] = 0xcbf43926 := by
  decide +kernel

/-- `*((uint32_t *)crc) = cpu_to_le32(getcrc32(buf, len))`. -/
def crcBytes (buf : Bytes) : Bytes := (List.range 4).map (byteOf (getcrc32 buf))

@[simp] theorem crcBytes_length (buf : Bytes) : (crcBytes buf).length = 4 := by
  simp [crcBytes]

end Rtl8821au.Security
