import Rtl8821au.Recv.Frame

/-!
# AES-128 as the driver computes it

`aes128k128d` (`rtw_security.c`, lines 859–1134) works on 16 bytes in the order
in which they stand in memory: byte `4 c + r` is row `r` of column `c`. Round keys
are computed on the way.
-/

namespace Rtl8821au.Security

/-- 16 bytes. -/
abbrev Block := Vector UInt8 16

/-- Four bytes: a column of the state, or a word of the key. -/
abbrev Column := Vector UInt8 4

/-- `sbox_table` (lines 859–893). -/
def sboxTable : Array UInt8 :=
  #[0x63, 0x7c, 0x77, 0x7b, 0xf2, 0x6b, 0x6f, 0xc5, 0x30, 0x01, 0x67, 0x2b,
    0xfe, 0xd7, 0xab, 0x76, 0xca, 0x82, 0xc9, 0x7d, 0xfa, 0x59, 0x47, 0xf0,
    0xad, 0xd4, 0xa2, 0xaf, 0x9c, 0xa4, 0x72, 0xc0, 0xb7, 0xfd, 0x93, 0x26,
    0x36, 0x3f, 0xf7, 0xcc, 0x34, 0xa5, 0xe5, 0xf1, 0x71, 0xd8, 0x31, 0x15,
    0x04, 0xc7, 0x23, 0xc3, 0x18, 0x96, 0x05, 0x9a, 0x07, 0x12, 0x80, 0xe2,
    0xeb, 0x27, 0xb2, 0x75, 0x09, 0x83, 0x2c, 0x1a, 0x1b, 0x6e, 0x5a, 0xa0,
    0x52, 0x3b, 0xd6, 0xb3, 0x29, 0xe3, 0x2f, 0x84, 0x53, 0xd1, 0x00, 0xed,
    0x20, 0xfc, 0xb1, 0x5b, 0x6a, 0xcb, 0xbe, 0x39, 0x4a, 0x4c, 0x58, 0xcf,
    0xd0, 0xef, 0xaa, 0xfb, 0x43, 0x4d, 0x33, 0x85, 0x45, 0xf9, 0x02, 0x7f,
    0x50, 0x3c, 0x9f, 0xa8, 0x51, 0xa3, 0x40, 0x8f, 0x92, 0x9d, 0x38, 0xf5,
    0xbc, 0xb6, 0xda, 0x21, 0x10, 0xff, 0xf3, 0xd2, 0xcd, 0x0c, 0x13, 0xec,
    0x5f, 0x97, 0x44, 0x17, 0xc4, 0xa7, 0x7e, 0x3d, 0x64, 0x5d, 0x19, 0x73,
    0x60, 0x81, 0x4f, 0xdc, 0x22, 0x2a, 0x90, 0x88, 0x46, 0xee, 0xb8, 0x14,
    0xde, 0x5e, 0x0b, 0xdb, 0xe0, 0x32, 0x3a, 0x0a, 0x49, 0x06, 0x24, 0x5c,
    0xc2, 0xd3, 0xac, 0x62, 0x91, 0x95, 0xe4, 0x79, 0xe7, 0xc8, 0x37, 0x6d,
    0x8d, 0xd5, 0x4e, 0xa9, 0x6c, 0x56, 0xf4, 0xea, 0x65, 0x7a, 0xae, 0x08,
    0xba, 0x78, 0x25, 0x2e, 0x1c, 0xa6, 0xb4, 0xc6, 0xe8, 0xdd, 0x74, 0x1f,
    0x4b, 0xbd, 0x8b, 0x8a, 0x70, 0x3e, 0xb5, 0x66, 0x48, 0x03, 0xf6, 0x0e,
    0x61, 0x35, 0x57, 0xb9, 0x86, 0xc1, 0x1d, 0x9e, 0xe1, 0xf8, 0x98, 0x11,
    0x69, 0xd9, 0x8e, 0x94, 0x9b, 0x1e, 0x87, 0xe9, 0xce, 0x55, 0x28, 0xdf,
    0x8c, 0xa1, 0x89, 0x0d, 0xbf, 0xe6, 0x42, 0x68, 0x41, 0x99, 0x2d, 0x0f,
    0xb0, 0x54, 0xbb, 0x16]

/-- `xor_128` (lines 943–952) and `bitwise_xor` (lines 1299–1308). -/
def xor128 (a b : Block) : Block := Vector.ofFn fun i => a.get i ^^^ b.get i

/-- `xor_32` (lines 955–964). -/
def xor32 (a b : Column) : Column := Vector.ofFn fun i => a.get i ^^^ b.get i

/-- `sbox` (lines 967–970). -/
def sbox (a : UInt8) : UInt8 := sboxTable.getD a.toNat 0

/-- The column that starts at byte `4 c`. -/
def column (b : Block) (c : Fin 4) : Column :=
  Vector.ofFn fun r => b.get ⟨4 * c.val + r.val, by omega⟩

/-- Four columns side by side. -/
def ofColumns (c0 c1 c2 c3 : Column) : Block :=
  #v[c0[0], c0[1], c0[2], c0[3], c1[0], c1[1], c1[2], c1[3],
    c2[0], c2[1], c2[2], c2[3], c3[0], c3[1], c3[2], c3[3]]

/-- `rcon_table` (lines 977–981). -/
def rconTable : Array UInt8 :=
  #[0x01, 0x02, 0x04, 0x08, 0x10, 0x20, 0x40, 0x80, 0x1b, 0x36, 0x36, 0x36]

/-- `next_key` (lines 973–997). -/
def nextKey (key : Block) (round : ℕ) : Block :=
  let sboxKey : Column := #v[sbox key[13], sbox key[14], sbox key[15], sbox key[12]]
  let rcon := rconTable.getD round 0
  let k0 := xor32 (column key 0) sboxKey
  let k0 := k0.set 0 (k0[0] ^^^ rcon)
  let k1 := xor32 (column key 1) k0
  let k2 := xor32 (column key 2) k1
  let k3 := xor32 (column key 3) k2
  ofColumns k0 k1 k2 k3

/-- `byte_sub` (lines 1000–1009). -/
def byteSub (b : Block) : Block := b.map sbox

/-- `shift_row` (lines 1012–1032). -/
def shiftRow (b : Block) : Block :=
  #v[b[0], b[5], b[10], b[15], b[4], b[9], b[14], b[3],
    b[8], b[13], b[2], b[7], b[12], b[1], b[6], b[11]]

/-- One step of the shift in `mix_column` (lines 1070–1078). -/
def shiftByte (x previous : UInt8) : UInt8 :=
  if previous &&& 0x80 = 0x80 then (x <<< 1) ||| 0x01 else x <<< 1

/-- `mix_column` (lines 1035–1095). -/
def mixColumn (b : Column) : Column :=
  let add1b : Column := b.map fun x => if x &&& 0x80 = 0x80 then 0x1b else 0x00
  let swapHalfs : Column := #v[b[2], b[3], b[0], b[1]]
  let rotl : Column := #v[b[3], b[0], b[1], b[2]]
  let andf7 := b.map (· &&& 0x7f)
  let andf7 : Column := #v[(andf7[0] <<< 1) &&& 0xfe, shiftByte andf7[1] andf7[0],
    shiftByte andf7[2] andf7[1], shiftByte andf7[3] andf7[2]]
  let add1bf7 := xor32 add1b andf7
  let rotr := xor32 b add1bf7
  let rotr : Column := #v[rotr[1], rotr[2], rotr[3], rotr[0]]
  xor32 (xor32 add1bf7 rotr) (xor32 swapHalfs rotl)

/-- The loop body of `aes128k128d` (lines 1107–1132) on `(ciphertext,
    round_key)`. -/
def aesRound (data : Block) (st : Block × Block) (round : ℕ) : Block × Block :=
  let (ciphertext, roundKey) := st
  if round = 0 then (xor128 roundKey data, nextKey roundKey round)
  else
    let b := shiftRow (byteSub ciphertext)
    if round = 10 then (xor128 b roundKey, roundKey)
    else
      let a := ofColumns (mixColumn (column b 0)) (mixColumn (column b 1))
        (mixColumn (column b 2)) (mixColumn (column b 3))
      (xor128 a roundKey, nextKey roundKey round)

/-- `aes128k128d` (lines 1098–1134). -/
def aes128k128d (key data : Block) : Block :=
  ((List.range 11).foldl (aesRound data) (Vector.replicate 16 0, key)).1

-- the example vector of FIPS-197, appendix C.1
set_option maxRecDepth 100000 in
example : aes128k128d #v[0, 1, 2, 3, 4, 5, 6, 7, 8, 9, 10, 11, 12, 13, 14, 15]
    #v[0x00, 0x11, 0x22, 0x33, 0x44, 0x55, 0x66, 0x77,
      0x88, 0x99, 0xaa, 0xbb, 0xcc, 0xdd, 0xee, 0xff] =
    #v[0x69, 0xc4, 0xe0, 0xd8, 0x6a, 0x7b, 0x04, 0x30,
      0xd8, 0xcd, 0xb7, 0x80, 0x70, 0xb4, 0xc5, 0x5a] := by
  decide +kernel

end Rtl8821au.Security
