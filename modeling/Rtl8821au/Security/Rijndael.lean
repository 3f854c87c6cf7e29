import Rtl8821au.Security.AesFips

/-!
# The table-driven AES

`rijndaelKeySetupEnc` and `rijndaelEncrypt` (`rtw_security.c`, lines 1962–2222, with the
macros of `rtw_security.h`, lines 264–299) work on columns as words, high byte first, and
look up S-box and column product together.

* `te0Table_eq`: an entry of the table is the product of the S-box with `{02, 01, 01, 03}`.
* `rijndaelKeySetupEnc_eq`: the key schedule.
* `rijndaelEncrypt_eq`: the cipher.
* `aes_agree`: both implementations are FIPS-197.
-/

namespace Rtl8821au.Security

open Fips197 (State Word)

attribute [local instance] Fips197.four_neZero

/-- `Te0` (lines 1962–2027). -/
def te0Table : Array UInt32 :=
  #[0xc66363a5, 0xf87c7c84, 0xee777799, 0xf67b7b8d, 0xfff2f20d, 0xd66b6bbd, 0xde6f6fb1,
    0x91c5c554, 0x60303050, 0x02010103, 0xce6767a9, 0x562b2b7d, 0xe7fefe19, 0xb5d7d762,
    0x4dababe6, 0xec76769a, 0x8fcaca45, 0x1f82829d, 0x89c9c940, 0xfa7d7d87, 0xeffafa15,
    0xb25959eb, 0x8e4747c9, 0xfbf0f00b, 0x41adadec, 0xb3d4d467, 0x5fa2a2fd, 0x45afafea,
    0x239c9cbf, 0x53a4a4f7, 0xe4727296, 0x9bc0c05b, 0x75b7b7c2, 0xe1fdfd1c, 0x3d9393ae,
    0x4c26266a, 0x6c36365a, 0x7e3f3f41, 0xf5f7f702, 0x83cccc4f, 0x6834345c, 0x51a5a5f4,
    0xd1e5e534, 0xf9f1f108, 0xe2717193, 0xabd8d873, 0x62313153, 0x2a15153f, 0x0804040c,
    0x95c7c752, 0x46232365, 0x9dc3c35e, 0x30181828, 0x379696a1, 0x0a05050f, 0x2f9a9ab5,
    0x0e070709, 0x24121236, 0x1b80809b, 0xdfe2e23d, 0xcdebeb26, 0x4e272769, 0x7fb2b2cd,
    0xea75759f, 0x1209091b, 0x1d83839e, 0x582c2c74, 0x341a1a2e, 0x361b1b2d, 0xdc6e6eb2,
    0xb45a5aee, 0x5ba0a0fb, 0xa45252f6, 0x763b3b4d, 0xb7d6d661, 0x7db3b3ce, 0x5229297b,
    0xdde3e33e, 0x5e2f2f71, 0x13848497, 0xa65353f5, 0xb9d1d168, 0x00000000, 0xc1eded2c,
    0x40202060, 0xe3fcfc1f, 0x79b1b1c8, 0xb65b5bed, 0xd46a6abe, 0x8dcbcb46, 0x67bebed9,
    0x7239394b, 0x944a4ade, 0x984c4cd4, 0xb05858e8, 0x85cfcf4a, 0xbbd0d06b, 0xc5efef2a,
    0x4faaaae5, 0xedfbfb16, 0x864343c5, 0x9a4d4dd7, 0x66333355, 0x11858594, 0x8a4545cf,
    0xe9f9f910, 0x04020206, 0xfe7f7f81, 0xa05050f0, 0x783c3c44, 0x259f9fba, 0x4ba8a8e3,
    0xa25151f3, 0x5da3a3fe, 0x804040c0, 0x058f8f8a, 0x3f9292ad, 0x219d9dbc, 0x70383848,
    0xf1f5f504, 0x63bcbcdf, 0x77b6b6c1, 0xafdada75, 0x42212163, 0x20101030, 0xe5ffff1a,
    0xfdf3f30e, 0xbfd2d26d, 0x81cdcd4c, 0x180c0c14, 0x26131335, 0xc3ecec2f, 0xbe5f5fe1,
    0x359797a2, 0x884444cc, 0x2e171739, 0x93c4c457, 0x55a7a7f2, 0xfc7e7e82, 0x7a3d3d47,
    0xc86464ac, 0xba5d5de7, 0x3219192b, 0xe6737395, 0xc06060a0, 0x19818198, 0x9e4f4fd1,
    0xa3dcdc7f, 0x44222266, 0x542a2a7e, 0x3b9090ab, 0x0b888883, 0x8c4646ca, 0xc7eeee29,
    0x6bb8b8d3, 0x2814143c, 0xa7dede79, 0xbc5e5ee2, 0x160b0b1d, 0xaddbdb76, 0xdbe0e03b,
    0x64323256, 0x743a3a4e, 0x140a0a1e, 0x924949db, 0x0c06060a, 0x4824246c, 0xb85c5ce4,
    0x9fc2c25d, 0xbdd3d36e, 0x43acacef, 0xc46262a6, 0x399191a8, 0x319595a4, 0xd3e4e437,
    0xf279798b, 0xd5e7e732, 0x8bc8c843, 0x6e373759, 0xda6d6db7, 0x018d8d8c, 0xb1d5d564,
    0x9c4e4ed2, 0x49a9a9e0, 0xd86c6cb4, 0xac5656fa, 0xf3f4f407, 0xcfeaea25, 0xca6565af,
    0xf47a7a8e, 0x47aeaee9, 0x10080818, 0x6fbabad5, 0xf0787888, 0x4a25256f, 0x5c2e2e72,
    0x381c1c24, 0x57a6a6f1, 0x73b4b4c7, 0x97c6c651, 0xcbe8e823, 0xa1dddd7c, 0xe874749c,
    0x3e1f1f21, 0x964b4bdd, 0x61bdbddc, 0x0d8b8b86, 0x0f8a8a85, 0xe0707090, 0x7c3e3e42,
    0x71b5b5c4, 0xcc6666aa, 0x904848d8, 0x06030305, 0xf7f6f601, 0x1c0e0e12, 0xc26161a3,
    0x6a35355f, 0xae5757f9, 0x69b9b9d0, 0x17868691, 0x99c1c158, 0x3a1d1d27, 0x279e9eb9,
    0xd9e1e138, 0xebf8f813, 0x2b9898b3, 0x22111133, 0xd26969bb, 0xa9d9d970, 0x078e8e89,
    0x339494a7, 0x2d9b9bb6, 0x3c1e1e22, 0x15878792, 0xc9e9e920, 0x87cece49, 0xaa5555ff,
    0x50282878, 0xa5dfdf7a, 0x038c8c8f, 0x59a1a1f8, 0x09898980, 0x1a0d0d17, 0x65bfbfda,
    0xd7e6e631, 0x844242c6, 0xd06868b8, 0x824141c3, 0x299999b0, 0x5a2d2d77, 0x1e0f0f11,
    0x7bb0b0cb, 0xa85454fc, 0x6dbbbbd6, 0x2c16163a]

/-- `rcons` (lines 2128–2131). -/
def rcons : Array UInt8 := #[0x01, 0x02, 0x04, 0x08, 0x10, 0x20, 0x40, 0x80, 0x1b, 0x36]

/-- `RCON`. -/
def rconWord (i : ℕ) : UInt32 := (rcons.getD i 0).toUInt32 <<< 24

/-- `rotr`. -/
def rotr (val bits : UInt32) : UInt32 := (val >>> bits) ||| (val <<< (32 - bits))

/-- `Te0[i]`. -/
def te0At (i : UInt32) : UInt32 := te0Table.getD i.toNat 0

/-- `TE0`. -/
def te0 (i : UInt32) : UInt32 := te0At ((i >>> 24) &&& 0xff)

/-- `TE1`. -/
def te1 (i : UInt32) : UInt32 := rotr (te0At ((i >>> 16) &&& 0xff)) 8

/-- `TE2`. -/
def te2 (i : UInt32) : UInt32 := rotr (te0At ((i >>> 8) &&& 0xff)) 16

/-- `TE3`. -/
def te3 (i : UInt32) : UInt32 := rotr (te0At (i &&& 0xff)) 24

/-- `TE41`. -/
def te41 (i : UInt32) : UInt32 := (te0At ((i >>> 24) &&& 0xff) <<< 8) &&& 0xff000000

/-- `TE42`. -/
def te42 (i : UInt32) : UInt32 := te0At ((i >>> 16) &&& 0xff) &&& 0x00ff0000

/-- `TE43`. -/
def te43 (i : UInt32) : UInt32 := te0At ((i >>> 8) &&& 0xff) &&& 0x0000ff00

/-- `TE44`. -/
def te44 (i : UInt32) : UInt32 := (te0At (i &&& 0xff) >>> 8) &&& 0x000000ff

/-- `TE421`. -/
def te421 (i : UInt32) : UInt32 := (te0At ((i >>> 16) &&& 0xff) <<< 8) &&& 0xff000000

/-- `TE432`. -/
def te432 (i : UInt32) : UInt32 := te0At ((i >>> 8) &&& 0xff) &&& 0x00ff0000

/-- `TE443`. -/
def te443 (i : UInt32) : UInt32 := te0At (i &&& 0xff) &&& 0x0000ff00

/-- `TE414`. -/
def te414 (i : UInt32) : UInt32 := (te0At ((i >>> 24) &&& 0xff) >>> 8) &&& 0x000000ff

/-- `GETU32`. -/
def getu32 (b0 b1 b2 b3 : UInt8) : UInt32 :=
  (b0.toUInt32 <<< 24) ^^^ (b1.toUInt32 <<< 16) ^^^ (b2.toUInt32 <<< 8) ^^^ b3.toUInt32

/-- `GETU32(b + 4 * c)`. -/
def getu32At (b : Block) (c : Fin 4) : UInt32 :=
  let byte (r : Fin 4) : UInt8 := b.get ⟨4 * c.val + r.val, byte_lt c r⟩
  getu32 (byte 0) (byte 1) (byte 2) (byte 3)

/-- `PUTU32`. -/
def putu32 (st : UInt32) : Column :=
  #v[(st >>> 24).toUInt8, (st >>> 16).toUInt8, (st >>> 8).toUInt8, st.toUInt8]

/-- The loop body of `rijndaelKeySetupEnc` (lines 2149–2157); `rk` has advanced by `4 * i`. -/
def keySetupRound (rk : ℕ → UInt32) (i : ℕ) : ℕ → UInt32 :=
  let temp := rk (4 * i + 3)
  let rk4 := rk (4 * i) ^^^ te421 temp ^^^ te432 temp ^^^ te443 temp ^^^ te414 temp ^^^ rconWord i
  let rk5 := rk (4 * i + 1) ^^^ rk4
  let rk6 := rk (4 * i + 2) ^^^ rk5
  let rk7 := rk (4 * i + 3) ^^^ rk6
  fun j =>
    if j = 4 * i + 4 then rk4
    else if j = 4 * i + 5 then rk5
    else if j = 4 * i + 6 then rk6
    else if j = 4 * i + 7 then rk7
    else rk j

/-- `rijndaelKeySetupEnc` (lines 2138–2159) on the memory `rk`. -/
def rijndaelKeySetupEnc (rk : ℕ → UInt32) (cipherKey : Block) : ℕ → UInt32 :=
  (List.range 10).foldl keySetupRound fun j =>
    if h : j < 4 then getu32At cipherKey ⟨j, h⟩ else rk j

/-- `ROUND(i,d,s)` (lines 2176–2180). -/
def rijndaelRound (rk : ℕ → UInt32) (i : ℕ) (s : Vector UInt32 4) : Vector UInt32 4 :=
  let s := s.get
  #v[te0 (s 0) ^^^ te1 (s 1) ^^^ te2 (s 2) ^^^ te3 (s 3) ^^^ rk (4 * i),
    te0 (s 1) ^^^ te1 (s 2) ^^^ te2 (s 3) ^^^ te3 (s 0) ^^^ rk (4 * i + 1),
    te0 (s 2) ^^^ te1 (s 3) ^^^ te2 (s 0) ^^^ te3 (s 1) ^^^ rk (4 * i + 2),
    te0 (s 3) ^^^ te1 (s 0) ^^^ te2 (s 1) ^^^ te3 (s 2) ^^^ rk (4 * i + 3)]

/-- The loop of `rijndaelEncrypt` (lines 2199–2206) for `r` more times, with the words from
    `rk` on. -/
def rijndaelLoop : ℕ → (ℕ → UInt32) → Vector UInt32 4 → (ℕ → UInt32) × Vector UInt32 4
  | 0, rk, s => (rk, s)
  | r + 1, rk, s =>
    let t := rijndaelRound rk 1 s
    let rk := fun j => rk (j + 8)
    if r = 0 then (rk, t) else rijndaelLoop r rk (rijndaelRound rk 0 t)

/-- The last round (lines 2216–2223). -/
def rijndaelFinal (rk : ℕ → UInt32) (t : Vector UInt32 4) : Block :=
  let t := t.get
  ofColumns (putu32 (te41 (t 0) ^^^ te42 (t 1) ^^^ te43 (t 2) ^^^ te44 (t 3) ^^^ rk 0))
    (putu32 (te41 (t 1) ^^^ te42 (t 2) ^^^ te43 (t 3) ^^^ te44 (t 0) ^^^ rk 1))
    (putu32 (te41 (t 2) ^^^ te42 (t 3) ^^^ te43 (t 0) ^^^ te44 (t 1) ^^^ rk 2))
    (putu32 (te41 (t 3) ^^^ te42 (t 0) ^^^ te43 (t 1) ^^^ te44 (t 2) ^^^ rk 3))

/-- `rijndaelEncrypt` (lines 2161–2224). -/
def rijndaelEncrypt (rk : ℕ → UInt32) (pt : Block) : Block :=
  let s : Vector UInt32 4 := #v[getu32At pt 0 ^^^ rk 0, getu32At pt 1 ^^^ rk 1,
    getu32At pt 2 ^^^ rk 2, getu32At pt 3 ^^^ rk 3]
  let r := rijndaelLoop (10 / 2) rk s
  rijndaelFinal r.1 r.2

/-! ## Words of four bytes -/

theorem word_ext {v w : UInt32} (h : ∀ i < 32, v.toBitVec.getLsbD i = w.toBitVec.getLsbD i) :
    v = w :=
  UInt32.toBitVec_inj.mp (BitVec.eq_of_getLsbD_eq h)

section words

variable (a b c d a' b' c' d' : UInt8)

/-- The bits of a word lie in its bytes. -/
theorem getLsbD_getu32 {i : ℕ} (hi : i < 32) :
    (getu32 a b c d).toBitVec.getLsbD i =
      if i < 8 then d.toBitVec.getLsbD i
      else if i < 16 then c.toBitVec.getLsbD (i - 8)
      else if i < 24 then b.toBitVec.getLsbD (i - 16)
      else a.toBitVec.getLsbD (i - 24) := by
  unfold getu32
  interval_cases i <;> simp

theorem getElem_getu32 {i : ℕ} (hi : i < 32) :
    (getu32 a b c d).toBitVec[i] =
      if i < 8 then d.toBitVec.getLsbD i
      else if i < 16 then c.toBitVec.getLsbD (i - 8)
      else if i < 24 then b.toBitVec.getLsbD (i - 16)
      else a.toBitVec.getLsbD (i - 24) :=
  getLsbD_getu32 a b c d hi

theorem getu32_xor :
    getu32 a b c d ^^^ getu32 a' b' c' d' =
      getu32 (a ^^^ a') (b ^^^ b') (c ^^^ c') (d ^^^ d') := by
  apply word_ext
  intro i hi
  simp only [UInt32.toBitVec_xor, UInt8.toBitVec_xor, BitVec.getLsbD_xor,
    getLsbD_getu32 _ _ _ _ hi]
  split_ifs <;> rfl

theorem getu32_byte0 : (getu32 a b c d >>> 24) &&& 0xff = a.toUInt32 := by
  apply word_ext
  intro i hi
  interval_cases i <;> simp [getElem_getu32]

theorem getu32_byte1 : (getu32 a b c d >>> 16) &&& 0xff = b.toUInt32 := by
  apply word_ext
  intro i hi
  interval_cases i <;> simp [getElem_getu32]

theorem getu32_byte2 : (getu32 a b c d >>> 8) &&& 0xff = c.toUInt32 := by
  apply word_ext
  intro i hi
  interval_cases i <;> simp [getElem_getu32]

theorem getu32_byte3 : getu32 a b c d &&& 0xff = d.toUInt32 := by
  apply word_ext
  intro i hi
  interval_cases i <;> simp [getElem_getu32]

theorem rotr_getu32 : rotr (getu32 a b c d) 8 = getu32 d a b c := by
  apply word_ext
  intro i hi
  unfold rotr
  interval_cases i <;> simp [getElem_getu32]

theorem rotr16_getu32 : rotr (getu32 a b c d) 16 = getu32 c d a b := by
  apply word_ext
  intro i hi
  unfold rotr
  interval_cases i <;> simp [getElem_getu32]

theorem rotr24_getu32 : rotr (getu32 a b c d) 24 = getu32 b c d a := by
  apply word_ext
  intro i hi
  unfold rotr
  interval_cases i <;> simp [getElem_getu32]

theorem mask0_getu32 : (getu32 a b c d <<< 8) &&& 0xff000000 = getu32 b 0 0 0 := by
  apply word_ext
  intro i hi
  interval_cases i <;> simp [getElem_getu32]

theorem mask1_getu32 : getu32 a b c d &&& 0x00ff0000 = getu32 0 b 0 0 := by
  apply word_ext
  intro i hi
  interval_cases i <;> simp [getElem_getu32]

theorem mask2_getu32 : getu32 a b c d &&& 0x0000ff00 = getu32 0 0 c 0 := by
  apply word_ext
  intro i hi
  interval_cases i <;> simp [getElem_getu32]

theorem getu32_low : getu32 0 0 0 d = d.toUInt32 := by
  apply word_ext
  intro i hi
  interval_cases i <;> simp [getElem_getu32]

theorem toUInt8_of_mask {v : UInt32} {b : UInt8} (h : v &&& 0xff = b.toUInt32) : v.toUInt8 = b := by
  have hmask : (v &&& 0xff).toUInt8 = v.toUInt8 := by
    rw [UInt32.toUInt8_and]
    exact UInt8.and_neg_one
  rw [← hmask, h, UInt8.toUInt8_toUInt32]

/-- The bytes come back. -/
theorem putu32_getu32 : putu32 (getu32 a b c d) = #v[a, b, c, d] := by
  have h0 := toUInt8_of_mask (getu32_byte0 a b c d)
  have h1 := toUInt8_of_mask (getu32_byte1 a b c d)
  have h2 := toUInt8_of_mask (getu32_byte2 a b c d)
  have h3 := toUInt8_of_mask (getu32_byte3 a b c d)
  simp only [putu32, h0, h1, h2, h3]

end words

/-! ## The table -/

theorem te0Table_map : te0Table.toList =
    sboxTable.toList.map fun s => getu32 (Fips197.mul 2 s) s s (Fips197.mul 3 s) := by
  decide +kernel

theorem te0Table_eq (a : UInt8) :
    te0At a.toUInt32 =
      getu32 (Fips197.mul 2 (sbox a)) (sbox a) (sbox a) (Fips197.mul 3 (sbox a)) := by
  have hlen : a.toNat < sboxTable.toList.length := by
    rw [show sboxTable.toList.length = 256 by decide +kernel]
    exact a.toNat_lt
  obtain ⟨v, hv⟩ : ∃ v, sboxTable.toList[a.toNat]? = some v :=
    ⟨_, List.getElem?_eq_getElem hlen⟩
  have hsbox : sbox a = v := by
    rw [sbox, Array.getD_eq_getD_getElem?, ← Array.getElem?_toList, hv]
    rfl
  rw [te0At, UInt8.toNat_toUInt32, Array.getD_eq_getD_getElem?, ← Array.getElem?_toList,
    te0Table_map, List.getElem?_map, hv, hsbox]
  rfl

/-- The word of a column. -/
def wordOf4 (w : Word) : UInt32 := getu32 (w 0) (w 1) (w 2) (w 3)

theorem wordOf4_xor (v w : Word) : wordOf4 v ^^^ wordOf4 w = wordOf4 (Fips197.xorWord v w) :=
  getu32_xor _ _ _ _ _ _ _ _

/-- The words of a state. -/
def wordsOf (s : State) : Vector UInt32 4 :=
  #v[wordOf4 (s 0), wordOf4 (s 1), wordOf4 (s 2), wordOf4 (s 3)]

/-- A column of the product of one row of the state. -/
theorem te_getu32 (w : Word) :
    te0 (wordOf4 w) = getu32 (Fips197.mul 2 (sbox (w 0))) (sbox (w 0)) (sbox (w 0))
        (Fips197.mul 3 (sbox (w 0))) ∧
    te1 (wordOf4 w) = getu32 (Fips197.mul 3 (sbox (w 1))) (Fips197.mul 2 (sbox (w 1))) (sbox (w 1))
        (sbox (w 1)) ∧
    te2 (wordOf4 w) = getu32 (sbox (w 2)) (Fips197.mul 3 (sbox (w 2))) (Fips197.mul 2 (sbox (w 2)))
        (sbox (w 2)) ∧
    te3 (wordOf4 w) = getu32 (sbox (w 3)) (sbox (w 3)) (Fips197.mul 3 (sbox (w 3)))
        (Fips197.mul 2 (sbox (w 3))) := by
  unfold te0 te1 te2 te3 wordOf4
  rw [getu32_byte0, getu32_byte1, getu32_byte2, getu32_byte3, te0Table_eq, te0Table_eq,
    te0Table_eq, te0Table_eq, rotr_getu32, rotr16_getu32, rotr24_getu32]
  exact ⟨rfl, rfl, rfl, rfl⟩

/-- A byte of the S-box alone. -/
theorem te4_getu32 (w : Word) :
    te41 (wordOf4 w) = getu32 (sbox (w 0)) 0 0 0 ∧ te42 (wordOf4 w) = getu32 0 (sbox (w 1)) 0 0 ∧
    te43 (wordOf4 w) = getu32 0 0 (sbox (w 2)) 0 ∧ te44 (wordOf4 w) = getu32 0 0 0 (sbox (w 3)) ∧
    te421 (wordOf4 w) = getu32 (sbox (w 1)) 0 0 0 ∧
    te432 (wordOf4 w) = getu32 0 (sbox (w 2)) 0 0 ∧
    te443 (wordOf4 w) = getu32 0 0 (sbox (w 3)) 0 ∧
    te414 (wordOf4 w) = getu32 0 0 0 (sbox (w 0)) := by
  unfold te41 te42 te43 te44 te421 te432 te443 te414 wordOf4
  simp only [getu32_byte0, getu32_byte1, getu32_byte2, getu32_byte3, te0Table_eq, mask0_getu32,
    mask1_getu32, mask2_getu32, getu32_low, and_self]

/-! ## A round -/

theorem xor_rotate (a b c d : UInt8) : a ^^^ b ^^^ c ^^^ d = b ^^^ c ^^^ d ^^^ a := by
  ac_rfl

/-- The four lookups of a word are a column of `MixColumns` after `ShiftRows` and
    `SubBytes`. -/
theorem te_column (s : State) (c : Fin 4) :
    te0 (wordOf4 (s c)) ^^^ te1 (wordOf4 (s (c + 1))) ^^^ te2 (wordOf4 (s (c + 2))) ^^^
        te3 (wordOf4 (s (c + 3))) =
      wordOf4 (Fips197.mixColumns (Fips197.shiftRows (Fips197.subBytes s)) c) := by
  have hy (r : Fin 4) : sbox (s (c + r) r) = Fips197.shiftRows (Fips197.subBytes s) c r :=
    sbox_eq _
  have hy0 : sbox (s c 0) = Fips197.shiftRows (Fips197.subBytes s) c 0 := by
    rw [← hy 0, Fin.add_zero]
  rw [(te_getu32 _).1, (te_getu32 _).2.1, (te_getu32 _).2.2.1, (te_getu32 _).2.2.2, getu32_xor,
    getu32_xor, getu32_xor, hy0, hy 1, hy 2, hy 3, xor_rotate (Fips197.shiftRows _ c 0),
    xor_rotate (Fips197.shiftRows _ c 0), xor_rotate (Fips197.shiftRows _ c 1),
    ← xor_rotate (Fips197.mul 2 _)]
  rfl

/-- `rk` holds the words of `k` from `4 * i` on. -/
def HoldsKey (rk : ℕ → UInt32) (i : ℕ) (k : State) : Prop :=
  ∀ c : Fin 4, rk (4 * i + c) = wordOf4 (k c)

theorem vec4_congr {a b c d a' b' c' d' : UInt32} (h0 : a = a') (h1 : b = b') (h2 : c = c')
    (h3 : d = d') : #v[a, b, c, d] = #v[a', b', c', d'] := by
  rw [h0, h1, h2, h3]

theorem rijndaelRound_eq {rk : ℕ → UInt32} {i : ℕ} {k : State} (h : HoldsKey rk i k) (s : State) :
    rijndaelRound rk i (wordsOf s) =
      wordsOf (Fips197.addRoundKey k
        (Fips197.mixColumns (Fips197.shiftRows (Fips197.subBytes s)))) := by
  have hcol (c : Fin 4) :
      te0 (wordOf4 (s c)) ^^^ te1 (wordOf4 (s (c + 1))) ^^^ te2 (wordOf4 (s (c + 2))) ^^^
          te3 (wordOf4 (s (c + 3))) ^^^ rk (4 * i + c) =
        wordOf4 (Fips197.addRoundKey k
          (Fips197.mixColumns (Fips197.shiftRows (Fips197.subBytes s))) c) := by
    rw [te_column, h c, wordOf4_xor]
    rfl
  exact vec4_congr (hcol 0) (hcol 1) (hcol 2) (hcol 3)

/-! ## The loop -/

/-- The memory `rk` is the key schedule of `key` from round `m` on, up to round 10. -/
def HoldsSchedule (rk : ℕ → UInt32) (key : State) (m : ℕ) : Prop :=
  ∀ i, m + i ≤ 10 → HoldsKey rk i (Fips197.roundKey key (m + i))

theorem HoldsSchedule.advance {rk : ℕ → UInt32} {key : State} {m : ℕ}
    (h : HoldsSchedule rk key m) : HoldsSchedule (fun j => rk (j + 8)) key (m + 2) := by
  intro i hi c
  have hshift : 4 * i + c + 8 = 4 * (i + 2) + c := by omega
  have hround : m + 2 + i = m + (i + 2) := by omega
  show rk (4 * i + c + 8) = _
  rw [hshift, hround]
  exact h (i + 2) (by omega) c

/-- Each turn makes two rounds, the last one only the first of them. -/
theorem rijndaelLoop_eq {key : State} (input : State) (r : ℕ) {m : ℕ} {rk : ℕ → UInt32}
    (h : HoldsSchedule rk key m) (hm : m + 2 * (r + 1) ≤ 10) :
    HoldsSchedule (rijndaelLoop (r + 1) rk (wordsOf (Fips197.rounds key input m))).1 key
        (m + 2 * (r + 1)) ∧
      (rijndaelLoop (r + 1) rk (wordsOf (Fips197.rounds key input m))).2 =
        wordsOf (Fips197.rounds key input (m + 2 * r + 1)) := by
  induction r generalizing m rk with
  | zero =>
    unfold rijndaelLoop
    rw [if_pos rfl, rijndaelRound_eq (h 1 (by omega))]
    exact ⟨h.advance, rfl⟩
  | succ r ih =>
    have hadv := h.advance
    have hnext := ih hadv (by omega)
    unfold rijndaelLoop
    rw [if_neg (Nat.succ_ne_zero r), rijndaelRound_eq (h 1 (by omega)),
      rijndaelRound_eq (hadv 0 (by omega))]
    rw [show m + 2 * (r + 1 + 1) = m + 2 + 2 * (r + 1) by omega,
      show m + 2 * (r + 1) + 1 = m + 2 + 2 * r + 1 by omega]
    exact hnext

/-! ## The key schedule -/

theorem rconWord_eq {i : ℕ} (hi : i < 10) :
    rconWord i = getu32 (Fips197.rcon (i + 1) 0) 0 0 0 := by
  interval_cases i <;> decide

/-- The first word of the next four. -/
theorem keySetup_first {i : ℕ} (hi : i < 10) (k : State) :
    wordOf4 (k 0) ^^^ te421 (wordOf4 (k 3)) ^^^ te432 (wordOf4 (k 3)) ^^^ te443 (wordOf4 (k 3)) ^^^
        te414 (wordOf4 (k 3)) ^^^ rconWord i =
      wordOf4 (Fips197.nextRoundKey (i + 1) k 0) := by
  obtain ⟨-, -, -, -, h1, h2, h3, h0⟩ := te4_getu32 (k 3)
  have hsub (r : Fin 4) : Fips197.subWord (Fips197.rotWord (k 3)) r = sbox (k 3 (r + 1)) :=
    (sbox_eq _).symm
  have hrcon (r : Fin 3) : Fips197.rcon (i + 1) r.succ = 0 := if_neg (Fin.succ_ne_zero r)
  have hword (r : Fin 4) : Fips197.nextRoundKey (i + 1) k 0 r =
      k 0 r ^^^ (sbox (k 3 (r + 1)) ^^^ Fips197.rcon (i + 1) r) := by
    rw [← hsub]
    rfl
  rw [h0, h1, h2, h3, rconWord_eq hi]
  show getu32 _ _ _ _ ^^^ _ ^^^ _ ^^^ _ ^^^ _ ^^^ _ = getu32 _ _ _ _
  rw [hword 0, hword 1, hword 2, hword 3, getu32_xor, getu32_xor, getu32_xor, getu32_xor,
    getu32_xor, show Fips197.rcon (i + 1) 1 = 0 from hrcon 0,
    show Fips197.rcon (i + 1) 2 = 0 from hrcon 1, show Fips197.rcon (i + 1) 3 = 0 from hrcon 2]
  simp only [UInt8.xor_zero, UInt8.xor_assoc]
  rfl

/-- One turn of the loop. -/
theorem keySetupRound_holds {rk : ℕ → UInt32} {key : State} {i : ℕ} (hi : i < 10)
    (h : ∀ n ≤ i, HoldsKey rk n (Fips197.roundKey key n)) :
    ∀ n ≤ i + 1, HoldsKey (keySetupRound rk i) n (Fips197.roundKey key n) := by
  intro n hn c
  have hc := c.isLt
  rcases Nat.lt_or_ge n (i + 1) with hlt | hge
  · unfold keySetupRound
    rw [if_neg (by omega), if_neg (by omega), if_neg (by omega), if_neg (by omega)]
    exact h n (by omega) c
  · have hk := h i (Nat.le_refl i)
    have h0 : rk (4 * i) = wordOf4 (Fips197.roundKey key i 0) := hk 0
    have h1 : rk (4 * i + 1) = wordOf4 (Fips197.roundKey key i 1) := hk 1
    have h2 : rk (4 * i + 2) = wordOf4 (Fips197.roundKey key i 2) := hk 2
    have h3 : rk (4 * i + 3) = wordOf4 (Fips197.roundKey key i 3) := hk 3
    obtain rfl : n = i + 1 := by omega
    rw [Fips197.roundKey_succ]
    unfold keySetupRound
    simp only [h0, h1, h2, h3, keySetup_first hi, wordOf4_xor]
    match c with
    | 0 => exact if_pos rfl
    | 1 =>
      rw [if_neg (by show ¬ 4 * (i + 1) + 1 = _; omega)]
      exact if_pos rfl
    | 2 =>
      rw [if_neg (by show ¬ 4 * (i + 1) + 2 = _; omega),
        if_neg (by show ¬ 4 * (i + 1) + 2 = _; omega)]
      exact if_pos rfl
    | 3 =>
      rw [if_neg (by show ¬ 4 * (i + 1) + 3 = _; omega),
        if_neg (by show ¬ 4 * (i + 1) + 3 = _; omega),
        if_neg (by show ¬ 4 * (i + 1) + 3 = _; omega)]
      exact if_pos rfl

theorem getu32At_eq (b : Block) (c : Fin 4) : getu32At b c = wordOf4 (toState b c) := rfl

/-- The whole key schedule, whatever the memory held. -/
theorem rijndaelKeySetupEnc_eq (rk : ℕ → UInt32) (key : Block) :
    HoldsSchedule (rijndaelKeySetupEnc rk key) (toState key) 0 := by
  have hloop (i : ℕ) (hi : i ≤ 10) : ∀ n ≤ i,
      HoldsKey ((List.range i).foldl keySetupRound fun j =>
        if h : j < 4 then getu32At key ⟨j, h⟩ else rk j) n (Fips197.roundKey (toState key) n) := by
    induction i with
    | zero =>
      intro n hn c
      obtain rfl := Nat.le_zero.mp hn
      rw [Fips197.roundKey_zero, ← getu32At_eq]
      show (if h : 4 * 0 + c.val < 4 then _ else _) = _
      rw [dif_pos (by omega)]
      congr 1
      exact Fin.ext (by show 4 * 0 + c.val = c.val; omega)
    | succ i ih =>
      rw [List.range_succ, List.foldl_append]
      exact keySetupRound_holds (by omega) (ih (by omega))
  intro i hi
  rw [Nat.zero_add] at hi ⊢
  exact hloop 10 (Nat.le_refl 10) i hi

/-! ## The cipher -/

/-- A word of the last round. -/
theorem te4_column {rk : ℕ → UInt32} {k : State} (h : HoldsKey rk 0 k) (s : State) (c : Fin 4) :
    te41 (wordOf4 (s c)) ^^^ te42 (wordOf4 (s (c + 1))) ^^^ te43 (wordOf4 (s (c + 2))) ^^^
        te44 (wordOf4 (s (c + 3))) ^^^ rk c =
      wordOf4 (Fips197.addRoundKey k (Fips197.shiftRows (Fips197.subBytes s)) c) := by
  have hy (r : Fin 4) : sbox (s (c + r) r) = Fips197.shiftRows (Fips197.subBytes s) c r :=
    sbox_eq _
  have hy0 : sbox (s c 0) = Fips197.shiftRows (Fips197.subBytes s) c 0 := by
    rw [← hy 0, Fin.add_zero]
  have hrk : rk c = wordOf4 (k c) := by
    rw [← h c, Nat.mul_zero, Nat.zero_add]
  rw [(te4_getu32 _).1, (te4_getu32 _).2.1, (te4_getu32 _).2.2.1, (te4_getu32 _).2.2.2.1,
    getu32_xor, getu32_xor, getu32_xor, hrk, hy0, hy 1, hy 2, hy 3]
  simp only [UInt8.xor_zero, UInt8.zero_xor]
  exact wordOf4_xor _ _

theorem ofColumns_putu32 (s : State) :
    ofColumns (putu32 (wordOf4 (s 0))) (putu32 (wordOf4 (s 1))) (putu32 (wordOf4 (s 2)))
      (putu32 (wordOf4 (s 3))) = ofState s := by
  have hget (c : Fin 4) : (putu32 (wordOf4 (s c))).get = s c := by
    unfold wordOf4
    rw [putu32_getu32]
    funext r
    fin_cases r <;> rfl
  rw [← ofState_toState (ofColumns _ _ _ _), toState_ofColumns, hget, hget, hget, hget]
  congr 1
  funext c
  fin_cases c <;> rfl

theorem rijndaelFinal_eq {rk : ℕ → UInt32} {k : State} (h : HoldsKey rk 0 k) (s : State) :
    rijndaelFinal rk (wordsOf s) =
      ofState (Fips197.addRoundKey k (Fips197.shiftRows (Fips197.subBytes s))) := by
  have hcol := te4_column h s
  rw [← ofColumns_putu32, ← hcol 0, ← hcol 1, ← hcol 2, ← hcol 3]
  rfl

theorem rijndaelEncrypt_eq {rk : ℕ → UInt32} {key : State} (h : HoldsSchedule rk key 0)
    (pt : Block) : rijndaelEncrypt rk pt = ofState (Fips197.cipher key (toState pt)) := by
  have hk := h 0 (by omega)
  have hstart (c : Fin 4) : getu32At pt c ^^^ rk c =
      wordOf4 (Fips197.rounds key (toState pt) 0 c) := by
    have hrk : rk c = wordOf4 (Fips197.roundKey key 0 c) := by
      rw [← hk c, Nat.mul_zero, Nat.zero_add]
    rw [getu32At_eq, hrk, wordOf4_xor]
    rfl
  have hinit : (#v[getu32At pt 0 ^^^ rk 0, getu32At pt 1 ^^^ rk 1, getu32At pt 2 ^^^ rk 2,
      getu32At pt 3 ^^^ rk 3] : Vector UInt32 4) = wordsOf (Fips197.rounds key (toState pt) 0) :=
    vec4_congr (hstart 0) (hstart 1) (hstart 2) (hstart 3)
  obtain ⟨hend, ht⟩ := rijndaelLoop_eq (toState pt) 4 h (by omega)
  unfold rijndaelEncrypt
  rw [hinit]
  show rijndaelFinal (rijndaelLoop (4 + 1) rk _).1 (rijndaelLoop (4 + 1) rk _).2 = _
  rw [ht, rijndaelFinal_eq (hend 0 (by omega))]
  rfl

/-- Both implementations of AES are that of FIPS-197. -/
theorem aes_agree (key pt : Block) (rk : ℕ → UInt32) :
    aes128k128d key pt = rijndaelEncrypt (rijndaelKeySetupEnc rk key) pt ∧
      aes128k128d key pt = fips197Encrypt key pt := by
  rw [aes128k128d_eq, rijndaelEncrypt_eq (rijndaelKeySetupEnc_eq rk key)]
  exact ⟨rfl, rfl⟩

end Rtl8821au.Security
