import Rtl8821au.Lib.Checked
import Rtl8821au.Lib.OptionalTail
import Mathlib.Algebra.Group.Nat.Defs
import Mathlib.Data.Int.Notation

/-!
# The WPA and the RSN element

`rtw_parse_wpa_ie` and `rtw_parse_wpa2_ie` (`rtw_ieee80211.c`, lines 591–741) on the bytes of an
element, whose number is the length that is passed; a length that is not positive is the empty
list. A read behind them is a fault.

* `parse_eq`: a parser with its reads is a function of what follows the version.
* `parse_right_iff`: when nothing is read behind the element, what is encoded is returned, and
  counts that are too large are refused.

The two bytes of id and length and the four of the vendor are compared before it is known that
they are there. The number of AKM suites is passed over; the four bytes behind it are compared.
-/

namespace Rtl8821au.Mlme.WpaIe

open Checked OptionalTail

/-! ## Model of the C code -/

/-- What the two parsers differ in: the id, the bytes in front of the version, and the first three
    bytes of the suites. -/
structure Format where
  id : UInt8
  ouiType : List UInt8
  oui : List UInt8
  length_oui : oui.length = 3

/-- `_WPA_IE_ID_`, `RTW_WPA_OUI_TYPE` and the constants `WPA_CIPHER_SUITE_*`. -/
def wpa : Format where
  id := 0xdd
  ouiType := [0x00, 0x50, 0xf2, 1]
  oui := [0x00, 0x50, 0xf2]
  length_oui := rfl

/-- `_WPA2_IE_ID_` and the constants `RSN_CIPHER_SUITE_*`. -/
def rsn : Format where
  id := 0x30
  ouiType := []
  oui := [0x00, 0x0f, 0xac]
  length_oui := rfl

/-- A constant for a suite. -/
def Format.selector (fmt : Format) (type : UInt8) : List UInt8 := fmt.oui ++ [type]

/-- `rtw_get_wpa_cipher_suite` and `rtw_get_wpa2_cipher_suite` (lines 551–588): `WPA_CIPHER_NONE`,
    `_WEP40`, `_TKIP`, `_CCMP` and `_WEP104`, or 0. -/
def cipherSuite (fmt : Format) (s : List UInt8) : ℕ :=
  if s = fmt.selector 0 then 1
  else if s = fmt.selector 1 then 2
  else if s = fmt.selector 2 then 8
  else if s = fmt.selector 4 then 16
  else if s = fmt.selector 5 then 4
  else 0

/-- `RTW_GET_LE16`. -/
def readLe16 (ie : List UInt8) (pos : ℕ) : Except Fault ℕ := do
  let lo ← readByte ie pos
  let hi ← readByte ie (pos + 1)
  .ok (lo.toNat + 256 * hi.toNat)

/-- The result and what the pointers point to; `is_8021x` may be NULL. -/
structure Out where
  ret : Bool
  groupCipher : ℕ
  pairwiseCipher : ℕ
  is8021x : Option Bool
  deriving DecidableEq, Repr

/-- `return _FAIL`. -/
def Out.fail (o : Out) : Out := { o with ret := false }

section parser

variable (fmt : Format) (ie : List UInt8)

/-- The loop over the pairwise suites. -/
def pairwiseLoop : ℕ → ℕ → ℕ → Except Fault ℕ
  | 0, _, acc => .ok acc
  | count + 1, pos, acc => do
    let s ← readBytes ie pos 4
    pairwiseLoop count (pos + 4) (acc ||| cipherSuite fmt s)

/-- Lines 656–663 and 729–736. -/
def parse8021x (pos : ℕ) (left : ℤ) (o : Out) : Except Fault Out :=
  match o.is8021x with
  | none => .ok o
  | some _ =>
    if left ≥ 6 then do
      let s ← readBytes ie (pos + 2) 4
      if s = fmt.selector 1 then .ok { o with is8021x := some true } else .ok o
    else .ok o

/-- Lines 630–654 and 703–727. -/
def parsePairwise (pos : ℕ) (left : ℤ) (o : Out) : Except Fault Out :=
  if left ≥ 2 then do
    let count ← readLe16 ie pos
    if count = 0 ∨ left - 2 < count * 4 then .ok o.fail
    else do
      let pairwise ← pairwiseLoop fmt ie count (pos + 2) o.pairwiseCipher
      parse8021x fmt ie (pos + 2 + count * 4) (left - 2 - count * 4)
        { o with pairwiseCipher := pairwise }
  else if left = 1 then .ok o.fail
  else parse8021x fmt ie pos left o

/-- Lines 614–627 and 690–700. -/
def parseGroup (pos : ℕ) (left : ℤ) (o : Out) : Except Fault Out :=
  if left ≥ 4 then do
    let s ← readBytes ie pos 4
    parsePairwise fmt ie (pos + 4) (left - 4) { o with groupCipher := cipherSuite fmt s }
  else if left > 0 then .ok o.fail
  else parsePairwise fmt ie pos left o

/-- `(uint8_t)(wpa_ie_len - 2)`. -/
def lenByte : UInt8 := UInt8.ofInt ((ie.length : ℤ) - 2)

/-- Either parser. -/
def parse (o : Out) : Except Fault Out :=
  if ie = [] then .ok o.fail
  else do
    let id ← readByte ie 0
    if id ≠ fmt.id then .ok o.fail
    else do
      let len ← readByte ie 1
      if len ≠ lenByte ie then .ok o.fail
      else do
        let oui ← readBytes ie 2 fmt.ouiType.length
        if oui ≠ fmt.ouiType then .ok o.fail
        else parseGroup fmt ie (4 + fmt.ouiType.length) (ie.length - (4 + fmt.ouiType.length)) o

end parser

/-- `rtw_parse_wpa_ie` (lines 591–668). -/
def rtwParseWpaIe (ie : List UInt8) (o : Out) : Except Fault Out := parse wpa ie o

/-- `rtw_parse_wpa2_ie` (lines 670–741). -/
def rtwParseWpa2Ie (ie : List UInt8) (o : Out) : Except Fault Out := parse rsn ie o

/-- The variables of a caller, which are all 0, and whether it asks for `is_8021x`. -/
def start (asked : Bool) : Out where
  ret := true
  groupCipher := 0
  pairwiseCipher := 0
  is8021x := if asked then some false else none

/-! ## Elements -/

/-- A suite selector. -/
structure Suite where
  oui0 : UInt8
  oui1 : UInt8
  oui2 : UInt8
  type : UInt8
  deriving DecidableEq, Repr

def Suite.bytes (s : Suite) : List UInt8 := [s.oui0, s.oui1, s.oui2, s.type]

/-- `WPA_CIPHER_*` (`ieee80211.h`, lines 113–117) by the types of the suites. -/
def cipherBit (type : UInt8) : ℕ :=
  if type = 0 then 2 ^ 0
  else if type = 1 then 2 ^ 1
  else if type = 5 then 2 ^ 2
  else if type = 2 then 2 ^ 3
  else if type = 4 then 2 ^ 4
  else 0

/-- The cipher a suite stands for; a vendor's own stands for none. -/
def Suite.cipher (fmt : Format) (s : Suite) : ℕ :=
  if [s.oui0, s.oui1, s.oui2] = fmt.oui then cipherBit s.type else 0

/-- The suite is 802.1X. -/
def Suite.Is8021x (fmt : Format) (s : Suite) : Prop := s.bytes = fmt.selector 1

instance (fmt : Format) (s : Suite) : Decidable (s.Is8021x fmt) :=
  inferInstanceAs (Decidable (s.bytes = fmt.selector 1))

def le16 (n : ℕ) : List UInt8 := [UInt8.ofNat n, UInt8.ofNat (n / 256)]

/-- A list of suites behind its number. -/
def suiteList (ss : List Suite) : List UInt8 := le16 ss.length ++ (ss.map Suite.bytes).flatten

/-- An element with its id and length. -/
def elem (fmt : Format) (info : List UInt8) : List UInt8 :=
  fmt.id :: UInt8.ofNat (fmt.ouiType.length + info.length) :: (fmt.ouiType ++ info)

/-- What an element encodes; `tail` is what follows the AKM suites. -/
structure Contents where
  version : UInt8 × UInt8
  group : Suite
  pairwise : List Suite
  akm : List Suite
  tail : List UInt8
  pairwise_lt : pairwise.length < 65536
  akm_lt : akm.length < 65536

/-- The element in front of the lists. -/
def opening (fmt : Format) (version : UInt8 × UInt8) (group : Suite) (t : List UInt8) :
    List UInt8 :=
  elem fmt (version.1 :: version.2 :: (group.bytes ++ t))

def Contents.encode (fmt : Format) (c : Contents) : List UInt8 :=
  opening fmt c.version c.group (suiteList c.pairwise ++ (suiteList c.akm ++ c.tail))

/-- A number of suites, and fewer bytes than they take. -/
def TooMany (bs : List UInt8) : Prop := ∃ n rest, n < 65536 ∧ rest.length < n * 4 ∧
  bs = le16 n ++ rest

/-- The number of pairwise suites is too large. -/
def PairwiseOver (fmt : Format) (ie : List UInt8) : Prop :=
  ∃ version group bs, TooMany bs ∧ ie = opening fmt version group bs

/-- The number of AKM suites behind the pairwise suites `ps` is too large. -/
def AkmOver (fmt : Format) (ie : List UInt8) (ps : List Suite) : Prop :=
  ∃ version group bs, ps.length < 65536 ∧ TooMany bs ∧
    ie = opening fmt version group (suiteList ps ++ bs)

/-- The bitwise union of the ciphers. -/
def union (fmt : Format) (ss : List Suite) : ℕ := (ss.map (Suite.cipher fmt)).foldl (· ||| ·) 0

/-- The answer for an element. -/
def Contents.answer (fmt : Format) (c : Contents) (asked : Bool) : Out where
  ret := true
  groupCipher := c.group.cipher fmt
  pairwiseCipher := union fmt c.pairwise
  is8021x := if asked then some (c.akm.head?.any fun s => s.Is8021x fmt) else none

/-- A parser is sound and complete on an element. -/
structure Right (parser : List UInt8 → Out → Except Fault Out) (fmt : Format)
    (ie : List UInt8) : Prop where
  inside : ∀ asked, Fine (parser ie (start asked))
  decodes : ∀ c : Contents, ie = c.encode fmt →
    ∀ asked, parser ie (start asked) = .ok (c.answer fmt asked)
  rejects : (PairwiseOver fmt ie ∨ ∃ ps, AkmOver fmt ie ps) →
    ∀ asked, ∃ o, parser ie (start asked) = .ok o ∧ o.ret = false

/-- The element ends before the bytes that are compared first. -/
def CutHeader (fmt : Format) (ie : List UInt8) : Prop :=
  ie.head? = some fmt.id ∧
    (ie.length = 1 ∨ ie[1]? = some (lenByte ie) ∧ ie.length < 2 + fmt.ouiType.length)

/-- When the parser is. -/
structure Fits (fmt : Format) (ie : List UInt8) : Prop where
  header : ¬ CutHeader fmt ie
  pairwise : ∀ c : Contents, ie = c.encode fmt → c.pairwise ≠ []
  akm : ∀ c : Contents, ie = c.encode fmt → c.akm = [] → c.tail.take 4 ≠ fmt.selector 1
  akmFits : ∀ ps, AkmOver fmt ie ps → ps = []

/-! ## The parsers without their reads -/

section pure

variable (fmt : Format)

/-- The AKM suites. -/
def after8021x (rest : List UInt8) (o : Out) : Out :=
  { o with
    is8021x := o.is8021x.map fun b =>
      if 6 ≤ rest.length ∧ (rest.drop 2).take 4 = fmt.selector 1 then true else b }

/-- The pairwise suites and what follows. -/
def afterGroup (o : Out) : List UInt8 → Out
  | lo :: hi :: bs =>
    let count := lo.toNat + 256 * hi.toNat
    if count = 0 ∨ bs.length < count * 4 then o.fail
    else
      after8021x fmt (bs.drop (count * 4))
        { o with
          pairwiseCipher := ((words 4 count bs).map (cipherSuite fmt)).foldl (· ||| ·)
            o.pairwiseCipher }
  | [_] => o.fail
  | [] => after8021x fmt [] o

/-- What follows the version. -/
def afterVersion (rest : List UInt8) (o : Out) : Out :=
  if 4 ≤ rest.length then
    afterGroup fmt { o with groupCipher := cipherSuite fmt (rest.take 4) } (rest.drop 4)
  else if rest ≠ [] then o.fail
  else afterGroup fmt o []

end pure

section reads

variable {fmt : Format} {ie rest : List UInt8} {pos : ℕ} {left : ℤ}

theorem readBytes_cursor (hrest : ie.drop pos = rest) {k n : ℕ} (h : k + n ≤ rest.length) :
    readBytes ie (pos + k) n = .ok ((rest.drop k).take n) := by
  subst hrest
  exact readBytes_at h

theorem readLe16_cursor {lo hi : UInt8} {bs : List UInt8} (hrest : ie.drop pos = lo :: hi :: bs) :
    readLe16 ie pos = .ok (lo.toNat + 256 * hi.toNat) := by
  rw [readLe16, readByte_drop hrest, bind_ok, readByte_drop (drop_next hrest), bind_ok]

theorem drop_cursor (hrest : ie.drop pos = rest) (k : ℕ) : ie.drop (pos + k) = rest.drop k := by
  rw [← hrest, List.drop_drop]

theorem pairwiseLoop_eq (hrest : ie.drop pos = rest) {count : ℕ} (h : count * 4 ≤ rest.length)
    (acc : ℕ) :
    pairwiseLoop fmt ie count pos acc =
      .ok (((words 4 count rest).map (cipherSuite fmt)).foldl (· ||| ·) acc) := by
  induction count generalizing pos rest acc with
  | zero => rfl
  | succ count ih =>
    have hread := readBytes_cursor hrest (k := 0) (n := 4) (by omega)
    have hlen : count * 4 ≤ (rest.drop 4).length := by
      rw [List.length_drop]
      omega
    rw [pairwiseLoop]
    rw [Nat.add_zero, List.drop_zero] at hread
    rw [hread, bind_ok, ih (drop_cursor hrest 4) hlen]
    rfl

theorem parse8021x_eq (hrest : ie.drop pos = rest) (hleft : left.toNat = rest.length) (o : Out) :
    parse8021x fmt ie pos left o = .ok (after8021x fmt rest o) := by
  obtain ⟨ret, group, pairwise, is8021x⟩ := o
  unfold parse8021x after8021x
  cases is8021x with
  | none => rfl
  | some b =>
    dsimp only [Option.map_some]
    by_cases hlong : 6 ≤ rest.length
    · rw [if_pos (by omega), readBytes_cursor hrest (by omega), bind_ok]
      split
      case isTrue h => rw [if_pos ⟨hlong, h⟩]
      case isFalse h => rw [if_neg fun hc => h hc.2]
    · rw [if_neg (by omega), if_neg fun hc => hlong hc.1]

theorem parsePairwise_eq (hrest : ie.drop pos = rest) (hleft : left.toNat = rest.length)
    (o : Out) : parsePairwise fmt ie pos left o = .ok (afterGroup fmt o rest) := by
  unfold parsePairwise
  rcases rest with _ | ⟨lo, _ | ⟨hi, bs⟩⟩
  · simp only [List.length_nil] at hleft
    rw [if_neg (by omega), if_neg (by omega), parse8021x_eq hrest hleft]
    rfl
  · simp only [List.length_cons, List.length_nil] at hleft
    rw [if_neg (by omega), if_pos (by omega)]
    rfl
  · simp only [List.length_cons] at hleft
    rw [if_pos (by omega), readLe16_cursor hrest, bind_ok, afterGroup]
    generalize lo.toNat + 256 * hi.toNat = count
    have hbs : ie.drop (pos + 2) = bs := drop_cursor hrest 2
    by_cases hbad : count = 0 ∨ bs.length < count * 4
    · rw [if_pos (by omega), if_pos hbad]
    · have hfit : count * 4 ≤ bs.length := by omega
      rw [if_neg (by omega), if_neg hbad, pairwiseLoop_eq hbs hfit, bind_ok]
      apply parse8021x_eq (drop_cursor hbs _)
      rw [List.length_drop]
      omega

theorem parseGroup_eq (hrest : ie.drop pos = rest) (hleft : left.toNat = rest.length)
    (o : Out) : parseGroup fmt ie pos left o = .ok (afterVersion fmt rest o) := by
  unfold parseGroup afterVersion
  by_cases hlong : 4 ≤ rest.length
  · have hread := readBytes_cursor hrest (k := 0) (n := 4) (by omega)
    rw [Nat.add_zero, List.drop_zero] at hread
    rw [if_pos (by omega), if_pos hlong, hread, bind_ok]
    apply parsePairwise_eq (drop_cursor hrest 4)
    rw [List.length_drop]
    omega
  · rw [if_neg (by omega), if_neg hlong]
    cases rest with
    | nil =>
      simp only [List.length_nil] at hleft
      rw [if_neg (by omega), if_neg (by simp), parsePairwise_eq hrest hleft]
    | cons b bs =>
      simp only [List.length_cons] at hleft
      rw [if_pos (by omega), if_pos (by simp)]

end reads

/-! ## The header -/

section header

variable {fmt : Format} {ie : List UInt8}

/-- A parser once the header is compared. -/
theorem parseGroup_header (o : Out) :
    parseGroup fmt ie (4 + fmt.ouiType.length) (ie.length - (4 + fmt.ouiType.length)) o =
      .ok (afterVersion fmt (ie.drop (4 + fmt.ouiType.length)) o) := by
  apply parseGroup_eq rfl
  rw [List.length_drop]
  omega

theorem fine_parse_iff (o : Out) : Fine (parse fmt ie o) ↔ ¬ CutHeader fmt ie := by
  unfold parse CutHeader
  rcases ie with _ | ⟨id, ie⟩
  · simp
  · have hid : readByte (id :: ie) 0 = .ok id := readByte_of_lt (Nat.succ_pos _)
    rw [if_neg (by simp), hid, bind_ok]
    by_cases hne : id = fmt.id
    · subst hne
      rw [if_neg (by simp)]
      rcases ie with _ | ⟨len, ie⟩
      · rw [readByte_of_le (by simp), bind_error]
        simp
      · have hlen : readByte (fmt.id :: len :: ie) 1 = .ok len := readByte_of_lt (by simp)
        rw [hlen, bind_ok]
        by_cases hmatch : len = lenByte (fmt.id :: len :: ie)
        · rw [if_neg (by simpa using hmatch)]
          by_cases hin : Inside (fmt.id :: len :: ie) 2 fmt.ouiType.length
          · rw [readBytes_of_inside hin, bind_ok]
            refine iff_of_true ?_ ?_
            · split
              · exact fine_ok _
              · rw [parseGroup_header]
                exact fine_ok _
            · rw [Inside] at hin
              rintro ⟨-, h | ⟨-, h⟩⟩
              · simp at h
              · simp only [List.length_cons] at hin h
                omega
          · rw [readBytes_of_not_inside hin, bind_error]
            refine iff_of_false (not_fine_error _) ?_
            rw [not_not]
            rw [Inside] at hin
            exact ⟨rfl, .inr ⟨congrArg some hmatch, by omega⟩⟩
        · rw [if_pos hmatch]
          refine iff_of_true (fine_ok _) ?_
          rintro ⟨-, h | ⟨h, -⟩⟩
          · simp at h
          · exact hmatch (Option.some_inj.mp h)
    · rw [if_pos hne]
      refine iff_of_true (fine_ok _) fun h => hne ?_
      simpa using h.1

theorem lenByte_elem (info : List UInt8) :
    lenByte (elem fmt info) = UInt8.ofNat (fmt.ouiType.length + info.length) := by
  have hlen : ((elem fmt info).length : ℤ) - 2 = (fmt.ouiType.length + info.length : ℕ) := by
    simp only [elem, List.length_cons, List.length_append]
    omega
  have hmod : ((fmt.ouiType.length + info.length : ℕ) : ℤ) % 2 ^ 8 =
      ((fmt.ouiType.length + info.length) % 2 ^ 8 : ℕ) := by omega
  rw [lenByte, hlen, UInt8.ofInt, hmod, Int.toNat_natCast]
  apply UInt8.toNat.inj
  rw [UInt8.toNat_ofNat', UInt8.toNat_ofNat', Nat.mod_mod]

/-- A parser on an element with a version. -/
theorem parse_eq (v₀ v₁ : UInt8) (rest : List UInt8) (o : Out) :
    parse fmt (elem fmt (v₀ :: v₁ :: rest)) o = .ok (afterVersion fmt rest o) := by
  have hcons : elem fmt (v₀ :: v₁ :: rest) ≠ [] := List.cons_ne_nil _ _
  have hid : readByte (elem fmt (v₀ :: v₁ :: rest)) 0 = .ok fmt.id :=
    readByte_of_lt (Nat.succ_pos _)
  have hlen : readByte (elem fmt (v₀ :: v₁ :: rest)) 1 =
      .ok (lenByte (elem fmt (v₀ :: v₁ :: rest))) := by
    rw [lenByte_elem]
    exact readByte_of_lt (Nat.succ_lt_succ (Nat.succ_pos _))
  have houi : readBytes (elem fmt (v₀ :: v₁ :: rest)) 2 fmt.ouiType.length = .ok fmt.ouiType :=
    readBytes_middle [_, _] fmt.ouiType (v₀ :: v₁ :: rest)
  have hdrop : (elem fmt (v₀ :: v₁ :: rest)).drop (4 + fmt.ouiType.length) = rest := by
    rw [show 4 + fmt.ouiType.length = fmt.ouiType.length + 2 + 2 by omega]
    show (fmt.ouiType ++ v₀ :: v₁ :: rest).drop (fmt.ouiType.length + 2) = rest
    rw [List.drop_append]
    simp
  unfold parse
  rw [if_neg hcons, hid, bind_ok, if_neg (not_not.mpr rfl), hlen, bind_ok, if_neg (not_not.mpr rfl),
    houi, bind_ok, if_neg (not_not.mpr rfl), parseGroup_header, hdrop]

end header

/-! ## Suites and their numbers -/

section suites

variable {fmt : Format}

theorem cipherSuite_bytes (fmt : Format) (s : Suite) :
    cipherSuite fmt s.bytes = s.cipher fmt := by
  have hiff : ∀ t, s.bytes = fmt.selector t ↔ [s.oui0, s.oui1, s.oui2] = fmt.oui ∧ s.type = t := by
    intro t
    show [s.oui0, s.oui1, s.oui2] ++ [s.type] = fmt.oui ++ [t] ↔ _
    constructor
    · intro h
      obtain ⟨h₁, h₂⟩ := List.append_inj' h rfl
      exact ⟨h₁, (List.cons.inj h₂).1⟩
    · rintro ⟨h₁, h₂⟩
      rw [h₁, h₂]
  unfold cipherSuite Suite.cipher cipherBit
  simp only [hiff]
  by_cases houi : [s.oui0, s.oui1, s.oui2] = fmt.oui
  · simp only [houi, true_and, if_true]
    split_ifs <;> simp_all
  · simp only [houi, false_and, if_false]

theorem length_bytes {ss : List Suite} {b : List UInt8} (hb : b ∈ ss.map Suite.bytes) :
    b.length = 4 := by
  obtain ⟨s, -, rfl⟩ := List.mem_map.mp hb
  rfl

theorem toNat_le16 {n : ℕ} (h : n < 65536) :
    (UInt8.ofNat n).toNat + 256 * (UInt8.ofNat (n / 256)).toNat = n := by
  rw [UInt8.toNat_ofNat', UInt8.toNat_ofNat']
  omega

theorem afterVersion_group (fmt : Format) (group : Suite) (t : List UInt8) (o : Out) :
    afterVersion fmt (group.bytes ++ t) o =
      afterGroup fmt { o with groupCipher := group.cipher fmt } t := by
  have hlong : 4 ≤ (group.bytes ++ t).length := by
    rw [List.length_append]
    exact Nat.le_add_right 4 _
  rw [afterVersion, if_pos hlong, ← cipherSuite_bytes]
  rfl

/-- A number of suites that is too large, or zero. -/
theorem afterGroup_fail {n : ℕ} (hn : n < 65536) {rest : List UInt8}
    (h : n = 0 ∨ rest.length < n * 4) (o : Out) :
    afterGroup fmt o (le16 n ++ rest) = o.fail := by
  show afterGroup fmt o (UInt8.ofNat n :: UInt8.ofNat (n / 256) :: rest) = o.fail
  rw [afterGroup, toNat_le16 hn, if_pos h]

theorem afterGroup_suites {ss : List Suite} (hlt : ss.length < 65536) (hne : ss ≠ [])
    (t : List UInt8) (o : Out) :
    afterGroup fmt o (suiteList ss ++ t) =
      after8021x fmt t
        { o with pairwiseCipher := (ss.map (Suite.cipher fmt)).foldl (· ||| ·) o.pairwiseCipher } := by
  have hlen : ((ss.map Suite.bytes).flatten).length = ss.length * 4 := by
    rw [length_flatten_words fun _ => length_bytes, List.length_map]
  have hwords : words 4 ss.length ((ss.map Suite.bytes).flatten ++ t) = ss.map Suite.bytes := by
    have hall : ∀ b ∈ ss.map Suite.bytes, b.length = 4 := fun _ => length_bytes
    have h := words_flatten hall t
    rwa [List.length_map] at h
  have hpos : ss.length ≠ 0 := fun h => hne (List.length_eq_zero_iff.mp h)
  rw [suiteList, List.append_assoc]
  show afterGroup fmt o (UInt8.ofNat ss.length :: UInt8.ofNat (ss.length / 256) ::
    ((ss.map Suite.bytes).flatten ++ t)) = _
  rw [afterGroup, toNat_le16 hlt, if_neg (by rw [List.length_append, hlen]; omega), hwords, List.map_map,
    ← hlen, List.drop_left]
  congr 3
  exact List.map_congr_left fun s _ => cipherSuite_bytes fmt s

end suites

/-! ## When the parsers are right -/

section right

variable {fmt : Format} {ie : List UInt8}

theorem parse_opening (version : UInt8 × UInt8) (group : Suite) (t : List UInt8) (o : Out) :
    parse fmt (opening fmt version group t) o =
      .ok (afterGroup fmt { o with groupCipher := group.cipher fmt } t) := by
  rw [opening, parse_eq, afterVersion_group]

/-- The first AKM suite. -/
theorem after8021x_cons (s : Suite) (ss : List Suite) (t : List UInt8) (o : Out) :
    after8021x fmt (suiteList (s :: ss) ++ t) o =
      { o with is8021x := o.is8021x.map fun b => if s.Is8021x fmt then true else b } := by
  have hlong : 6 ≤ (suiteList (s :: ss) ++ t).length := by
    have hsome : 6 ≤ (suiteList (s :: ss)).length := Nat.le_add_left 6 _
    rw [List.length_append]
    omega
  have hfirst : ((suiteList (s :: ss) ++ t).drop 2).take 4 = s.bytes := rfl
  rw [after8021x, hfirst]
  simp only [hlong, true_and]
  rfl

/-- The bytes that are taken for it where there is none. -/
theorem after8021x_nil (t : List UInt8) (o : Out) :
    after8021x fmt (suiteList [] ++ t) o =
      { o with is8021x := o.is8021x.map fun b => if t.take 4 = fmt.selector 1 then true else b } := by
  have hlen : (suiteList [] ++ t).length = 2 + t.length := List.length_append
  have hdrop : (suiteList [] ++ t).drop 2 = t := rfl
  have hsel : (fmt.selector 1).length = 4 := by
    rw [Format.selector, List.length_append, fmt.length_oui]
    rfl
  have hiff : 6 ≤ 2 + t.length ∧ t.take 4 = fmt.selector 1 ↔ t.take 4 = fmt.selector 1 := by
    refine ⟨And.right, fun h => ⟨?_, h⟩⟩
    have hlen4 := congrArg List.length h
    rw [List.length_take, hsel] at hlen4
    omega
  rw [after8021x, hlen, hdrop]
  simp only [hiff]

theorem parse_encode (c : Contents) (hne : c.pairwise ≠ []) (asked : Bool) :
    parse fmt (c.encode fmt) (start asked) =
      .ok (after8021x fmt (suiteList c.akm ++ c.tail)
        { c.answer fmt asked with is8021x := (start asked).is8021x }) := by
  rw [Contents.encode, parse_opening, afterGroup_suites c.pairwise_lt hne]
  rfl

theorem decodes_iff (c : Contents) (hne : c.pairwise ≠ []) :
    (∀ asked, parse fmt (c.encode fmt) (start asked) = .ok (c.answer fmt asked)) ↔
      (c.akm = [] → c.tail.take 4 ≠ fmt.selector 1) := by
  constructor
  · intro h hakm htail
    have hasked := Except.ok.inj ((parse_encode c hne true).symm.trans (h true))
    rw [hakm, after8021x_nil] at hasked
    have hanswer := congrArg Out.is8021x hasked
    simp [start, Contents.answer, hakm, htail] at hanswer
  · intro h asked
    rw [parse_encode c hne]
    cases hakm : c.akm with
    | nil =>
      rw [after8021x_nil]
      cases asked <;> simp [start, Contents.answer, hakm, h hakm]
    | cons s ss =>
      rw [after8021x_cons]
      cases asked <;> simp [start, Contents.answer, hakm]

theorem parse_tooMany {bs : List UInt8} (h : TooMany bs) (version : UInt8 × UInt8) (group : Suite)
    (asked : Bool) :
    ∃ o, parse fmt (opening fmt version group bs) (start asked) = .ok o ∧ o.ret = false := by
  obtain ⟨n, rest, hn, hlt, rfl⟩ := h
  exact ⟨_, parse_opening .., congrArg Out.ret (afterGroup_fail hn (.inr hlt) _)⟩

/-- A number of zero is refused. -/
theorem parse_noPairwise (fmt : Format) (version : UInt8 × UInt8) (group : Suite) (t : List UInt8)
    (asked : Bool) :
    ∃ o, parse fmt (opening fmt version group (suiteList [] ++ t)) (start asked) = .ok o ∧
      o.ret = false :=
  ⟨_, parse_opening .., congrArg Out.ret (afterGroup_fail (Nat.succ_pos _) (.inl rfl) _)⟩

/-- The number of the AKM suites is accepted. -/
theorem parse_akm {ps : List Suite} (hlt : ps.length < 65536) (hne : ps ≠ [])
    (version : UInt8 × UInt8) (group : Suite) (t : List UInt8) (asked : Bool) :
    ∃ o, parse fmt (opening fmt version group (suiteList ps ++ t)) (start asked) = .ok o ∧
      o.ret = true :=
  ⟨_, parse_opening .., congrArg Out.ret (afterGroup_suites hlt hne t _)⟩

theorem right_iff (fmt : Format) (ie : List UInt8) : Right (parse fmt) fmt ie ↔ Fits fmt ie := by
  constructor
  · intro h
    have hpairwise : ∀ c : Contents, ie = c.encode fmt → c.pairwise ≠ [] := by
      intro c hc hnil
      obtain ⟨o, ho, hret⟩ := parse_noPairwise fmt c.version c.group
        (suiteList c.akm ++ c.tail) false
      rw [← hnil] at ho
      have hok := h.decodes c hc false
      rw [hc, Contents.encode, ho] at hok
      rw [Except.ok.inj hok] at hret
      cases hret
    refine ⟨(fine_parse_iff _).mp (h.inside false), hpairwise, ?_, ?_⟩
    · intro c hc
      apply (decodes_iff c (hpairwise c hc)).mp
      rw [← hc]
      exact h.decodes c hc
    · intro ps hover
      by_contra hne
      obtain ⟨o, ho, hret⟩ := h.rejects (.inr ⟨ps, hover⟩) false
      obtain ⟨version, group, bs, hlt, -, hie⟩ := hover
      obtain ⟨o', ho', hret'⟩ := parse_akm hlt hne version group bs false
      rw [hie, ho'] at ho
      rw [← Except.ok.inj ho, hret'] at hret
      cases hret
  · intro h
    refine ⟨fun asked => (fine_parse_iff _).mpr h.header, ?_, ?_⟩
    · intro c hc
      rw [hc]
      exact (decodes_iff c (h.pairwise c hc)).mpr (h.akm c hc)
    · rintro (⟨version, group, bs, hmany, hie⟩ | ⟨ps, hover⟩) asked
      · rw [hie]
        exact parse_tooMany hmany version group asked
      · obtain rfl := h.akmFits ps hover
        obtain ⟨version, group, bs, -, -, hie⟩ := hover
        rw [hie]
        exact parse_noPairwise fmt version group bs asked

end right

/-- The bytes of an element decide whether its parser is right about it. -/
theorem parse_right_iff (ie : List UInt8) :
    (Right rtwParseWpaIe wpa ie ↔ Fits wpa ie) ∧ (Right rtwParseWpa2Ie rsn ie ↔ Fits rsn ie) :=
  ⟨right_iff wpa ie, right_iff rsn ie⟩

/-- The element `dd 02 00 50` is read up to its sixth byte. -/
theorem short_wpa_reads_beyond : ¬ Right rtwParseWpaIe wpa [0xdd, 0x02, 0x00, 0x50] := by
  intro h
  obtain ⟨o, ho⟩ := h.inside true
  cases ho

end Rtl8821au.Mlme.WpaIe
