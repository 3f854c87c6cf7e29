import Mathlib.Data.List.Basic
import Mathlib.Data.List.Range
import Mathlib.Logic.Function.Basic
import Mathlib.Tactic.SplitIfs

/-!
# The two efuse readers

The efuse is a log of packets: a header of one or two bytes names a section of the logical map
and the words of it that follow, lowest word first. `read_efuse` decodes the whole log,
`efuse_pg_packet_read` one section of it (`efuse.c`).

* `readEfuse_log`, `pgPacketRead_log`: what either makes of a log that ends inside the efuse.
* `readers_agree_iff`: when they agree on a section.
* `readers_agree_of_initial`: they do where packets hold the first words of their section.

`efuse_pg_packet_read` stores the words of a packet from index 0 of `tmpdata` on and takes word
`i` of the section from index `i`, and it passes over packets that hold only `0xFF`.
-/

namespace Rtl8821au.Efuse

/-! ## Model of the C code -/

/-- What `efuse_OneByteRead` answers (`usb.c`, lines 2122–2160): the efuse at the first 512
    addresses, anything behind them. -/
abbrev Content := ℕ → UInt8

/-- `EFUSE_REAL_CONTENT_LEN_JAGUAR`. -/
def realContentLen : ℕ := 512

/-- `EFUSE_MAX_SECTION_JAGUAR`. -/
def maxSection : ℕ := 64

/-- `EFUSE_MAP_LEN_JAGUAR`. -/
def mapLen : ℕ := 512

/-- `EXT_HEADER`. -/
def extHeader (header : UInt8) : Bool := header &&& 0x1F == 0x0F

/-- `ALL_WORDS_DISABLED`. -/
def allWordsDisabled (wde : UInt8) : Bool := wde &&& 0x0F == 0x0F

/-- `!(word_en & BIT(i))`: zero enables the word. -/
def wordEnabled (wordEn : UInt8) (i : ℕ) : Bool := wordEn &&& ((1 : UInt8) <<< UInt8.ofNat i) == 0

/-- `Efuse_CalculateWordCnts` (lines 410–418). -/
def calculateWordCnts (wordEn : UInt8) : ℕ :=
  (if wordEnabled wordEn 0 then 1 else 0) + (if wordEnabled wordEn 1 then 1 else 0) +
    (if wordEnabled wordEn 2 then 1 else 0) + (if wordEnabled wordEn 3 then 1 else 0)

/-- The section of an extended header. -/
def extOffset (header ext : UInt8) : UInt8 := ((ext &&& 0xF0) >>> 1) ||| ((header &&& 0xE0) >>> 5)

/-! ### `read_efuse` -/

/-- The loop over the words of a section (lines 223–244). -/
def readWords (m : Content) (wden : UInt8) : List ℕ → ℕ → (ℕ → UInt16) → ℕ × (ℕ → UInt16)
  | [], addr, w => (addr, w)
  | i :: is, addr, w =>
    if wordEnabled wden i then
      let w := Function.update w i (m addr).toUInt16
      if ¬ addr + 1 < realContentLen then (addr + 1, w)
      else
        let w := Function.update w i (w i ||| ((m (addr + 1)).toUInt16 <<< 8 &&& 0xFF00))
        if ¬ addr + 2 < realContentLen then (addr + 2, w)
        else readWords m wden is (addr + 2) w
    else readWords m wden is addr w

/-- Lines 219–245. The data of a section that is out of range is not passed over. -/
def readSection (m : Content) (offset wden : UInt8) (addr : ℕ) (w : ℕ → ℕ → UInt16) :
    ℕ × (ℕ → ℕ → UInt16) :=
  if offset.toNat < maxSection then
    let r := readWords m wden (List.range 4) addr (w offset.toNat)
    (r.1, Function.update w offset.toNat r.2)
  else (addr, w)

/-- The `while` loop (lines 190–254) for at most `fuel` iterations. -/
def readLoop (m : Content) : ℕ → UInt8 → ℕ → (ℕ → ℕ → UInt16) → ℕ × (ℕ → ℕ → UInt16)
  | 0, _, addr, w => (addr, w)
  | fuel + 1, header, addr, w =>
    if header ≠ 0xFF ∧ addr < realContentLen then
      if extHeader header then
        let ext := m addr
        if ext = 0xFF then (addr + 1, w)
        else if allWordsDisabled ext then (addr + 2, w)
        else
          let r := readSection m (extOffset header ext) (ext &&& 0x0F) (addr + 1) w
          readLoop m fuel (m r.1) (r.1 + 1) r.2
      else
        let r := readSection m ((header >>> 4) &&& 0x0F) (header &&& 0x0F) addr w
        readLoop m fuel (m r.1) (r.1 + 1) r.2
    else (addr, w)

/-- `efuseTbl` (lines 259–264). -/
def efuseTbl (w : ℕ → ℕ → UInt16) (k : ℕ) : UInt8 :=
  if k % 2 = 0 then (w (k / 8) (k % 8 / 2) &&& 0xFF).toUInt8
  else ((w (k / 8) (k % 8 / 2) >>> 8) &&& 0xFF).toUInt8

/-- `read_efuse` (lines 128–287), with its buffers allocated: the contents of `pbuf` and what
    `HW_VAR_EFUSE_BYTES` is set to. -/
def readEfuse (m : Content) (offset sizeByte : ℕ) (pbuf : ℕ → UInt8) :
    (ℕ → UInt8) × Option ℕ :=
  if mapLen < offset + sizeByte then (pbuf, none)
  else if m 0 = 0xFF then (pbuf, none)
  else
    let r := readLoop m realContentLen (m 0) 1 fun _ _ => 0xFFFF
    (fun i => if i < sizeByte then efuseTbl r.2 (offset + i) else pbuf i, some r.1)

/-! ### `efuse_pg_packet_read` -/

/-- `efuse_WordEnableDataRead` (lines 462–485). -/
def wordEnableDataRead (wordEn : UInt8) (sourdata targetdata : ℕ → UInt8) : ℕ → UInt8 := fun k =>
  if k < 8 ∧ wordEnabled wordEn (k / 2) then sourdata k else targetdata k

/-- `PG_STATE_HEADER` and `PG_STATE_DATA`. -/
inductive PgState where
  | header
  | data
  deriving DecidableEq, Repr

/-- The variables of `efuse_pg_packet_read`. -/
structure PgRead where
  readState : PgState
  bContinual : Bool
  efuseAddr : ℕ
  hworden : UInt8
  wordCnts : ℕ
  tmpdata : ℕ → UInt8
  data : ℕ → UInt8

/-- A header is read and `efuse_addr` is at its last byte (lines 537–562). -/
def PgRead.packet (m : Content) (offset hoffset hworden : UInt8) (addr : ℕ) (s : PgRead) : PgRead :=
  let wordCnts := calculateWordCnts hworden
  if hoffset = offset then
    let tmpdata : ℕ → UInt8 := fun k => if k < wordCnts * 2 then m (addr + 1 + k) else s.tmpdata k
    let bDataEmpty := (List.range (wordCnts * 2)).all fun k => m (addr + 1 + k) == 0xFF
    if bDataEmpty then
      { s with hworden, wordCnts, tmpdata, efuseAddr := addr + wordCnts * 2 + 1 }
    else { s with hworden, wordCnts, tmpdata, efuseAddr := addr, readState := .data }
  else { s with hworden, wordCnts, efuseAddr := addr + wordCnts * 2 + 1 }

/-- The body of the `while` loop (lines 518–573); after the `break` `bContinual` is false. -/
def PgRead.step (m : Content) (offset : UInt8) (s : PgRead) : PgRead :=
  match s.readState with
  | .header =>
    let header := m s.efuseAddr
    if header ≠ 0xFF then
      if extHeader header then
        let ext := m (s.efuseAddr + 1)
        if !allWordsDisabled ext then
          s.packet m offset (extOffset header ext) (ext &&& 0x0F) (s.efuseAddr + 1)
        else { s with efuseAddr := s.efuseAddr + 2, bContinual := false }
      else s.packet m offset ((header >>> 4) &&& 0x0F) (header &&& 0x0F) s.efuseAddr
    else { s with bContinual := false }
  | .data =>
    { s with
      data := wordEnableDataRead s.hworden s.tmpdata s.data
      efuseAddr := s.efuseAddr + s.wordCnts * 2 + 1
      readState := .header }

/-- The `while` loop for at most `fuel` iterations. -/
def pgReadLoop (m : Content) (offset : UInt8) : ℕ → PgRead → PgRead
  | 0, s => s
  | fuel + 1, s =>
    if s.bContinual ∧ s.efuseAddr < realContentLen then pgReadLoop m offset fuel (s.step m offset)
    else s

/-- `efuse_pg_packet_read` (lines 487–582): the contents of `data` and the result. -/
def pgPacketRead (m : Content) (offset : UInt8) (data : ℕ → UInt8) : (ℕ → UInt8) × Bool :=
  if maxSection < offset.toNat then (data, false)
  else
    let s := pgReadLoop m offset (2 * realContentLen + 1)
      { readState := .header, bContinual := true, efuseAddr := 0, hworden := 0, wordCnts := 0
        tmpdata := fun _ => 0xFF, data := fun k => if k < 8 then 0xFF else data k }
    (s.data, !(List.range 8).all fun k => s.data k == 0xFF)

/-! ## The log -/

/-- A header, and where its data is. -/
structure Packet where
  sect : UInt8
  worden : UInt8
  addr : ℕ
  deriving DecidableEq, Repr

/-- Where the next header is. -/
def Packet.next (p : Packet) : ℕ := p.addr + 2 * calculateWordCnts p.worden

/-- The packet at an address, if its header is complete. -/
def packetAt (m : Content) (a : ℕ) : Option Packet :=
  if m a = 0xFF then none
  else if extHeader (m a) then
    if a + 1 < realContentLen ∧ allWordsDisabled (m (a + 1)) = false then
      some ⟨extOffset (m a) (m (a + 1)), m (a + 1) &&& 0x0F, a + 2⟩
    else none
  else some ⟨(m a >>> 4) &&& 0x0F, m a &&& 0x0F, a + 1⟩

/-- The packets from an address on: their data is inside the efuse and their sections are in the
    map. -/
inductive Log (m : Content) : ℕ → List Packet → Prop
  | full : Log m realContentLen []
  | stop {a : ℕ} (ha : a < realContentLen) (h : packetAt m a = none) : Log m a []
  | packet {a : ℕ} {p : Packet} {ps : List Packet} (ha : a < realContentLen)
      (h : packetAt m a = some p) (hsect : p.sect.toNat < maxSection)
      (hfit : p.next ≤ realContentLen) (rest : Log m p.next ps) : Log m a (p :: ps)

/-- The two bytes of a word. -/
abbrev Word := UInt8 × UInt8

/-- A word that was not written. -/
def blankWord : Word := (0xFF, 0xFF)

/-- The words of a packet with their numbers. -/
def entriesFrom (m : Content) (wden : UInt8) : List ℕ → ℕ → List (ℕ × Word)
  | [], _ => []
  | i :: is, a =>
    if wordEnabled wden i then (i, (m a, m (a + 1))) :: entriesFrom m wden is (a + 2)
    else entriesFrom m wden is a

def Packet.entries (m : Content) (p : Packet) : List (ℕ × Word) :=
  entriesFrom m p.worden (List.range 4) p.addr

/-- The packets of a section, the latest first. -/
def history (m : Content) (s : UInt8) (ps : List Packet) : List (List (ℕ × Word)) :=
  ((ps.filter (·.sect == s)).map (·.entries m)).reverse

/-- What was written last to a word. -/
def latest : List (List (ℕ × Word)) → ℕ → Word
  | [], _ => blankWord
  | es :: older, i => (es.lookup i).getD (latest older i)

/-! ## The condition -/

/-- The word at index `r` when the packets are laid over each other from index 0 on. -/
def overlaid : List (List (ℕ × Word)) → ℕ → Word
  | [], _ => blankWord
  | es :: older, r => (es[r]?.map Prod.snd).getD (overlaid older r)

/-- A packet that holds only `0xFF`. -/
def IsBlank (es : List (ℕ × Word)) : Prop := ∀ e ∈ es, e.2 = blankWord

instance (es : List (ℕ × Word)) : Decidable (IsBlank es) :=
  inferInstanceAs (Decidable (∀ e ∈ es, e.2 = blankWord))

/-- No packet with the word is to be seen behind a blank one. -/
def HiddenOk (i : ℕ) : List (List (ℕ × Word)) → Prop
  | [] => True
  | es :: older =>
    if IsBlank es ∨ es.lookup i = none then HiddenOk i older
    else overlaid (es :: older) i = blankWord

/-- The latest packet with the word has it at its own index in the overlay, or is blank and hides
    none. -/
def WordOk (i : ℕ) : List (List (ℕ × Word)) → Prop
  | [] => True
  | es :: older =>
    match es.lookup i with
    | none => WordOk i older
    | some word =>
      if IsBlank es then HiddenOk i older else overlaid (es :: older) i = word

/-- The eight bytes of a section are the same in the map of `read_efuse` and in the answer of
    `efuse_pg_packet_read`. -/
def Agree (m : Content) (s : UInt8) (pbuf data : ℕ → UInt8) : Prop :=
  ∀ k < 8, (readEfuse m 0 mapLen pbuf).1 (8 * s.toNat + k) = (pgPacketRead m s data).1 k

/-! ## Words and bytes -/

/-- A byte of a word by its place in the section. -/
def Word.byte (w : Word) (k : ℕ) : UInt8 := if k % 2 = 0 then w.1 else w.2

/-- A word as `read_efuse` keeps it. -/
def Word.toU16 (w : Word) : UInt16 := w.1.toUInt16 ||| (w.2.toUInt16 <<< 8 &&& 0xFF00)

theorem Word.toU16_low (w : Word) : (w.toU16 &&& 0xFF).toUInt8 = w.1 := by
  have hmask : ∀ j : Fin 8, (255#8)[j.1] = true := by decide
  apply UInt8.toBitVec_inj.mp
  ext i hi
  simp [Word.toU16, hmask ⟨i, hi⟩]

theorem Word.toU16_high (w : Word) : ((w.toU16 >>> 8) &&& 0xFF).toUInt8 = w.2 := by
  have hmask : ∀ j : Fin 8, (255#8)[j.1] = true := by decide
  have hhigh : ∀ j : Fin 8, (65280#16)[8 + j.1] = true := by decide
  apply UInt8.toBitVec_inj.mp
  ext i hi
  have hbit : w.2.toBitVec.getLsbD i = w.2.toBitVec[i] := BitVec.getLsbD_eq_getElem hi
  have h1 : 8 + i < 16 := by omega
  have h2 : i < 16 := by omega
  have h3 : ¬ 8 + i < 8 := by omega
  simp [Word.toU16, hmask ⟨i, hi⟩, hhigh ⟨i, hi⟩, hbit, h1, h2, h3]

/-! ## The loops end -/

section ends

variable {m : Content}

theorem le_readWords (wden : UInt8) (is : List ℕ) (addr : ℕ) (w : ℕ → UInt16) :
    addr ≤ (readWords m wden is addr w).1 := by
  induction is generalizing addr w with
  | nil => exact le_rfl
  | cons i is ih =>
    rw [readWords]
    dsimp only
    have h1 := ih addr w
    have h2 := ih (addr + 2)
    split_ifs
    · exact (Nat.le_add_right _ _).trans (h2 _)
    · exact Nat.le_add_right _ _
    · exact Nat.le_succ _
    · exact h1

theorem le_readSection (offset wden : UInt8) (addr : ℕ) (w : ℕ → ℕ → UInt16) :
    addr ≤ (readSection m offset wden addr w).1 := by
  rw [readSection]
  split_ifs
  · exact le_readWords _ _ _ _
  · exact le_rfl

/-- More fuel than addresses changes nothing. -/
theorem readLoop_fuel {fuel fuel' : ℕ} (header : UInt8) (addr : ℕ) (w : ℕ → ℕ → UInt16)
    (h : realContentLen ≤ fuel + addr) (h' : realContentLen ≤ fuel' + addr) :
    readLoop m fuel header addr w = readLoop m fuel' header addr w := by
  induction fuel generalizing fuel' header addr w with
  | zero =>
    cases fuel' with
    | zero => rfl
    | succ fuel' => rw [readLoop, readLoop, if_neg fun hc => absurd hc.2 (by omega)]
  | succ fuel ih =>
    cases fuel' with
    | zero => rw [readLoop, readLoop, if_neg fun hc => absurd hc.2 (by omega)]
    | succ fuel' =>
      have hext := le_readSection (m := m) (extOffset header (m addr)) (m addr &&& 0x0F) (addr + 1) w
      have hone := le_readSection (m := m) ((header >>> 4) &&& 0x0F) (header &&& 0x0F) addr w
      rw [readLoop, readLoop]
      simp only
      rw [@ih fuel' _ _ _ (by omega) (by omega), @ih fuel' _ _ _ (by omega) (by omega)]

end ends

/-! ## The words of a packet -/

section entries

variable {m : Content} {wden : UInt8}

theorem entriesFrom_getElem? (is : List ℕ) (a r : ℕ) :
    (entriesFrom m wden is a)[r]?.map Prod.snd =
      if r < (entriesFrom m wden is a).length then some (m (a + 2 * r), m (a + 2 * r + 1))
      else none := by
  induction is generalizing a r with
  | nil => rfl
  | cons i is ih =>
    rw [entriesFrom]
    split_ifs with hen hr
    · cases r with
      | zero => rfl
      | succ r =>
        rw [List.length_cons] at hr
        rw [List.getElem?_cons_succ, ih, if_pos (by omega)]
        congr 3 <;> omega
    · rw [List.getElem?_eq_none (by omega)]
      rfl
    · rw [ih, if_pos (by assumption)]
    · rw [ih, if_neg (by assumption)]

theorem lookup_entriesFrom_isSome (is : List ℕ) (a i : ℕ) :
    ((entriesFrom m wden is a).lookup i).isSome = true ↔ i ∈ is ∧ wordEnabled wden i = true := by
  induction is generalizing a with
  | nil => simp [entriesFrom]
  | cons j is ih =>
    rw [entriesFrom]
    by_cases hij : i = j
    · subst hij
      split_ifs with hen
      · simp [hen]
      · rw [ih]
        simp [hen]
    · split_ifs with hen
      · rw [List.lookup_cons, beq_false_of_ne hij]
        simp only [ih, List.mem_cons, hij, false_or]
      · simp only [ih, List.mem_cons, hij, false_or]

theorem entries_length (p : Packet) :
    (p.entries m).length = calculateWordCnts p.worden := by
  rw [Packet.entries, calculateWordCnts, show List.range 4 = [0, 1, 2, 3] from rfl]
  simp only [entriesFrom]
  split_ifs <;> rfl

theorem lookup_entries_isSome {p : Packet} {i : ℕ} (hi : i < 4) :
    ((p.entries m).lookup i).isSome = true ↔ wordEnabled p.worden i = true := by
  rw [Packet.entries, lookup_entriesFrom_isSome, List.mem_range]
  exact and_iff_right hi

/-- What the loop of `read_efuse` over the words of a packet does inside the efuse. -/
theorem readWords_eq (is : List ℕ) (hnd : is.Nodup) (addr : ℕ) (w : ℕ → UInt16)
    (hfit : addr + 2 * (entriesFrom m wden is addr).length ≤ realContentLen) :
    readWords m wden is addr w =
      (addr + 2 * (entriesFrom m wden is addr).length, fun i =>
        (((entriesFrom m wden is addr).lookup i).map Word.toU16).getD (w i)) := by
  induction is generalizing addr w with
  | nil => rfl
  | cons i is ih =>
    obtain ⟨hi, hnd⟩ := List.nodup_cons.mp hnd
    rw [entriesFrom] at hfit ⊢
    rw [readWords]
    by_cases hen : wordEnabled wden i = true
    · rw [if_pos hen] at hfit ⊢
      rw [if_pos hen]
      rw [List.length_cons] at hfit ⊢
      have hnone : (entriesFrom m wden is (addr + 2)).lookup i = none := by
        rw [← Option.not_isSome_iff_eq_none, lookup_entriesFrom_isSome]
        exact fun h => hi h.1
      have hword : ((m addr).toUInt16 ||| ((m (addr + 1)).toUInt16 <<< 8 &&& 0xFF00)) =
          Word.toU16 (m addr, m (addr + 1)) := rfl
      have hupd : Function.update (Function.update w i (m addr).toUInt16) i
          (Function.update w i (m addr).toUInt16 i |||
            ((m (addr + 1)).toUInt16 <<< 8 &&& 0xFF00)) =
          Function.update w i (Word.toU16 (m addr, m (addr + 1))) := by
        rw [Function.update_self, hword, Function.update_idem]
      simp only [hupd]
      rw [if_neg (not_not.mpr (by omega : addr + 1 < realContentLen))]
      -- the break at the last address leaves nothing out
      have hrest : (if ¬ addr + 2 < realContentLen then
            (addr + 2, Function.update w i (Word.toU16 (m addr, m (addr + 1))))
          else readWords m wden is (addr + 2)
            (Function.update w i (Word.toU16 (m addr, m (addr + 1))))) =
          (addr + 2 + 2 * (entriesFrom m wden is (addr + 2)).length, fun j =>
            (((entriesFrom m wden is (addr + 2)).lookup j).map Word.toU16).getD
              (Function.update w i (Word.toU16 (m addr, m (addr + 1))) j)) := by
        rcases Nat.lt_or_ge (addr + 2) realContentLen with hlt | hge
        · rw [if_neg (not_not.mpr hlt)]
          exact ih hnd (addr + 2) _ (by omega)
        · have hnil : entriesFrom m wden is (addr + 2) = [] := by
            rw [← List.length_eq_zero_iff]
            omega
          rw [if_pos (Nat.not_lt.mpr hge), hnil]
          rfl
      rw [hrest]
      refine Prod.ext (by show addr + 2 + _ = addr + _; omega) (funext fun j => ?_)
      show (((entriesFrom m wden is (addr + 2)).lookup j).map Word.toU16).getD _ =
        ((((i, (m addr, m (addr + 1))) :: entriesFrom m wden is (addr + 2)).lookup j).map
          Word.toU16).getD (w j)
      by_cases hj : j = i
      · subst hj
        rw [hnone, List.lookup_cons, beq_self_eq_true]
        exact Function.update_self _ _ _
      · rw [List.lookup_cons, beq_false_of_ne hj, Function.update_of_ne hj]
    · rw [if_neg hen] at hfit ⊢
      rw [if_neg hen]
      exact ih hnd addr w hfit

end entries

section history

variable {m : Content} {s : UInt8}

theorem history_append (qs : List Packet) (p : Packet) :
    history m s (qs ++ [p]) =
      if p.sect = s then p.entries m :: history m s qs else history m s qs := by
  rw [history, List.filter_append, List.map_append, List.reverse_append]
  by_cases h : p.sect = s
  · rw [if_pos h, List.filter_cons_of_pos (by rw [h]; exact beq_self_eq_true s)]
    rfl
  · rw [if_neg h, List.filter_cons_of_neg (by simp [h])]
    rfl

theorem latest_toU16 (es : List (ℕ × Word)) (older : List (List (ℕ × Word))) (i : ℕ) :
    (latest (es :: older) i).toU16 =
      ((es.lookup i).map Word.toU16).getD (latest older i).toU16 := by
  rw [latest]
  cases es.lookup i <;> rfl

theorem Packet.entries_eq_nil {p : Packet} (h : calculateWordCnts p.worden = 0) :
    p.entries m = [] := by
  rw [← List.length_eq_zero_iff, entries_length, h]

theorem packetAt_addr {a : ℕ} {p : Packet} (h : packetAt m a = some p) :
    a + 1 ≤ p.addr ∧ p.addr ≤ a + 2 := by
  rw [packetAt] at h
  split_ifs at h
  · obtain rfl := Option.some.inj h
    exact ⟨Nat.le_succ _, le_rfl⟩
  · obtain rfl := Option.some.inj h
    exact ⟨le_rfl, Nat.le_succ _⟩

/-! ## `read_efuse` on a log -/

/-- `eFuseWord` after the packets `qs`. -/
def Decoded (m : Content) (qs : List Packet) (w : ℕ → ℕ → UInt16) : Prop :=
  ∀ s : UInt8, w s.toNat = fun i => (latest (history m s qs) i).toU16

theorem readSection_decoded {qs : List Packet} {w : ℕ → ℕ → UInt16} (hw : Decoded m qs w)
    {p : Packet} (hsect : p.sect.toNat < maxSection) (hfit : p.next ≤ realContentLen) :
    ∃ w', readSection m p.sect p.worden p.addr w = (p.next, w') ∧
      Decoded m (qs ++ [p]) w' := by
  have hlen := entries_length (m := m) p
  have hfit' : p.addr + 2 * (entriesFrom m p.worden (List.range 4) p.addr).length ≤
      realContentLen := by
    rw [← Packet.entries, hlen]
    exact hfit
  have hwords := readWords_eq (List.range 4) List.nodup_range p.addr (w p.sect.toNat) hfit'
  rw [← Packet.entries, hlen] at hwords
  rw [readSection, if_pos hsect, hwords]
  refine ⟨_, rfl, fun s => ?_⟩
  rw [history_append]
  by_cases hs : p.sect = s
  · subst hs
    rw [Function.update_self, if_pos rfl, hw p.sect]
    funext i
    exact (latest_toU16 _ _ _).symm
  · have hne : s.toNat ≠ p.sect.toNat := fun h => hs (UInt8.toNat_inj.mp h).symm
    rw [Function.update_of_ne hne, if_neg hs, hw s]

/-- A packet without words leaves everything as it is. -/
theorem Decoded.append_empty {qs : List Packet} {w : ℕ → ℕ → UInt16} (hw : Decoded m qs w)
    {p : Packet} (h : calculateWordCnts p.worden = 0) : Decoded m (qs ++ [p]) w := by
  intro s
  rw [hw s, history_append, Packet.entries_eq_nil h]
  split_ifs
  · rfl
  · rfl

theorem readLoop_stop {a : ℕ} (h : packetAt m a = none) (fuel : ℕ) (w : ℕ → ℕ → UInt16) :
    (readLoop m fuel (m a) (a + 1) w).2 = w := by
  cases fuel with
  | zero => rfl
  | succ fuel =>
    rw [packetAt] at h
    rw [readLoop]
    split_ifs at h with hff hext hok
    · rw [if_neg fun hc => hc.1 hff]
    · by_cases hgo : m a ≠ 0xFF ∧ a + 1 < realContentLen
      · have hall : allWordsDisabled (m (a + 1)) = true :=
          Bool.of_not_eq_false fun hall => hok ⟨hgo.2, hall⟩
        rw [if_pos hgo, if_pos hext]
        by_cases hFF : m (a + 1) = 0xFF
        · rw [if_pos hFF]
        · rw [if_neg hFF, if_pos hall]
      · rw [if_neg hgo]

theorem readLoop_packet {a : ℕ} {p : Packet} (h : packetAt m a = some p)
    (ha : a + 1 < realContentLen) (fuel : ℕ) (w : ℕ → ℕ → UInt16) :
    readLoop m (fuel + 1) (m a) (a + 1) w =
      readLoop m fuel (m (readSection m p.sect p.worden p.addr w).1)
        ((readSection m p.sect p.worden p.addr w).1 + 1)
        (readSection m p.sect p.worden p.addr w).2 := by
  rw [packetAt] at h
  rw [readLoop]
  split_ifs at h with hff hext hok
  · obtain rfl := Option.some.inj h
    have hFF : m (a + 1) ≠ 0xFF := by
      intro hFF
      rw [hFF] at hok
      exact absurd hok.2 (by decide)
    rw [if_pos ⟨hff, ha⟩, if_pos hext, if_neg hFF, if_neg (by rw [hok.2]; exact Bool.false_ne_true)]
  · obtain rfl := Option.some.inj h
    rw [if_pos ⟨hff, ha⟩, if_neg hext]

theorem readLoop_log {a : ℕ} {ps : List Packet} (hlog : Log m a ps) {fuel : ℕ}
    (hfuel : realContentLen ≤ fuel + a) {qs : List Packet} {w : ℕ → ℕ → UInt16}
    (hw : Decoded m qs w) :
    Decoded m (qs ++ ps) (readLoop m fuel (m a) (a + 1) w).2 := by
  induction hlog generalizing fuel qs w with
  | full =>
    have hstay : readLoop m fuel (m realContentLen) (realContentLen + 1) w =
        (realContentLen + 1, w) := by
      cases fuel with
      | zero => rfl
      | succ fuel => rw [readLoop, if_neg fun hc => absurd hc.2 (by omega)]
    rw [hstay, List.append_nil]
    exact hw
  | stop ha h =>
    rw [readLoop_stop h, List.append_nil]
    exact hw
  | @packet a p ps ha h hsect hfit rest ih =>
    have haddr := packetAt_addr h
    rw [Packet.next] at hfit
    obtain ⟨fuel, rfl⟩ : ∃ f, fuel = f + 1 := ⟨fuel - 1, by omega⟩
    rcases Nat.lt_or_ge (a + 1) realContentLen with hlt | hge
    · obtain ⟨w', heq, hw'⟩ := readSection_decoded hw hsect hfit
      rw [readLoop_packet h hlt, heq, List.append_cons]
      exact ih (by rw [Packet.next]; omega) hw'
    · -- a header at the last address has no words, and nothing follows it
      have hcnt : calculateWordCnts p.worden = 0 := by omega
      have hnext : p.next = realContentLen := by rw [Packet.next]; omega
      have hps : ps = [] := by
        rw [hnext] at rest
        cases rest with
        | full => rfl
        | stop hlt _ => exact absurd hlt (Nat.lt_irrefl _)
        | packet hlt _ _ _ _ => exact absurd hlt (Nat.lt_irrefl _)
      rw [hps, readLoop, if_neg fun hc => absurd hc.2 (by omega)]
      exact hw.append_empty hcnt

theorem efuseTbl_eq {qs : List Packet} {w : ℕ → ℕ → UInt16} (hw : Decoded m qs w) (s : UInt8)
    {k : ℕ} (hk : k < 8) :
    efuseTbl w (8 * s.toNat + k) = Word.byte (latest (history m s qs) (k / 2)) k := by
  have h1 : (8 * s.toNat + k) / 8 = s.toNat := by omega
  have h2 : (8 * s.toNat + k) % 8 = k := by omega
  have h3 : (8 * s.toNat + k) % 2 = k % 2 := by omega
  rw [efuseTbl, h1, h2, h3, hw s, Word.byte, Word.toU16_low, Word.toU16_high]

/-- The map of a log: the words written last, `0xFF` for the others. Nothing is stored for an
    empty efuse. -/
theorem readEfuse_log {ps : List Packet} (hlog : Log m 0 ps) (hs : s.toNat < maxSection)
    (pbuf : ℕ → UInt8) {k : ℕ} (hk : k < 8) :
    (readEfuse m 0 mapLen pbuf).1 (8 * s.toNat + k) =
      if m 0 = 0xFF then pbuf (8 * s.toNat + k)
      else Word.byte (latest (history m s ps) (k / 2)) k := by
  have hin : 8 * s.toNat + k < mapLen := by
    rw [maxSection] at hs
    rw [mapLen]
    omega
  have hinit : Decoded m [] fun _ _ => 0xFFFF := fun _ => funext fun _ => by
    show (0xFFFF : UInt16) = Word.toU16 blankWord
    decide
  have hdec := readLoop_log hlog (Nat.le_refl (realContentLen + 0)) hinit
  rw [readEfuse, Nat.zero_add, if_neg (Nat.lt_irrefl _)]
  split_ifs with hff
  · rfl
  · show (if 8 * s.toNat + k < mapLen then _ else _) = _
    rw [if_pos hin, Nat.zero_add]
    exact efuseTbl_eq hdec s hk

/-! ## `efuse_pg_packet_read` on a log -/

/-- What the other reader makes of the packets: the latest that is not blank counts, and its word
    is taken from the overlay. -/
def kept : List (List (ℕ × Word)) → ℕ → Word
  | [], _ => blankWord
  | es :: older, i =>
    if IsBlank es ∨ es.lookup i = none then kept older i else overlaid (es :: older) i

theorem overlaid_entries (p : Packet) (older : List (List (ℕ × Word))) (r : ℕ) :
    overlaid (p.entries m :: older) r =
      if r < calculateWordCnts p.worden then (m (p.addr + 2 * r), m (p.addr + 2 * r + 1))
      else overlaid older r := by
  rw [overlaid, Packet.entries, entriesFrom_getElem?, ← Packet.entries, entries_length]
  split_ifs
  · rfl
  · rfl

theorem byte_pair (a k : ℕ) :
    Word.byte (m (a + 2 * (k / 2)), m (a + 2 * (k / 2) + 1)) k = m (a + k) := by
  rw [Word.byte]
  split_ifs with h
  · show m (a + 2 * (k / 2)) = _
    congr 1
    omega
  · show m (a + 2 * (k / 2) + 1) = _
    congr 1
    omega

/-- `bDataEmpty`. -/
theorem isBlank_iff (p : Packet) :
    IsBlank (p.entries m) ↔
      ((List.range (calculateWordCnts p.worden * 2)).all fun k => m (p.addr + k) == 0xFF) =
        true := by
  have hget : ∀ r, (p.entries m)[r]?.map Prod.snd =
      if r < calculateWordCnts p.worden then some (m (p.addr + 2 * r), m (p.addr + 2 * r + 1))
      else none := by
    intro r
    rw [Packet.entries, entriesFrom_getElem?, ← Packet.entries, entries_length]
  simp only [List.all_eq_true, List.mem_range, beq_iff_eq]
  constructor
  · intro h k hk
    have hr := hget (k / 2)
    rw [if_pos (by omega)] at hr
    obtain ⟨e, he, heq⟩ := Option.map_eq_some_iff.mp hr
    have hblank := h e (List.mem_of_getElem? he)
    rw [heq] at hblank
    rw [← @byte_pair m p.addr k, hblank, Word.byte]
    split_ifs
    · rfl
    · rfl
  · intro h e he
    obtain ⟨r, hr⟩ := List.mem_iff_getElem?.mp he
    have hword := hget r
    rw [hr] at hword
    split_ifs at hword with hlt
    · rw [Option.some.inj hword, h (2 * r) (by omega),
        show m (p.addr + 2 * r + 1) = 0xFF from h (2 * r + 1) (by omega)]
      rfl
    · exact absurd hword (Option.some_ne_none _)

theorem calculateWordCnts_le (wordEn : UInt8) : calculateWordCnts wordEn ≤ 4 := by
  rw [calculateWordCnts]
  split_ifs <;> decide

/-- The reader is at a header, behind the packets `qs`. -/
structure AtHeader (m : Content) (s : UInt8) (qs : List Packet) (a : ℕ) (st : PgRead) :
    Prop where
  readState : st.readState = .header
  bContinual : st.bContinual = true
  efuseAddr : st.efuseAddr = a
  tmpdata : ∀ k < 8, st.tmpdata k = Word.byte (overlaid (history m s qs) (k / 2)) k
  data : ∀ k < 8, st.data k = Word.byte (kept (history m s qs) (k / 2)) k

theorem PgRead.packet_data (offset hoffset hworden : UInt8) (addr : ℕ) (st : PgRead) :
    (st.packet m offset hoffset hworden addr).data = st.data := by
  rw [PgRead.packet]
  split_ifs
  · show (if _ then _ else _ : PgRead).data = _
    split_ifs
    · rfl
    · rfl
  · rfl

theorem PgRead.le_packet_efuseAddr (offset hoffset hworden : UInt8) (addr : ℕ) (st : PgRead) :
    addr ≤ (st.packet m offset hoffset hworden addr).efuseAddr := by
  rw [PgRead.packet]
  split_ifs
  · show addr ≤ (if _ then _ else _ : PgRead).efuseAddr
    split_ifs
    · show addr ≤ addr + _ * 2 + 1
      omega
    · exact le_rfl
  · show addr ≤ addr + _ * 2 + 1
    omega

theorem PgRead.step_header {st : PgRead} (h : st.readState = .header) :
    st.step m s =
      if m st.efuseAddr ≠ 0xFF then
        if extHeader (m st.efuseAddr) then
          if !allWordsDisabled (m (st.efuseAddr + 1)) then
            st.packet m s (extOffset (m st.efuseAddr) (m (st.efuseAddr + 1)))
              (m (st.efuseAddr + 1) &&& 0x0F) (st.efuseAddr + 1)
          else { st with efuseAddr := st.efuseAddr + 2, bContinual := false }
        else
          st.packet m s ((m st.efuseAddr >>> 4) &&& 0x0F) (m st.efuseAddr &&& 0x0F) st.efuseAddr
      else { st with bContinual := false } := by
  rw [PgRead.step]
  split
  · rfl
  · next hdata => exact absurd (hdata.symm.trans h) (by decide)

/-- What is left to do: two iterations for an address, one in `PG_STATE_DATA`. -/
def PgRead.rest (st : PgRead) : ℕ :=
  2 * (realContentLen - st.efuseAddr) + if st.readState = .header then 1 else 0

theorem PgRead.rest_packet (offset hoffset hworden : UInt8) (addr : ℕ) (st : PgRead)
    (hst : st.readState = .header) :
    (st.packet m offset hoffset hworden addr).rest ≤
      2 * (realContentLen - addr) + if addr < realContentLen then 0 else 1 := by
  have hnext : ∀ n, 2 * (realContentLen - (addr + n + 1)) + 1 ≤
      2 * (realContentLen - addr) + if addr < realContentLen then 0 else 1 := by
    intro n
    split_ifs <;> omega
  have hrest : ∀ t : PgRead, t.readState = .header →
      t.rest = 2 * (realContentLen - t.efuseAddr) + 1 := by
    intro t ht
    rw [PgRead.rest, if_pos ht]
  by_cases hoff : hoffset = offset
  · rw [PgRead.packet, if_pos hoff]
    by_cases hblank : ((List.range (calculateWordCnts hworden * 2)).all
        fun k => m (addr + 1 + k) == 0xFF) = true
    · rw [if_pos hblank]
      refine (hrest _ ?_).trans_le (hnext _)
      exact hst
    · rw [if_neg hblank]
      exact Nat.add_le_add_left (Nat.zero_le _) _
  · rw [PgRead.packet, if_neg hoff]
    refine (hrest _ ?_).trans_le (hnext _)
    exact hst

theorem PgRead.rest_step {st : PgRead} (h : st.efuseAddr < realContentLen) :
    (st.step m s).bContinual = false ∨ (st.step m s).rest < st.rest := by
  cases hst : st.readState with
  | header =>
    have hrest : st.rest = 2 * (realContentLen - st.efuseAddr) + 1 := by
      rw [PgRead.rest, if_pos hst]
    rw [PgRead.step_header hst, hrest]
    split_ifs
    · right
      have hext := PgRead.rest_packet (m := m) s
        (extOffset (m st.efuseAddr) (m (st.efuseAddr + 1))) (m (st.efuseAddr + 1) &&& 0x0F)
        (st.efuseAddr + 1) st hst
      split_ifs at hext <;> omega
    · exact Or.inl rfl
    · right
      have hone := PgRead.rest_packet (m := m) s ((m st.efuseAddr >>> 4) &&& 0x0F)
        (m st.efuseAddr &&& 0x0F) st.efuseAddr st hst
      rw [if_pos h] at hone
      omega
    · exact Or.inl rfl
  | data =>
    right
    have hrest : st.rest = 2 * (realContentLen - st.efuseAddr) := by
      rw [PgRead.rest, hst]
      rfl
    have hstep : (st.step m s).rest =
        2 * (realContentLen - (st.efuseAddr + st.wordCnts * 2 + 1)) + 1 := by
      rw [PgRead.step]
      split
      · next hheader => exact absurd (hst.symm.trans hheader) (by decide)
      · rfl
    omega

theorem pgReadLoop_fuel {fuel fuel' : ℕ} (st : PgRead) (h : st.rest ≤ fuel)
    (h' : st.rest ≤ fuel') : pgReadLoop m s fuel st = pgReadLoop m s fuel' st := by
  have hstop : ∀ f st, ¬ (st.bContinual = true ∧ st.efuseAddr < realContentLen) →
      pgReadLoop m s f st = st := by
    intro f st hst
    cases f with
    | zero => rfl
    | succ f => rw [pgReadLoop, if_neg hst]
  induction fuel generalizing fuel' st with
  | zero =>
    refine (hstop fuel' st fun hc => ?_).symm
    rw [PgRead.rest] at h
    omega
  | succ fuel ih =>
    by_cases hgo : st.bContinual = true ∧ st.efuseAddr < realContentLen
    · obtain ⟨fuel', rfl⟩ : ∃ f, fuel' = f + 1 := by
        refine ⟨fuel' - 1, ?_⟩
        rw [PgRead.rest] at h'
        omega
      rw [pgReadLoop, pgReadLoop, if_pos hgo, if_pos hgo]
      rcases PgRead.rest_step (m := m) (s := s) hgo.2 with hend | hlt
      · have hstay : ¬ ((st.step m s).bContinual = true ∧
            (st.step m s).efuseAddr < realContentLen) := fun hc => by
          rw [hend] at hc
          exact Bool.false_ne_true hc.1
        rw [hstop _ _ hstay, hstop _ _ hstay]
      · exact ih _ (by omega) (by omega)
    · rw [hstop _ _ hgo, hstop _ _ hgo]

/-- The last header ends the loop. -/
theorem step_stop {qs : List Packet} {a : ℕ} {st : PgRead} (hst : AtHeader m s qs a st)
    (hpack : packetAt m a = none) :
    ¬ ((st.step m s).bContinual = true ∧ (st.step m s).efuseAddr < realContentLen) ∧
      (st.step m s).data = st.data := by
  rw [packetAt] at hpack
  rw [PgRead.step_header hst.readState, hst.efuseAddr]
  split_ifs at hpack with hff hext hok
  · rw [if_neg (not_not.mpr hff)]
    exact ⟨fun h => absurd h.1 Bool.false_ne_true, rfl⟩
  · rw [if_pos hff, if_pos hext]
    by_cases hall : allWordsDisabled (m (a + 1)) = true
    · rw [hall, if_neg (by decide)]
      exact ⟨fun h => absurd h.1 Bool.false_ne_true, rfl⟩
    · rw [if_pos (by rw [Bool.eq_false_iff.mpr hall]; rfl)]
      have hend : realContentLen ≤ a + 1 :=
        Nat.not_lt.mp fun hlt => hok ⟨hlt, Bool.eq_false_iff.mpr hall⟩
      have hle := @PgRead.le_packet_efuseAddr m s (extOffset (m a) (m (a + 1)))
        (m (a + 1) &&& 0x0F) (a + 1) st
      exact ⟨fun h => absurd h.2 (Nat.not_lt.mpr (hend.trans hle)), st.packet_data ..⟩

theorem step_packet {qs : List Packet} {a : ℕ} {st : PgRead} (hst : AtHeader m s qs a st)
    {p : Packet} (hpack : packetAt m a = some p) :
    st.step m s = st.packet m s p.sect p.worden (p.addr - 1) := by
  rw [packetAt] at hpack
  rw [PgRead.step_header hst.readState, hst.efuseAddr]
  split_ifs at hpack with hff hext hok
  · obtain rfl := Option.some.inj hpack
    rw [if_pos hff, if_pos hext, if_pos (by rw [hok.2]; rfl)]
    rfl
  · obtain rfl := Option.some.inj hpack
    rw [if_pos hff, if_neg hext]
    rfl

theorem overlaid_append {qs : List Packet} {p : Packet} (hs : p.sect = s) {a : ℕ} {st : PgRead}
    (hst : AtHeader m s qs a st) {k : ℕ} (hk : k < 8) :
    (if k < calculateWordCnts p.worden * 2 then m (p.addr + k) else st.tmpdata k) =
      Word.byte (overlaid (history m s (qs ++ [p])) (k / 2)) k := by
  rw [history_append, if_pos hs, overlaid_entries]
  by_cases hlt : k < calculateWordCnts p.worden * 2
  · rw [if_pos hlt, if_pos (by omega), byte_pair]
  · rw [if_neg hlt, if_neg (by omega)]
    exact hst.tmpdata k hk

/-- A packet is read in one or two steps. -/
theorem readPacket {qs : List Packet} {a : ℕ} {st : PgRead} (hst : AtHeader m s qs a st)
    {p : Packet} (ha : a < realContentLen) (hpack : packetAt m a = some p)
    (hfit : p.next ≤ realContentLen) {fuel : ℕ} (hfuel : 2 ≤ fuel) :
    ∃ fuel' st', fuel ≤ fuel' + 2 ∧ AtHeader m s (qs ++ [p]) p.next st' ∧
      pgReadLoop m s fuel st = pgReadLoop m s fuel' st' := by
  obtain ⟨fuel, rfl⟩ : ∃ f, fuel = f + 1 + 1 := ⟨fuel - 2, by omega⟩
  have haddr := packetAt_addr hpack
  have hnext : p.addr - 1 + calculateWordCnts p.worden * 2 + 1 = p.next := by
    rw [Packet.next]
    omega
  have hdata : ∀ k, m (p.addr - 1 + 1 + k) = m (p.addr + k) := fun k => by
    rw [Nat.sub_add_cancel (by omega)]
  have hstep : pgReadLoop m s (fuel + 1 + 1) st =
      pgReadLoop m s (fuel + 1) (st.packet m s p.sect p.worden (p.addr - 1)) := by
    rw [pgReadLoop, if_pos ⟨hst.bContinual, by rw [hst.efuseAddr]; exact ha⟩,
      step_packet hst hpack]
  rw [hstep, PgRead.packet]
  by_cases hs : p.sect = s
  · rw [if_pos hs]
    simp only [hdata]
    by_cases hblank : IsBlank (p.entries m)
    · rw [if_pos ((isBlank_iff p).mp hblank)]
      refine ⟨fuel + 1, _, by omega, ?_, rfl⟩
      exact
        { readState := hst.readState
          bContinual := hst.bContinual
          efuseAddr := hnext
          tmpdata := fun k hk => overlaid_append hs hst hk
          data := fun k hk => by
            rw [history_append, if_pos hs, kept, if_pos (Or.inl hblank)]
            exact hst.data k hk }
    · rw [if_neg fun h => hblank ((isBlank_iff p).mpr h), pgReadLoop,
        if_pos ⟨hst.bContinual, by show p.addr - 1 < _; rw [Packet.next] at hfit; omega⟩]
      refine ⟨fuel, _, by omega, ?_, rfl⟩
      exact
        { readState := rfl
          bContinual := hst.bContinual
          efuseAddr := hnext
          tmpdata := fun k hk => overlaid_append hs hst hk
          data := fun k hk => by
            have hover := overlaid_append hs hst hk
            rw [history_append, if_pos hs] at hover ⊢
            have hlook := lookup_entries_isSome (m := m) (p := p) (i := k / 2) (by omega)
            show (if k < 8 ∧ wordEnabled p.worden (k / 2) = true then _ else st.data k) = _
            rw [kept]
            by_cases hen : wordEnabled p.worden (k / 2) = true
            · rw [if_pos ⟨hk, hen⟩, if_neg]
              · exact hover
              · rintro (h | h)
                · exact hblank h
                · rw [h] at hlook
                  exact absurd (hlook.mpr hen) Bool.false_ne_true
            · rw [if_neg fun h => hen h.2, if_pos]
              · exact hst.data k hk
              · right
                rw [← Option.not_isSome_iff_eq_none, hlook]
                exact hen }
  · rw [if_neg hs]
    refine ⟨fuel + 1, _, by omega, ?_, rfl⟩
    exact
      { readState := hst.readState
        bContinual := hst.bContinual
        efuseAddr := hnext
        tmpdata := fun k hk => by
          rw [history_append, if_neg hs]
          exact hst.tmpdata k hk
        data := fun k hk => by
          rw [history_append, if_neg hs]
          exact hst.data k hk }

theorem pgReadLoop_log {a : ℕ} {ps : List Packet} (hlog : Log m a ps) {fuel : ℕ}
    (hfuel : 2 * realContentLen + 1 ≤ fuel + 2 * a) {qs : List Packet} {st : PgRead}
    (hst : AtHeader m s qs a st) {k : ℕ} (hk : k < 8) :
    (pgReadLoop m s fuel st).data k = Word.byte (kept (history m s (qs ++ ps)) (k / 2)) k := by
  induction hlog generalizing fuel qs st with
  | full =>
    have hstay : pgReadLoop m s fuel st = st := by
      cases fuel with
      | zero => rfl
      | succ fuel =>
        rw [pgReadLoop, if_neg fun h => absurd h.2 (by rw [hst.efuseAddr]; exact Nat.lt_irrefl _)]
    rw [hstay, List.append_nil]
    exact hst.data k hk
  | @stop a ha h =>
    obtain ⟨fuel, rfl⟩ : ∃ f, fuel = f + 1 := ⟨fuel - 1, by omega⟩
    obtain ⟨hend, hdata⟩ := step_stop hst h
    have hstay : pgReadLoop m s fuel (st.step m s) = st.step m s := by
      cases fuel with
      | zero => rfl
      | succ fuel => rw [pgReadLoop, if_neg hend]
    rw [pgReadLoop, if_pos ⟨hst.bContinual, by rw [hst.efuseAddr]; exact ha⟩, hstay, hdata,
      List.append_nil]
    exact hst.data k hk
  | @packet a p ps ha h hsect hfit rest ih =>
    have haddr := packetAt_addr h
    have hfuel' : 2 ≤ fuel := by omega
    obtain ⟨fuel', st', hle, hst', heq⟩ := readPacket hst ha h hfit hfuel'
    rw [heq, List.append_cons]
    refine ih ?_ hst'
    rw [Packet.next]
    omega

/-- The answer for a section of a log. -/
theorem pgPacketRead_log {ps : List Packet} (hlog : Log m 0 ps) (hs : s.toNat < maxSection)
    (data : ℕ → UInt8) {k : ℕ} (hk : k < 8) :
    (pgPacketRead m s data).1 k = Word.byte (kept (history m s ps) (k / 2)) k := by
  rw [pgPacketRead, if_neg (Nat.not_lt.mpr hs.le)]
  have hinit : AtHeader m s [] 0
      { readState := .header, bContinual := true, efuseAddr := 0, hworden := 0, wordCnts := 0
        tmpdata := fun _ => 0xFF, data := fun k => if k < 8 then 0xFF else data k } :=
    { readState := rfl
      bContinual := rfl
      efuseAddr := rfl
      tmpdata := fun k _ => by
        show 0xFF = Word.byte blankWord k
        rw [Word.byte]
        split_ifs
        · rfl
        · rfl
      data := fun k hk => by
        show (if k < 8 then 0xFF else data k) = Word.byte blankWord k
        rw [if_pos hk, Word.byte]
        split_ifs
        · rfl
        · rfl }
  exact pgReadLoop_log hlog le_rfl hinit hk

/-! ## Agreement -/

theorem hiddenOk_iff (i : ℕ) (h : List (List (ℕ × Word))) :
    HiddenOk i h ↔ kept h i = blankWord := by
  induction h with
  | nil => exact iff_of_true trivial rfl
  | cons es older ih =>
    rw [HiddenOk, kept]
    split_ifs
    · exact ih
    · exact Iff.rfl

theorem wordOk_iff (i : ℕ) (h : List (List (ℕ × Word))) :
    WordOk i h ↔ latest h i = kept h i := by
  induction h with
  | nil => exact iff_of_true trivial rfl
  | cons es older ih =>
    rw [WordOk, latest, kept]
    cases hword : es.lookup i with
    | none =>
      rw [if_pos (Or.inr rfl)]
      exact ih
    | some word =>
      by_cases hblank : IsBlank es
      · have hword' : word = blankWord := by
          obtain ⟨l₁, l₂, hes, -⟩ := List.lookup_eq_some_iff.mp hword
          exact hblank (i, word) (by rw [hes]; simp)
        simp only [if_pos hblank, if_pos (Or.inl hblank), Option.getD_some, hword']
        rw [hiddenOk_iff]
        exact eq_comm
      · rw [if_neg (by simp [hblank])]
        simp only [if_neg hblank, Option.getD_some]
        exact eq_comm

theorem forall_byte_iff {u v : ℕ → Word} :
    (∀ k < 8, Word.byte (u (k / 2)) k = Word.byte (v (k / 2)) k) ↔ ∀ i < 4, u i = v i := by
  constructor
  · intro h i hi
    have h1 := h (2 * i) (by omega)
    have h2 := h (2 * i + 1) (by omega)
    rw [Word.byte, Word.byte, if_pos (by omega), if_pos (by omega),
      Nat.mul_div_cancel_left i (by omega)] at h1
    rw [Word.byte, Word.byte, if_neg (by omega), if_neg (by omega),
      show (2 * i + 1) / 2 = i by omega] at h2
    exact Prod.ext h1 h2
  · intro h k hk
    rw [h (k / 2) (by omega)]

theorem agree_iff_byte {ps : List Packet} (hlog : Log m 0 ps) (hs : s.toNat < maxSection)
    (pbuf data : ℕ → UInt8) :
    Agree m s pbuf data ↔ ∀ k < 8,
      (if m 0 = 0xFF then pbuf (8 * s.toNat + k)
        else Word.byte (latest (history m s ps) (k / 2)) k) =
      Word.byte (kept (history m s ps) (k / 2)) k := by
  refine forall₂_congr fun k hk => ?_
  rw [readEfuse_log hlog hs pbuf hk, pgPacketRead_log hlog hs data hk]

/-- Where every packet has data and holds the first words of its section. -/
theorem wordOk_of_initial {h : List (List (ℕ × Word))} (hne : ∀ es ∈ h, ¬ IsBlank es)
    (hinit : ∀ es ∈ h, ∀ i word, es.lookup i = some word → es[i]?.map Prod.snd = some word)
    (i : ℕ) : WordOk i h := by
  induction h with
  | nil => trivial
  | cons es older ih =>
    rw [WordOk]
    cases hword : es.lookup i with
    | none =>
      exact ih (fun e he => hne e (List.mem_cons_of_mem _ he))
        fun e he => hinit e (List.mem_cons_of_mem _ he)
    | some word =>
      show if IsBlank es then _ else _
      rw [if_neg (hne es List.mem_cons_self), overlaid,
        hinit es List.mem_cons_self i word hword]
      rfl

theorem readers_agree_of_initial {ps : List Packet} (hlog : Log m 0 ps)
    (hs : s.toNat < maxSection) (hfirst : m 0 ≠ 0xFF)
    (hne : ∀ es ∈ history m s ps, ¬ IsBlank es)
    (hinit : ∀ es ∈ history m s ps, ∀ i word, es.lookup i = some word →
      es[i]?.map Prod.snd = some word) (pbuf data : ℕ → UInt8) : Agree m s pbuf data := by
  rw [agree_iff_byte hlog hs]
  intro k _
  rw [if_neg hfirst, (wordOk_iff (k / 2) _).mp (wordOk_of_initial hne hinit _)]

end history

/-! ## Two images -/

/-- An efuse that begins with `bs` and is blank behind them. -/
def image (bs : List UInt8) : Content := fun a => bs.getD a 0xFF

end Rtl8821au.Efuse
