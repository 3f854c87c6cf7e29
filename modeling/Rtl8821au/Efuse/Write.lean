import Rtl8821au.Efuse.Read

/-!
# Writing to the efuse

`efuse_pg_packet_write` (`efuse.c`, lines 588–1013) with `efuse_word_enable_data_write`
(lines 1015–1074) and `efuse_get_current_size` (lines 420–460). What `efuse_OneByteWrite` does
to the efuse is a parameter, so that every branch for a byte that was not programmed is there.

* `writeWords_blank`: words written to blank bytes.
* `pgWriteLoop_walk`, `pgWriteLoop_append`: the way to the end of a log, and a packet behind it.
* `packet_fill`: what becomes of a packet whose header was written and its data not.

`repeat_times` is static: it counts over the calls of the driver's life, and from 4 on a call
ends where it would repeat something.
-/

namespace Rtl8821au.Efuse

/-! ## Model of the C code -/

/-- `EFUSE_OOB_PROTECT_BYTES_JAGUAR`. -/
def oobProtectBytes : ℕ := 18

/-- Where the writer stops. -/
def writeEnd : ℕ := realContentLen - oobProtectBytes

/-- `EFUSE_MAX_SECTION_BASE`. -/
def maxSectionBase : ℕ := 16

/-- `EFUSE_REPEAT_THRESHOLD_`. -/
def repeatThreshold : ℕ := 3

/-- The efuse, `HW_VAR_EFUSE_BYTES` and `repeat_times`. -/
structure Fuse where
  content : Content
  efuseBytes : ℕ
  repeatTimes : ℕ

/-- `efuse_OneByteWrite`: the efuse, the address, the byte, and the efuse afterwards. -/
abbrev Program := Content → ℕ → UInt8 → Content

/-- The loop of `efuse_get_current_size` (lines 431–455), for at most `fuel` iterations. -/
def currentSizeLoop (m : Content) : ℕ → ℕ → ℕ
  | 0, addr => addr
  | fuel + 1, addr =>
    if addr < realContentLen ∧ m addr ≠ 0xFF then
      if extHeader (m addr) then
        if allWordsDisabled (m (addr + 1)) then currentSizeLoop m fuel (addr + 2)
        else
          currentSizeLoop m fuel (addr + 1 + calculateWordCnts (m (addr + 1) &&& 0x0F) * 2 + 1)
      else currentSizeLoop m fuel (addr + calculateWordCnts (m addr &&& 0x0F) * 2 + 1)
    else addr

/-- `efuse_get_current_size`: the address is kept in `HW_VAR_EFUSE_BYTES`. -/
def getCurrentSize (f : Fuse) : Fuse × ℕ :=
  let addr := currentSizeLoop f.content realContentLen f.efuseBytes
  ({ f with efuseBytes := addr }, addr)

/-- Words of a mask that are enabled where `p` says so, as `match_word_en` is built up. -/
def enableWords (p : ℕ → Bool) : UInt8 :=
  (List.range 4).foldl (fun w i => if p i then w &&& ~~~((1 : UInt8) <<< UInt8.ofNat i) else w) 0x0F

/-- `match_word_en`: the words that both masks enable. -/
def matchWordEn (target tmp : UInt8) : UInt8 :=
  enableWords fun i => wordEnabled target i && wordEnabled tmp i

/-- `tmp_word_en`: the words of the target that are not among them. -/
def restWordEn (target matched : UInt8) : UInt8 :=
  enableWords fun i => wordEnabled target i != wordEnabled matched i

/-- The first byte of a header of two (line 837). -/
def extFirst (offset : UInt8) : UInt8 := (offset &&& 0x07) <<< 5 ||| 0x0F

/-- The second one (line 865). -/
def extSecond (offset wordEn : UInt8) : UInt8 := (offset &&& 0x78) <<< 1 ||| wordEn

section device

variable (program : Program)

/-- The words of `efuse_word_enable_data_write`, and `badworden`. -/
def writeWords (wordEn : UInt8) (data : ℕ → UInt8) :
    List ℕ → ℕ → Content × UInt8 → Content × UInt8
  | [], _, r => r
  | i :: is, addr, r =>
    if wordEnabled wordEn i then
      let m := program (program r.1 addr (data (2 * i))) (addr + 1) (data (2 * i + 1))
      let bad :=
        if data (2 * i) ≠ m addr ∨ data (2 * i + 1) ≠ m (addr + 1) then
          r.2 &&& ~~~((1 : UInt8) <<< UInt8.ofNat i)
        else r.2
      writeWords wordEn data is (addr + 2) (m, bad)
    else writeWords wordEn data is addr r

/-- `efuse_word_enable_data_write` (lines 1015–1074). -/
def wordEnableDataWrite (m : Content) (addr : ℕ) (wordEn : UInt8) (data : ℕ → UInt8) :
    Content × UInt8 :=
  writeWords program wordEn data (List.range 4) addr (m, 0x0F)

/-- A byte is written until it reads back, three times at most. -/
def writeThrice (addr : ℕ) (v : UInt8) : ℕ → Content → Content
  | 0, m => m
  | n + 1, m =>
    let m := program m addr v
    if m addr = v then m else writeThrice addr v n m

/-- A header of two bytes that enables no word gets one (lines 658–697). Bit 4 of the first byte
    is clear, so the switch over its upper half has no other cases. -/
def recoverExt (m : Content) (addr : ℕ) (header : UInt8) : Content × ℕ :=
  if m (addr + 1) = 0xFF ∧ m (addr + 2) = 0xFF then
    let m := writeThrice program addr (if header >>> 4 = 0x0E then 0x17 else 0x27) 3 m
    (program (program m (addr + 1) 0xFF) (addr + 2) 0xFF, addr + 3)
  else (m, addr + 1)

/-- The same for a header of one byte (lines 708–724). -/
def recoverOne (m : Content) (addr : ℕ) (header : UInt8) : Content × ℕ :=
  if header &&& 0x0F = 0x0F ∧ m (addr + 1) = 0xFF then
    let m := writeThrice program addr (header &&& 0xF0 ||| 0x07) 3 m
    (program (program m (addr + 1) 0xFF) (addr + 2) 0xFF, addr + 2)
  else (m, addr)

/-- A byte of a header is written until it is not `0xFF`; the threshold ends that (lines 841–860,
    869–885). -/
def retryHeader (addr : ℕ) (v : UInt8) : ℕ → Fuse → Fuse × Bool
  | 0, f => (f, false)
  | n + 1, f =>
    if f.content addr = 0xFF then
      let f := { f with repeatTimes := f.repeatTimes + 1 }
      if repeatThreshold < f.repeatTimes then (f, false)
      else retryHeader addr v n { f with content := program f.content addr v }
    else (f, true)

/-- The first of these writes and the others. -/
def programHeader (addr : ℕ) (v : UInt8) (f : Fuse) : Fuse × Bool :=
  retryHeader program addr v (repeatThreshold + 2) { f with content := program f.content addr v }

/-- The variables of `efuse_pg_packet_write`; the section and the data of `target_pkt` do not
    change. -/
structure PgWrite where
  fuse : Fuse
  writeState : PgState
  bContinual : Bool
  efuseAddr : ℕ
  wordEn : UInt8
  wordCnts : ℕ

/-- `WriteState = PG_STATE_HEADER`, and `repeat_times` is one more. -/
def PgWrite.repeated (s : PgWrite) : PgWrite :=
  { s with
    fuse := { s.fuse with repeatTimes := s.fuse.repeatTimes + 1 }
    writeState := .header
    bContinual := s.bContinual && decide (s.fuse.repeatTimes + 1 ≤ repeatThreshold) }

variable (reorg : Fuse → UInt8 → UInt8 → (ℕ → UInt8) → Option Fuse) (offset : UInt8)
  (data : ℕ → UInt8)

/-- The data of a packet with words of the target is blank (`so-2-2-A`, lines 768–814). -/
def PgWrite.fill (tmpWordEn : UInt8) (addr : ℕ) (s : PgWrite) : Option PgWrite :=
  let r := wordEnableDataWrite program s.fuse.content (addr + 1) tmpWordEn data
  let fuse := { s.fuse with content := r.1 }
  (if r.2 &&& 0x0F ≠ 0x0F then reorg fuse offset r.2 data else some fuse).bind fun fuse =>
    let rest := restWordEn s.wordEn (matchWordEn s.wordEn tmpWordEn)
    if rest &&& 0x0F ≠ 0x0F then
      let r := getCurrentSize fuse
      some { s with fuse := r.1, efuseAddr := r.2, wordEn := rest }.repeated
    else some { s with fuse, efuseAddr := addr, bContinual := false }.repeated

/-- A packet, with `efuse_addr` at the last byte of its header (lines 729–828). -/
def PgWrite.packet (tmpOffset tmpWordEn : UInt8) (addr : ℕ) (s : PgWrite) : Option PgWrite :=
  let next := addr + calculateWordCnts tmpWordEn * 2 + 1
  if tmpOffset ≠ offset then some { s with efuseAddr := next }
  else
    let bDataEmpty := (List.range (calculateWordCnts tmpWordEn * 2)).all fun k =>
      s.fuse.content (addr + 1 + k) == 0xFF
    if !bDataEmpty then some { s with efuseAddr := next }
    else if matchWordEn s.wordEn tmpWordEn &&& 0x0F ≠ 0x0F then
      s.fill program reorg offset data tmpWordEn addr
    else some { s with efuseAddr := next }

/-- Another header than the one that was written is in the efuse (`s1-2`, lines 932–967). -/
def PgWrite.fixHeader (tmpOffset tmpWordEn : UInt8) (s : PgWrite) : Option PgWrite :=
  let next := s.efuseAddr + calculateWordCnts tmpWordEn * 2 + 1
  let original := pgPacketRead s.fuse.content tmpOffset fun _ => 0xFF
  if original.2 then
    let r := wordEnableDataWrite program s.fuse.content (s.efuseAddr + 1) tmpWordEn original.1
    let fuse := { s.fuse with content := r.1 }
    if r.2 &&& 0x0F ≠ 0x0F then
      (reorg fuse tmpOffset r.2 original.1).map fun fuse =>
        let r := getCurrentSize fuse
        { s with fuse := r.1, efuseAddr := r.2 }.repeated
    else some { s with fuse, efuseAddr := next }.repeated
  else some { s with efuseAddr := next }.repeated

/-- The header that was written and the one that is read back (lines 915–970). -/
def PgWrite.headerRead (pgHeader tmpHeader tmpOffset : UInt8) (s : PgWrite) : Option PgWrite :=
  if tmpHeader = pgHeader then some { s with writeState := .data }
  else if tmpHeader = 0xFF then some s.repeated
  else s.fixHeader program reorg tmpOffset (tmpHeader &&& 0x0F)

/-- A header is written to a blank address (`s1`, lines 833–970). -/
def PgWrite.writeHeader (s : PgWrite) : Option PgWrite :=
  if maxSectionBase ≤ offset.toNat then
    let pgHeader := extFirst offset
    let r := programHeader program s.efuseAddr pgHeader s.fuse
    let tmpHeader := r.1.content s.efuseAddr
    if !r.2 then
      some { s with fuse := r.1, bContinual := false, efuseAddr := s.efuseAddr + 1 }
    else if tmpHeader = pgHeader then
      let pgHeader' := extSecond offset s.wordEn
      let r := programHeader program (s.efuseAddr + 1) pgHeader' r.1
      let tmpHeader := r.1.content (s.efuseAddr + 1)
      let s := { s with fuse := r.1, efuseAddr := s.efuseAddr + 1 }
      if !r.2 then some { s with bContinual := false }
      else if tmpHeader &&& 0x0F = 0x0F then
        let s := s.repeated
        some (if s.bContinual then { s with efuseAddr := s.efuseAddr + 1 } else s)
      else s.headerRead program reorg pgHeader' tmpHeader (extOffset pgHeader tmpHeader)
    else if tmpHeader &&& 0x1F = 0x0F then
      some { s with fuse := r.1, efuseAddr := s.efuseAddr + 2 }
    else
      { s with fuse := r.1 }.headerRead program reorg pgHeader tmpHeader (tmpHeader >>> 4 &&& 0x0F)
  else
    let pgHeader := offset <<< 4 &&& 0xF0 ||| s.wordEn
    let m := program s.fuse.content s.efuseAddr pgHeader
    let tmpHeader := m s.efuseAddr
    { s with fuse := { s.fuse with content := m } }.headerRead program reorg pgHeader tmpHeader
      (tmpHeader >>> 4 &&& 0x0F)

/-- `PG_STATE_DATA` (lines 975–1003). -/
def PgWrite.writeData (s : PgWrite) : PgWrite :=
  let r := wordEnableDataWrite program s.fuse.content (s.efuseAddr + 1) s.wordEn data
  let s := { s with fuse := { s.fuse with content := r.1 } }
  if r.2 &&& 0x0F = 0x0F then { s with bContinual := false }
  else
    { s with
      efuseAddr := s.efuseAddr + 2 * s.wordCnts + 1
      wordEn := r.2
      wordCnts := calculateWordCnts r.2 }.repeated

/-- The body of the `while` loop (lines 646–1005). -/
def PgWrite.step (s : PgWrite) : Option PgWrite :=
  match s.writeState with
  | .header =>
    let header := s.fuse.content s.efuseAddr
    if header ≠ 0xFF then
      if extHeader header then
        let ext := s.fuse.content (s.efuseAddr + 1)
        if allWordsDisabled ext then
          let r := recoverExt program s.fuse.content (s.efuseAddr + 1) header
          some { s with fuse := { s.fuse with content := r.1 }, efuseAddr := r.2 }
        else
          s.packet program reorg offset data (extOffset header ext) (ext &&& 0x0F) (s.efuseAddr + 1)
      else
        let r := recoverOne program s.fuse.content s.efuseAddr header
        { s with fuse := { s.fuse with content := r.1 } }.packet program reorg offset data
          (header >>> 4 &&& 0x0F) (header &&& 0x0F) r.2
    else s.writeHeader program reorg offset
  | .data => some (s.writeData program data)

/-- The `while` loop: the variables when it ends, if it does in `fuel` iterations. -/
def pgWriteLoop : ℕ → PgWrite → Option PgWrite
  | 0, _ => none
  | fuel + 1, s =>
    if s.bContinual ∧ s.efuseAddr < writeEnd then
      (s.step program reorg offset data).bind (pgWriteLoop fuel)
    else some s

end device

/-- The variables when the loop begins. -/
def PgWrite.start (f : Fuse) (wordEn : UInt8) : PgWrite :=
  { fuse := f
    writeState := .header
    bContinual := true
    efuseAddr := 0
    wordEn := wordEn
    wordCnts := calculateWordCnts wordEn }

/-- `target_pkt.data`: `0xFF` in the words that the mask leaves out. -/
def targetData (wordEn : UInt8) (data : ℕ → UInt8) : ℕ → UInt8 :=
  wordEnableDataRead wordEn data fun _ => 0xFF

/-- Iterations that are enough where every byte is programmed. -/
def loopFuel : ℕ := 2 * realContentLen

/-- `efuse_pg_packet_write` (lines 588–1013), which calls itself for the words that were not
    programmed, to a depth of at most `depth`: the efuse and the result. -/
def pgPacketWrite (program : Program) :
    ℕ → Fuse → UInt8 → UInt8 → (ℕ → UInt8) → Option (Fuse × Bool)
  | 0, _, _, _, _ => none
  | depth + 1, f, offset, wordEn, data =>
    (pgWriteLoop program
      (fun f offset wordEn data =>
        (pgPacketWrite program depth f offset wordEn data).map Prod.fst)
      offset (targetData wordEn data) loopFuel (.start f wordEn)).map fun s => (s.fuse, true)

/-! ## Masks -/

theorem enableWords_eq (p : ℕ → Bool) :
    (∀ i < 4, wordEnabled (enableWords p) i = p i) ∧ enableWords p &&& 0x0F = enableWords p ∧
      (enableWords p = 0x0F ↔ ∀ i < 4, p i = false) := by
  have hfour (q : ℕ → Prop) : (∀ i < 4, q i) ↔ q 0 ∧ q 1 ∧ q 2 ∧ q 3 := by
    constructor
    · intro h
      exact ⟨h 0 (by decide), h 1 (by decide), h 2 (by decide), h 3 (by decide)⟩
    · rintro ⟨h0, h1, h2, h3⟩ i hi
      match i, hi with
      | 0, _ => exact h0
      | 1, _ => exact h1
      | 2, _ => exact h2
      | 3, _ => exact h3
  rw [hfour, hfour, enableWords, show List.range 4 = [0, 1, 2, 3] from rfl]
  simp only [List.foldl_cons, List.foldl_nil]
  generalize p 0 = p0, p 1 = p1, p 2 = p2, p 3 = p3
  revert p0 p1 p2 p3
  decide

theorem wordEnabled_enableWords {p : ℕ → Bool} {i : ℕ} (hi : i < 4) :
    wordEnabled (enableWords p) i = p i := (enableWords_eq p).1 i hi

theorem enableWords_and (p : ℕ → Bool) : enableWords p &&& 0x0F = enableWords p :=
  (enableWords_eq p).2.1

theorem enableWords_eq_iff (p : ℕ → Bool) : enableWords p = 0x0F ↔ ∀ i < 4, p i = false :=
  (enableWords_eq p).2.2

theorem calculateWordCnts_eq (wordEn : UInt8) :
    calculateWordCnts wordEn = ((List.range 4).filter (wordEnabled wordEn)).length := by
  rw [calculateWordCnts, show List.range 4 = [0, 1, 2, 3] from rfl]
  simp only [List.filter_cons, List.filter_nil]
  split_ifs <;> rfl

/-! ## Words on blank bytes -/

/-- A blank byte that is written has the value afterwards, and no other byte changes. -/
def Programs (program : Program) : Prop :=
  ∀ m a v, m a = 0xFF → program m a v = Function.update m a v

/-- The words of data that a mask enables, with their numbers. -/
def wordEntries (wordEn : UInt8) (data : ℕ → UInt8) (is : List ℕ) : List (ℕ × Word) :=
  (is.filter (wordEnabled wordEn)).map fun i => (i, (data (2 * i), data (2 * i + 1)))

/-- The entries of a packet with these data. -/
def dataEntries (wordEn : UInt8) (data : ℕ → UInt8) : List (ℕ × Word) :=
  wordEntries wordEn data (List.range 4)

section blank

variable {program : Program} {wordEn : UInt8} (data : ℕ → UInt8)

/-- All words are written, nothing else changes, and none is bad. -/
theorem writeWords_blank (hprog : Programs program) (is : List ℕ) (addr : ℕ) (m : Content)
    (bad : UInt8)
    (hblank : ∀ k, addr ≤ k → k < addr + 2 * (is.filter (wordEnabled wordEn)).length → m k = 0xFF) :
    (writeWords program wordEn data is addr (m, bad)).2 = bad ∧
      (∀ k, k < addr ∨ addr + 2 * (is.filter (wordEnabled wordEn)).length ≤ k →
        (writeWords program wordEn data is addr (m, bad)).1 k = m k) ∧
      entriesFrom (writeWords program wordEn data is addr (m, bad)).1 wordEn is addr =
        wordEntries wordEn data is := by
  induction is generalizing addr m with
  | nil => exact ⟨rfl, fun _ _ => rfl, rfl⟩
  | cons i is ih =>
    rw [writeWords, entriesFrom, wordEntries]
    by_cases hen : wordEnabled wordEn i = true
    · rw [List.filter_cons_of_pos hen, List.length_cons] at hblank ⊢
      have hlow : m addr = 0xFF := hblank addr le_rfl (by omega)
      have hhigh : Function.update m addr (data (2 * i)) (addr + 1) = 0xFF := by
        rw [Function.update_of_ne (Nat.succ_ne_self addr)]
        exact hblank (addr + 1) (by omega) (by omega)
      simp only [if_pos hen, hprog m addr _ hlow, hprog _ (addr + 1) _ hhigh]
      generalize hm' : Function.update (Function.update m addr (data (2 * i))) (addr + 1)
        (data (2 * i + 1)) = m'
      have hm'low : m' addr = data (2 * i) := by
        rw [← hm', Function.update_of_ne (Nat.succ_ne_self addr).symm, Function.update_self]
      have hm'high : m' (addr + 1) = data (2 * i + 1) := by
        rw [← hm', Function.update_self]
      have hm'rest : ∀ k, k ≠ addr → k ≠ addr + 1 → m' k = m k := by
        intro k hk hk'
        rw [← hm', Function.update_of_ne hk', Function.update_of_ne hk]
      rw [if_neg (by rw [hm'low, hm'high]; exact fun h => h.elim (· rfl) (· rfl))]
      obtain ⟨hbad, hframe, hentries⟩ := ih (addr + 2) m' fun k hk hk' => by
        rw [hm'rest k (by omega) (by omega)]
        exact hblank k (by omega) (by omega)
      refine ⟨hbad, fun k hk => ?_, ?_⟩
      · rw [hframe k (by omega), hm'rest k (by omega) (by omega)]
      · rw [hentries, hframe addr (by omega), hframe (addr + 1) (by omega), hm'low, hm'high]
        rfl
    · rw [List.filter_cons_of_neg hen] at hblank ⊢
      rw [if_neg hen, if_neg hen]
      exact ih addr m hblank

/-- `efuse_word_enable_data_write` on blank bytes. -/
theorem wordEnableDataWrite_blank (hprog : Programs program) {m : Content} {addr : ℕ}
    (hblank : ∀ k, addr ≤ k → k < addr + 2 * calculateWordCnts wordEn → m k = 0xFF) :
    ∃ m', wordEnableDataWrite program m addr wordEn data = (m', 0x0F) ∧
      (∀ k, k < addr ∨ addr + 2 * calculateWordCnts wordEn ≤ k → m' k = m k) ∧
      entriesFrom m' wordEn (List.range 4) addr = dataEntries wordEn data := by
  rw [calculateWordCnts_eq] at hblank ⊢
  obtain ⟨hbad, hframe, hentries⟩ :=
    writeWords_blank data hprog (List.range 4) addr m 0x0F hblank
  exact ⟨_, Prod.ext rfl hbad, hframe, hentries⟩

end blank

/-! ## A log and blank bytes behind it -/

/-- The packets from `a` to `e`. Each enables a word; the writer takes other headers for damage. -/
def Path (m : Content) (a : ℕ) : List Packet → ℕ → Prop
  | [], e => a = e
  | p :: ps, e => packetAt m a = some p ∧ calculateWordCnts p.worden ≠ 0 ∧
      p.sect.toNat < maxSection ∧ Path m p.next ps e

/-- A well-formed log: packets from the first byte to `e`, and blank bytes behind them, of which
    the first ends the log. -/
structure CleanLog (m : Content) (ps : List Packet) (e : ℕ) : Prop where
  path : Path m 0 ps e
  lt : e < writeEnd
  blank : ∀ k, e ≤ k → k < writeEnd → m k = 0xFF

section path

variable {m m' : Content} {a c e : ℕ} {p : Packet} {ps qs : List Packet}

theorem path_append : Path m a (ps ++ qs) e ↔ ∃ c, Path m a ps c ∧ Path m c qs e := by
  induction ps generalizing a with
  | nil => exact ⟨fun h => ⟨a, rfl, h⟩, fun ⟨c, hc, h⟩ => by obtain rfl := hc; exact h⟩
  | cons p ps ih =>
    simp only [List.cons_append, Path, ih]
    constructor
    · rintro ⟨hp, hw, hs, c, hc, h⟩
      exact ⟨c, ⟨hp, hw, hs, hc⟩, h⟩
    · rintro ⟨c, ⟨hp, hw, hs, hc⟩, h⟩
      exact ⟨hp, hw, hs, c, hc, h⟩

theorem packetAt_next (h : packetAt m a = some p) : a + 1 ≤ p.next := by
  have := packetAt_addr h
  rw [Packet.next]
  omega

theorem Path.le (h : Path m a ps e) : a ≤ e := by
  induction ps generalizing a with
  | nil => exact Nat.le_of_eq h
  | cons p ps ih =>
    have := packetAt_next h.1
    have := ih h.2.2.2
    omega

theorem Path.length_le (h : Path m a ps e) : a + ps.length ≤ e := by
  induction ps generalizing a with
  | nil => exact Nat.le_of_eq h
  | cons p ps ih =>
    have := packetAt_next h.1
    have := ih h.2.2.2
    rw [List.length_cons]
    omega

/-- A packet is its header. -/
theorem packetAt_congr (h : packetAt m a = some p) (hm : ∀ k, a ≤ k → k < p.addr → m' k = m k) :
    packetAt m' a = some p := by
  have haddr := packetAt_addr h
  have ha : m' a = m a := hm a le_rfl (by omega)
  unfold packetAt at h ⊢
  rw [ha]
  split_ifs at h with hff hext hok
  · obtain rfl := Option.some.inj h
    have ha' : m' (a + 1) = m (a + 1) := hm (a + 1) (by omega) (Nat.lt_succ_self _)
    rw [if_neg hff, if_pos hext, ha', if_pos hok]
  · obtain rfl := Option.some.inj h
    rw [if_neg hff, if_neg hext]

theorem Path.congr (h : Path m a ps e) (hm : ∀ k, a ≤ k → k < e → m' k = m k) :
    Path m' a ps e := by
  induction ps generalizing a with
  | nil => exact h
  | cons p ps ih =>
    obtain ⟨hp, hw, hs, hrest⟩ := h
    have hnext := packetAt_next hp
    have hle := hrest.le
    refine ⟨packetAt_congr hp fun k hk hk' => hm k hk ?_, hw, hs,
      ih hrest fun k hk hk' => hm k (by omega) hk'⟩
    rw [Packet.next] at hle
    omega

/-- Two logs with the same bytes up to the end of the first have its packets in common. -/
theorem Path.prefix (h : Path m a ps e) (hm : ∀ k, a ≤ k → k < e → m' k = m k) (h' : Path m' a qs c)
    (hblank : ∀ k, c ≤ k → k < e → m' k = 0xFF) : ∃ qs', Path m' e qs' c := by
  induction ps generalizing a qs with
  | nil =>
    obtain rfl : a = e := h
    exact ⟨qs, h'⟩
  | cons p ps ih =>
    obtain ⟨hp, hw, hs, hrest⟩ := h
    have hnext := packetAt_next hp
    have hle := hrest.le
    have hp' : packetAt m' a = some p := packetAt_congr hp fun k hk hk' => hm k hk (by
      rw [Packet.next] at hle
      omega)
    cases qs with
    | nil =>
      obtain rfl : a = c := h'
      have hff := hblank a le_rfl (by omega)
      rw [packetAt, if_pos hff] at hp'
      cases hp'
    | cons q qs =>
      obtain ⟨hq, -, -, hrest'⟩ := h'
      obtain rfl := Option.some.inj (hq.symm.trans hp')
      exact ih hrest (fun k hk hk' => hm k (by omega) hk') hrest'

/-- The readers' view of a log. -/
theorem CleanLog.log (h : CleanLog m ps e) : Log m 0 ps := by
  have hend : Log m e [] := by
    refine .stop (Nat.lt_of_lt_of_le h.lt (by decide)) ?_
    rw [packetAt, if_pos (h.blank e le_rfl h.lt)]
  have hpath : ∀ {a : ℕ} {ps : List Packet}, Path m a ps e → Log m a ps := by
    intro a ps hps
    induction ps generalizing a with
    | nil =>
      obtain rfl : a = e := hps
      exact hend
    | cons p ps ih =>
      obtain ⟨hp, -, hs, hrest⟩ := hps
      have hnext := packetAt_next hp
      have hle := hrest.le
      have hreal : writeEnd ≤ realContentLen := by decide
      have hlt := h.lt
      exact .packet (by omega) hp hs (by omega) (ih hrest)
  exact hpath h.path

end path

/-! ## Headers -/

/-- A header of one byte that enables a word. -/
theorem oneHeader {s w : UInt8} (hs : s.toNat < maxSectionBase) (hw : w.toNat < 0x0F) :
    s <<< 4 &&& 0xF0 ||| w ≠ 0xFF ∧ extHeader (s <<< 4 &&& 0xF0 ||| w) = false ∧
      (s <<< 4 &&& 0xF0 ||| w) >>> 4 &&& 0x0F = s ∧ (s <<< 4 &&& 0xF0 ||| w) &&& 0x0F = w := by
  have hall : ∀ s : Fin 16, ∀ w : Fin 15,
      UInt8.ofNat s <<< 4 &&& 0xF0 ||| UInt8.ofNat w ≠ 0xFF ∧
        extHeader (UInt8.ofNat s <<< 4 &&& 0xF0 ||| UInt8.ofNat w) = false ∧
        (UInt8.ofNat s <<< 4 &&& 0xF0 ||| UInt8.ofNat w) >>> 4 &&& 0x0F = UInt8.ofNat s ∧
        (UInt8.ofNat s <<< 4 &&& 0xF0 ||| UInt8.ofNat w) &&& 0x0F = UInt8.ofNat w := by
    decide +kernel
  have h := hall ⟨s.toNat, hs⟩ ⟨w.toNat, hw⟩
  rwa [UInt8.ofNat_toNat, UInt8.ofNat_toNat] at h

theorem extHeader_extFirst {s : UInt8} (hs : s.toNat < maxSection) :
    extFirst s ≠ 0xFF ∧ extHeader (extFirst s) = true := by
  have hall : ∀ s : Fin 64, extFirst (UInt8.ofNat s) ≠ 0xFF ∧
      extHeader (extFirst (UInt8.ofNat s)) = true := by
    decide +kernel
  have h := hall ⟨s.toNat, hs⟩
  rwa [UInt8.ofNat_toNat] at h

theorem extSecond_eq {s w : UInt8} (hs : s.toNat < maxSection) (hw : w.toNat < 0x0F) :
    allWordsDisabled (extSecond s w) = false ∧ extSecond s w &&& 0x0F = w ∧
      extOffset (extFirst s) (extSecond s w) = s := by
  have hall : ∀ s : Fin 64, ∀ w : Fin 15,
      allWordsDisabled (extSecond (UInt8.ofNat s) (UInt8.ofNat w)) = false ∧
        extSecond (UInt8.ofNat s) (UInt8.ofNat w) &&& 0x0F = UInt8.ofNat w ∧
        extOffset (extFirst (UInt8.ofNat s)) (extSecond (UInt8.ofNat s) (UInt8.ofNat w)) =
          UInt8.ofNat s := by
    decide +kernel
  have h := hall ⟨s.toNat, hs⟩ ⟨w.toNat, hw⟩
  rwa [UInt8.ofNat_toNat, UInt8.ofNat_toNat] at h

theorem ne_ff_of_allWordsDisabled {v : UInt8} (h : allWordsDisabled v = false) : v ≠ 0xFF := by
  rintro rfl
  exact absurd h (by decide)

theorem calculateWordCnts_pos {w : UInt8} (hw : w.toNat < 0x0F) : calculateWordCnts w ≠ 0 := by
  have hall : ∀ w : Fin 15, calculateWordCnts (UInt8.ofNat w) ≠ 0 := by decide
  have h := hall ⟨w.toNat, hw⟩
  rwa [UInt8.ofNat_toNat] at h

/-! ## The packet behind the log -/

section writer

variable {program : Program} {reorg : Fuse → UInt8 → UInt8 → (ℕ → UInt8) → Option Fuse}
  {offset : UInt8} {data : ℕ → UInt8} {m : Content}

theorem programHeader_blank (hprog : Programs program) {addr : ℕ} {v : UInt8} {f : Fuse}
    (hblank : f.content addr = 0xFF) (hv : v ≠ 0xFF) :
    programHeader program addr v f =
      ({ f with content := Function.update f.content addr v }, true) := by
  rw [programHeader, hprog _ _ _ hblank, retryHeader, if_neg]
  show Function.update f.content addr v addr ≠ 0xFF
  rw [Function.update_self]
  exact hv

/-- The header is written: its packet, and the state it leaves. -/
theorem writeHeader_blank
    (reorg : Fuse → UInt8 → UInt8 → (ℕ → UInt8) → Option Fuse) (hprog : Programs program)
    {st : PgWrite} {e : ℕ}
    (he : st.efuseAddr = e) (hend : e + 1 < realContentLen)
    (hblank : ∀ k, e ≤ k → k < e + 2 → st.fuse.content k = 0xFF)
    (hs : offset.toNat < maxSection) (hw : st.wordEn.toNat < 0x0F) :
    ∃ m' p, packetAt m' e = some p ∧ p.sect = offset ∧ p.worden = st.wordEn ∧
      (∀ k, k < e ∨ p.addr ≤ k → m' k = st.fuse.content k) ∧
      st.writeHeader program reorg offset =
        some { st with
          fuse := { st.fuse with content := m' }
          writeState := .data
          efuseAddr := p.addr - 1 } := by
  subst he
  have hff : st.fuse.content st.efuseAddr = 0xFF := hblank _ le_rfl (by omega)
  unfold PgWrite.writeHeader
  by_cases hbase : maxSectionBase ≤ offset.toNat
  · obtain ⟨hfirst, hext⟩ := extHeader_extFirst hs
    obtain ⟨hwords, hmask, hoff⟩ := extSecond_eq hs hw
    have hsecond := ne_ff_of_allWordsDisabled hwords
    have hff' : Function.update st.fuse.content st.efuseAddr (extFirst offset)
        (st.efuseAddr + 1) = 0xFF := by
      rw [Function.update_of_ne (Nat.succ_ne_self _)]
      exact hblank _ (by omega) (by omega)
    have hlow : (extSecond offset st.wordEn) &&& 0x0F ≠ 0x0F := by
      intro h
      rw [allWordsDisabled, h] at hwords
      exact absurd hwords (by decide)
    refine ⟨Function.update (Function.update st.fuse.content st.efuseAddr (extFirst offset))
      (st.efuseAddr + 1) (extSecond offset st.wordEn),
      ⟨offset, st.wordEn, st.efuseAddr + 2⟩, ?_, rfl, rfl, ?_, ?_⟩
    · rw [packetAt, Function.update_self, Function.update_of_ne (Nat.succ_ne_self _).symm,
        Function.update_self, if_neg hfirst, if_pos hext, if_pos ⟨hend, hwords⟩, hoff, hmask]
    · intro k hk
      dsimp only at hk
      rw [Function.update_of_ne (by omega), Function.update_of_ne (by omega)]
    · rw [if_pos hbase]
      have hwrite' : programHeader program (st.efuseAddr + 1) (extSecond offset st.wordEn)
          { st.fuse with
            content := Function.update st.fuse.content st.efuseAddr (extFirst offset) } = _ :=
        programHeader_blank hprog hff' hsecond
      simp only [programHeader_blank hprog hff hfirst, hwrite', Function.update_self, Bool.not_true,
        Bool.false_eq_true, if_false, if_true, if_neg hlow, PgWrite.headerRead]
      rfl
  · obtain ⟨hne, hext, hoff, hmask⟩ := oneHeader (Nat.not_le.mp hbase) hw
    refine ⟨Function.update st.fuse.content st.efuseAddr (offset <<< 4 &&& 0xF0 ||| st.wordEn),
      ⟨offset, st.wordEn, st.efuseAddr + 1⟩, ?_, rfl, rfl, ?_, ?_⟩
    · rw [packetAt, Function.update_self, if_neg hne, if_neg (by rw [hext]; decide), hoff, hmask]
    · intro k hk
      dsimp only at hk
      rw [Function.update_of_ne (by omega)]
    · rw [if_neg hbase]
      simp only [hprog _ _ _ hff, Function.update_self, PgWrite.headerRead, if_true]
      rfl

theorem step_blank {st : PgWrite} (hstate : st.writeState = .header)
    (hblank : st.fuse.content st.efuseAddr = 0xFF) :
    st.step program reorg offset data = st.writeHeader program reorg offset := by
  rw [PgWrite.step, hstate]
  simp only [hblank, ne_eq, not_true_eq_false, if_false]

theorem pgWriteLoop_succ {st st' : PgWrite} {fuel : ℕ} (hgo : st.bContinual = true)
    (hlt : st.efuseAddr < writeEnd) (hstep : st.step program reorg offset data = some st') :
    pgWriteLoop program reorg offset data (fuel + 1) st =
      pgWriteLoop program reorg offset data fuel st' := by
  rw [pgWriteLoop, if_pos ⟨hgo, hlt⟩, hstep, Option.bind_some]

theorem pgWriteLoop_stop {st : PgWrite} {fuel : ℕ} (h : st.bContinual = false) :
    pgWriteLoop program reorg offset data (fuel + 1) st = some st := by
  rw [pgWriteLoop, if_neg fun hgo => Bool.false_ne_true (h.symm.trans hgo.1)]

variable (reorg data) in
/-- A packet behind the log: header and data. -/
theorem pgWriteLoop_append (hprog : Programs program) (st : PgWrite) (e fuel : ℕ)
    (hstate : st.writeState = .header) (hgo : st.bContinual = true) (he : st.efuseAddr = e)
    (hfree : e + 10 ≤ writeEnd) (hblank : ∀ k, e ≤ k → k < e + 10 → st.fuse.content k = 0xFF)
    (hs : offset.toNat < maxSection) (hw : st.wordEn.toNat < 0x0F) :
    ∃ m' p st', packetAt m' e = some p ∧ p.sect = offset ∧ p.worden = st.wordEn ∧
      p.next ≤ e + 10 ∧ (∀ k, k < e ∨ p.next ≤ k → m' k = st.fuse.content k) ∧
      p.entries m' = dataEntries st.wordEn data ∧
      pgWriteLoop program reorg offset data (fuel + 3) st = some st' ∧
      st'.fuse = { st.fuse with content := m' } := by
  have hreal : writeEnd + oobProtectBytes = realContentLen := by decide
  have hff : st.fuse.content st.efuseAddr = 0xFF := by
    rw [he]
    exact hblank e le_rfl (by omega)
  obtain ⟨m₁, p, hp, hsect, hworden, hframe₁, hheader⟩ :=
    writeHeader_blank reorg hprog he (by omega)
      (fun k hk hk' => hblank k hk (by omega)) hs hw
  have haddr := packetAt_addr hp
  have hcnt := calculateWordCnts_le p.worden
  have hblank₁ : ∀ k, p.addr ≤ k → k < p.addr + 2 * calculateWordCnts p.worden → m₁ k = 0xFF := by
    intro k hk hk'
    rw [hframe₁ k (by omega)]
    exact hblank k (by omega) (by omega)
  obtain ⟨m₂, hwrite, hframe₂, hentries⟩ :=
    wordEnableDataWrite_blank data hprog hblank₁
  have hp₂ : packetAt m₂ e = some p :=
    packetAt_congr hp fun k _ hk => hframe₂ k (by omega)
  have hdata : PgWrite.step program reorg offset data
      { st with
        fuse := { st.fuse with content := m₁ }
        writeState := .data
        efuseAddr := p.addr - 1 } =
      some { st with
        fuse := { st.fuse with content := m₂ }
        writeState := .data
        bContinual := false
        efuseAddr := p.addr - 1 } := by
    have haddr' : p.addr - 1 + 1 = p.addr := by omega
    simp only [PgWrite.step, PgWrite.writeData, haddr', ← hworden, hwrite]
    rfl
  refine ⟨m₂, p, { st with
      fuse := { st.fuse with content := m₂ }
      writeState := .data
      bContinual := false
      efuseAddr := p.addr - 1 }, hp₂, hsect, hworden, ?_, ?_, ?_, ?_, rfl⟩
  · rw [Packet.next]
    omega
  · intro k hk
    rw [Packet.next] at hk
    rw [hframe₂ k (by omega), hframe₁ k (by omega)]
  · rw [Packet.entries, hentries, hworden]
  · rw [pgWriteLoop_succ hgo (by omega) ((step_blank hstate hff).trans hheader)]
    refine (pgWriteLoop_succ (by exact hgo) ?_ hdata).trans (pgWriteLoop_stop rfl)
    show p.addr - 1 < writeEnd
    omega

end writer

/-! ## The packets on the way -/

/-- A packet of the section whose header was written and its data not, with a word of the mask. -/
def Repairable (m : Content) (offset wordEn : UInt8) (p : Packet) : Prop :=
  p.sect = offset ∧ IsBlank (p.entries m) ∧ matchWordEn wordEn p.worden ≠ 0x0F

instance (m : Content) (offset wordEn : UInt8) : DecidablePred (Repairable m offset wordEn) :=
  fun _ => inferInstanceAs (Decidable (_ ∧ _ ∧ _))

theorem matchWordEn_and (target tmp : UInt8) :
    matchWordEn target tmp &&& 0x0F = matchWordEn target tmp := enableWords_and _

theorem restWordEn_and (target matched : UInt8) :
    restWordEn target matched &&& 0x0F = restWordEn target matched := enableWords_and _

section walk

variable {program : Program} {reorg : Fuse → UInt8 → UInt8 → (ℕ → UInt8) → Option Fuse}
  {offset : UInt8} {data : ℕ → UInt8} {st : PgWrite} {p : Packet} {a c : ℕ}

/-- The bytes that are looked at for `bDataEmpty`. -/
theorem bDataEmpty_eq {m : Content} (h : 1 ≤ p.addr) :
    ((List.range (calculateWordCnts p.worden * 2)).all fun k => m (p.addr - 1 + 1 + k) == 0xFF) =
      decide (IsBlank (p.entries m)) := by
  rw [Nat.sub_add_cancel h, Bool.eq_iff_iff, decide_eq_true_iff, isBlank_iff]

theorem worden_ne {w : UInt8} (hw : calculateWordCnts w ≠ 0) : w ≠ 0x0F := by
  rintro rfl
  exact hw (by decide)

/-- A header of the log. -/
theorem writeStep_packet (hstate : st.writeState = .header) (ha : st.efuseAddr = a)
    (hp : packetAt st.fuse.content a = some p) (hw : calculateWordCnts p.worden ≠ 0) :
    st.step program reorg offset data =
      st.packet program reorg offset data p.sect p.worden (p.addr - 1) := by
  subst ha
  have hne := worden_ne hw
  obtain ⟨fuse, writeState, bContinual, efuseAddr, wordEn, wordCnts⟩ := st
  obtain rfl : writeState = .header := hstate
  rw [packetAt] at hp
  unfold PgWrite.step
  split_ifs at hp with hff hext hok
  · obtain rfl := Option.some.inj hp
    simp only [ne_eq, hff, not_false_eq_true, if_true, hext, hok.2, Bool.false_eq_true, if_false]
    rfl
  · obtain rfl := Option.some.inj hp
    have hrec : recoverOne program fuse.content efuseAddr (fuse.content efuseAddr) =
        (fuse.content, efuseAddr) :=
      if_neg fun h => hne h.1
    simp only [ne_eq, hff, not_false_eq_true, if_true, hext, Bool.false_eq_true, if_false, hrec]
    rfl

theorem packet_skip (haddr : 1 ≤ p.addr) (h : ¬ Repairable st.fuse.content offset st.wordEn p) :
    st.packet program reorg offset data p.sect p.worden (p.addr - 1) =
      some { st with efuseAddr := p.next } := by
  have hnext : p.addr - 1 + calculateWordCnts p.worden * 2 + 1 = p.next := by
    rw [Packet.next]
    omega
  unfold PgWrite.packet
  simp only [bDataEmpty_eq haddr, hnext, matchWordEn_and]
  by_cases hsect : p.sect = offset
  · rw [if_neg (not_not.mpr hsect)]
    by_cases hblank : IsBlank (p.entries st.fuse.content)
    · rw [decide_eq_true hblank, if_neg (by decide),
        if_neg fun hmatch => h ⟨hsect, hblank, hmatch⟩]
    · rw [decide_eq_false hblank, Bool.not_false, if_pos rfl]
  · rw [if_pos hsect]

/-- Packets that are not touched. -/
theorem pgWriteLoop_walk {ps : List Packet} {fuel : ℕ} (hstate : st.writeState = .header)
    (hgo : st.bContinual = true) (ha : st.efuseAddr = a) (hpath : Path st.fuse.content a ps c)
    (hc : c ≤ writeEnd) (hskip : ∀ p ∈ ps, ¬ Repairable st.fuse.content offset st.wordEn p) :
    pgWriteLoop program reorg offset data (fuel + ps.length) st =
      pgWriteLoop program reorg offset data fuel { st with efuseAddr := c } := by
  induction ps generalizing a st with
  | nil =>
    obtain rfl : a = c := hpath
    subst ha
    rfl
  | cons p ps ih =>
    obtain ⟨hp, hw, -, hrest⟩ := hpath
    have haddr := packetAt_addr hp
    have hnext := packetAt_next hp
    have hle := hrest.le
    have hstep : st.step program reorg offset data = some { st with efuseAddr := p.next } :=
      (writeStep_packet hstate ha hp hw).trans
        (packet_skip (by omega) (hskip p List.mem_cons_self))
    rw [List.length_cons, ← Nat.add_assoc, pgWriteLoop_succ hgo (by omega) hstep]
    exact ih hstate hgo rfl hrest fun q hq => hskip q (List.mem_cons_of_mem p hq)

variable (reorg data st) in
/-- The blank data of a packet is written. What is left of the mask goes behind the end that
    `efuse_get_current_size` finds. -/
theorem packet_fill (hprog : Programs program) (haddr : 1 ≤ p.addr)
    (h : Repairable st.fuse.content offset st.wordEn p) :
    ∃ m', (∀ k, k < p.addr ∨ p.next ≤ k → m' k = st.fuse.content k) ∧
      p.entries m' = dataEntries p.worden data ∧
      st.packet program reorg offset data p.sect p.worden (p.addr - 1) =
        if restWordEn st.wordEn (matchWordEn st.wordEn p.worden) ≠ 0x0F then
          some { st with
            fuse := (getCurrentSize { st.fuse with content := m' }).1
            efuseAddr := (getCurrentSize { st.fuse with content := m' }).2
            wordEn := restWordEn st.wordEn (matchWordEn st.wordEn p.worden) }.repeated
        else
          some { st with
            fuse := { st.fuse with content := m' }
            efuseAddr := p.addr - 1
            bContinual := false }.repeated := by
  obtain ⟨hsect, hblank, hmatch⟩ := h
  have hbytes : ∀ k, p.addr ≤ k → k < p.addr + 2 * calculateWordCnts p.worden →
      st.fuse.content k = 0xFF := by
    intro k hk hk'
    have hall := (isBlank_iff p).mp hblank
    simp only [List.all_eq_true, List.mem_range, beq_iff_eq] at hall
    have hbyte := hall (k - p.addr) (by omega)
    rwa [Nat.add_sub_cancel' hk] at hbyte
  obtain ⟨m', hwrite, hframe, hentries⟩ := wordEnableDataWrite_blank data hprog hbytes
  refine ⟨m', hframe, hentries, ?_⟩
  unfold PgWrite.packet PgWrite.fill
  simp only [matchWordEn_and, restWordEn_and, Nat.sub_add_cancel haddr, hwrite]
  rw [if_neg (not_not.mpr hsect), (isBlank_iff p).mp hblank, if_neg (by decide), if_pos hmatch]
  rfl

/-- The end of a log. -/
theorem currentSizeLoop_path {m : Content} {ps : List Packet} {fuel : ℕ} (hpath : Path m a ps c)
    (hc : c ≤ realContentLen) (hend : m c = 0xFF) (hfuel : ps.length ≤ fuel) :
    currentSizeLoop m fuel a = c := by
  induction ps generalizing a fuel with
  | nil =>
    obtain rfl : a = c := hpath
    cases fuel with
    | zero => rfl
    | succ fuel => rw [currentSizeLoop, if_neg fun h => h.2 hend]
  | cons p ps ih =>
    obtain ⟨hp, -, -, hrest⟩ := hpath
    rw [List.length_cons] at hfuel
    obtain ⟨fuel, rfl⟩ : ∃ f, fuel = f + 1 := ⟨fuel - 1, by omega⟩
    have hnext := packetAt_next hp
    have hle := hrest.le
    have hstep : currentSizeLoop m (fuel + 1) a = currentSizeLoop m fuel p.next := by
      rw [packetAt] at hp
      rw [currentSizeLoop]
      split_ifs at hp with hff hext hok
      · obtain rfl := Option.some.inj hp
        rw [if_pos ⟨by omega, hff⟩, if_pos hext, if_neg (by rw [hok.2]; exact Bool.false_ne_true),
          Packet.next]
        congr 1
        dsimp only
        omega
      · obtain rfl := Option.some.inj hp
        rw [if_pos ⟨by omega, hff⟩, if_neg hext, Packet.next]
        congr 1
        dsimp only
        omega
    rw [hstep]
    exact ih hrest (by omega)

end walk

end Rtl8821au.Efuse
