import Mathlib.Tactic.SplitIfs
import Mathlib.Data.List.Basic
import Mathlib.Order.Basic
import Mathlib.Algebra.Order.Group.Nat

/-!
# Register tables

The tables of `table.c` are lists of lines of two words. A line whose first word is below
`0xCDCDCDCD` is an address and a value; the others are the start lines of branches, and
`0xCDEF`, `0xCDCD` and `0xDEAD` as the second word mark the start of a further branch, of the
last one and the end (`phy.c`). The same loop reads the tables of the MAC, the baseband, the
AGC and both radios.

* `interpret_ne_timeout`: every run ends, whatever the table.
* `interpret_restLines`: what the loop makes of the branches of a block.
* `interpret_eq_iff`: when a table is interpreted as it is meant.

The loop does not know the end line of a block of which no branch was taken: it takes it for
the start line of another one. The MAC's copy has `0xCDCDCDC` for `0xCDCDCDCD`.
-/

namespace Rtl8821au.Phy

/-! ## Model of the C code -/

/-- `Array[i]` and `Array[i+1]`. -/
abbrev Line := UInt32 × UInt32

/-- `CheckCondition` (`phy.c`, lines 3681–3708). -/
def checkCondition (condition hex : UInt32) : Bool :=
  let board := hex &&& 0x000000FF
  let interface := (hex &&& 0x0000FF00) >>> 8
  let platform := (hex &&& 0x00FF0000) >>> 16
  if condition = 0xCDCDCDCD then true
  else
    let cond := condition &&& 0x000000FF
    if board ≠ cond ∧ cond ≠ 0xFF then false
    else
      let cond := (condition &&& 0x0000FF00) >>> 8
      if interface &&& cond = 0 ∧ cond ≠ 0x07 then false
      else
        let cond := (condition &&& 0x00FF0000) >>> 16
        !(platform &&& cond = 0 ∧ cond ≠ 0x0F)

/-- The end of a block, `0xDEAD`. -/
def endMark : UInt32 := 0xDEAD

/-- `v2` is one of the words that end a branch. -/
def isMark (v2 : UInt32) : Bool := v2 == endMark || v2 == 0xCDEF || v2 == 0xCDCD

/-- A line that is written, and how many lines follow it in the table. -/
abbrev Written := ℕ × Line

/-- "Discard the following (offset, data) pairs" (lines 3751–3755). The argument of this and the
    next two loops is the table from `i` on, and their result the table from the final `i` on;
    `i < ArrayLen - 2` fails at the last line. -/
def discard : List Line → List Line
  | [] => []
  | l :: rest => if isMark l.2 || rest.isEmpty then l :: rest else discard rest

/-- "Configure matched pairs" (lines 3760–3765). -/
def configure : List Line → List Written × List Line
  | [] => ([], [])
  | l :: rest =>
    if isMark l.2 || rest.isEmpty then ([], l :: rest)
    else ((rest.length, l) :: (configure rest).1, (configure rest).2)

/-- "and skip to end of if-else" (lines 3767–3769). -/
def skipToEnd : List Line → List Line
  | [] => []
  | l :: rest => if l.2 == endMark || rest.isEmpty then l :: rest else skipToEnd rest

/-- Why there is no result: the bound on the iterations, or a read behind the table. -/
inductive Fault where
  | timeout
  | beyondTable
  deriving DecidableEq, Repr

/-- The `for` loop (lines 3738–3773) for at most `fuel` iterations on the table from `i` on.
    `READ_NEXT_PAIR` behind a start line reads without looking at `ArrayLen`. The `i -= 2` of the
    branch that is not taken and the `i += 2` of the loop cancel out. -/
def forLoop (threshold hex : UInt32) : ℕ → List Line → Except Fault (List Written)
  | 0, _ => .error .timeout
  | _ + 1, [] => .ok []
  | fuel + 1, l :: rest =>
    if l.1 < threshold then (forLoop threshold hex fuel rest).map ((rest.length, l) :: ·)
    else if rest = [] then .error .beyondTable
    else if !checkCondition l.1 hex then forLoop threshold hex fuel (discard rest)
    else
      (forLoop threshold hex fuel (skipToEnd (configure rest).2).tail).map
        ((configure rest).1 ++ ·)

/-- The lines that are written for a table. -/
def interpret (threshold hex : UInt32) (table : List Line) : Except Fault (List Written) :=
  forLoop threshold hex (table.length + 1) table

/-- What is done to the hardware; `mdelay` is also `msleep`. -/
inductive RegOp where
  | writeByte (addr data : UInt32)
  | setBbreg (addr data : UInt32)
  | setRfreg (path : ℕ) (addr data : UInt32)
  | mdelay (ms : ℕ)
  | udelay (us : ℕ)
  deriving DecidableEq, Repr

/-- `rtl_write_byte(rtlpriv, v1, (u8)v2)`. -/
def writeMac (l : Line) : List RegOp := [.writeByte l.1 (l.2 &&& 0xFF)]

/-- `_rtl8821au_config_bb_reg` (lines 5168–5189). -/
def configBbReg (l : Line) : List RegOp :=
  (if l.1 = 0xfe then [.mdelay 50]
    else if l.1 = 0xfd then [.mdelay 5]
    else if l.1 = 0xfc then [.mdelay 1]
    else if l.1 = 0xfb then [.udelay 50]
    else if l.1 = 0xfa then [.udelay 5]
    else if l.1 = 0xf9 then [.udelay 1]
    else []) ++ [.setBbreg l.1 l.2, .udelay 1]

/-- The AGC table is written without delays of its own (lines 6402–6404). -/
def configAgc (l : Line) : List RegOp := [.setBbreg l.1 l.2, .udelay 1]

/-- `_rtl8821au_config_rf_reg` of `_rtl8821au_config_rf_radio_a` and `_b` (lines 3781–3815); the
    mask `0x1000 & 0xE000` is zero. -/
def configRfReg (path : ℕ) (l : Line) : List RegOp :=
  if l.1 = 0xfe ∨ l.1 = 0xffe then [.mdelay 50] else [.setRfreg path l.1 l.2, .udelay 1]

/-- The copies of the interpreter. -/
inductive Interpreter where
  | mac
  | phyReg
  | agcTab
  | radioA8812
  | radioB8812
  | radioA8821
  deriving DecidableEq, Repr

/-- The first word of an unconditional line is below this: the MAC's copy lacks a digit (line
    3743). -/
def Interpreter.threshold : Interpreter → UInt32
  | .mac => 0xCDCDCDC
  | _ => 0xCDCDCDCD

/-- What a copy does with a line. -/
def Interpreter.config : Interpreter → Line → List RegOp
  | .mac => writeMac
  | .phyReg => configBbReg
  | .agcTab => configAgc
  | .radioA8812 | .radioA8821 => configRfReg 0
  | .radioB8812 => configRfReg 1

/-- What a copy does to the hardware. -/
def Interpreter.run (k : Interpreter) (hex : UInt32) (table : List Line) :
    Except Fault (List RegOp) :=
  (interpret k.threshold hex table).map (·.flatMap fun w => k.config w.2)

/-- `hex` for a board (lines 3727–3730): `RTW_USB` is 2 and `ODM_CE` 4. -/
def boardHex (board : UInt8) : UInt32 := board.toUInt32 + 0x200 + 0x40000 + 0xFF000000

/-! ## Tables -/

/-- The first word of a start line is not below this. -/
def branchMark : UInt32 := 0xCDCDCDCD

/-- A condition and its pairs. -/
structure Branch where
  cond : UInt32
  pairs : List Line

/-- An if block. `tag` is the second word of its first line. -/
structure Block where
  first : Branch
  tag : UInt32
  elseIfs : List Branch
  els : Option (List Line)
  endCond : UInt32
  cond_ge : ∀ b ∈ first :: elseIfs, branchMark ≤ b.cond
  tag_unmarked : isMark tag = false
  unmarked : ∀ b ∈ first :: elseIfs, ∀ l ∈ b.pairs, isMark l.2 = false
  els_unmarked : ∀ ls ∈ els, ∀ l ∈ ls, isMark l.2 = false

/-- An unconditional pair or a block. -/
inductive Item where
  | pair (l : Line) (h : l.1 < branchMark)
  | block (b : Block)

/-- The lines of a block from its first mark on. -/
def restLines : List Branch → Option (List Line) → UInt32 → List Line
  | [], none, e => [(e, endMark)]
  | [], some ls, e => (branchMark, 0xCDCD) :: (ls ++ [(e, endMark)])
  | b :: bs, els, e => (b.cond, 0xCDEF) :: (b.pairs ++ restLines bs els e)

def Block.restLines (b : Block) : List Line := Phy.restLines b.elseIfs b.els b.endCond

def Item.lines : Item → List Line
  | .pair l _ => [l]
  | .block b => (b.first.cond, b.tag) :: (b.first.pairs ++ b.restLines)

def tableLines : List Item → List Line
  | [] => []
  | item :: t => item.lines ++ tableLines t

/-! ## The property -/

/-- The lines `ls` with `m` lines behind them. -/
def place : List Line → ℕ → List Written
  | [], _ => []
  | l :: ls, m => (ls.length + m, l) :: place ls m

/-- The pairs of the first branch that is accepted, else those of the else branch. -/
def chosen (hex : UInt32) : List Branch → Option (List Line) → Option (List Line)
  | [], els => els
  | b :: bs, els => if checkCondition b.cond hex then some b.pairs else chosen hex bs els

/-- Where these are, with `m` lines behind the block. -/
def chosenLines (hex : UInt32) (els : Option (List Line)) (e : UInt32) (m : ℕ) :
    List Branch → List Written
  | [] => match els with
    | none => []
    | some ls => place ls (1 + m)
  | b :: bs =>
    if checkCondition b.cond hex then place b.pairs ((restLines bs els e).length + m)
    else chosenLines hex els e m bs

/-- What is to be written. -/
def expected (hex : UInt32) : List Item → List Written
  | [] => []
  | .pair l _ :: t => ((tableLines t).length, l) :: expected hex t
  | .block b :: t =>
    chosenLines hex b.els b.endCond (tableLines t).length (b.first :: b.elseIfs) ++ expected hex t

/-! ## The condition -/

/-- Every block has a branch to take. Behind the end line of one that has none the loop is
    `skipping`: this does no harm before the last pair of the table, before a pair whose value is
    a mark, and before a block whose first branch is not to be taken or is empty like the one
    that is taken in its place. -/
def Sound (threshold hex : UInt32) : Bool → List Item → Prop
  | skipping, [] => skipping = false
  | skipping, .pair l _ :: t =>
    (skipping = true → isMark l.2 = true ∨ t = []) ∧ l.1 < threshold ∧ Sound threshold hex false t
  | skipping, .block b :: t =>
    let branches := if skipping then b.elseIfs else b.first :: b.elseIfs
    (skipping = true → checkCondition b.first.cond hex = true →
      b.first.pairs = [] ∧ (chosen hex b.elseIfs b.els).getD [] = []) ∧
    match chosen hex branches b.els with
    | some _ => Sound threshold hex false t
    | none =>
      threshold ≤ b.endCond ∧ checkCondition b.endCond hex = false ∧ Sound threshold hex true t

/-! ## The loops -/

section loops

variable {threshold hex : UInt32}

theorem discard_length_le (ls : List Line) : (discard ls).length ≤ ls.length := by
  induction ls with
  | nil => exact le_rfl
  | cons l rest ih =>
    rw [discard]
    split_ifs
    · exact le_rfl
    · exact ih.trans (Nat.le_succ _)

theorem configure_length_le (ls : List Line) : (configure ls).2.length ≤ ls.length := by
  induction ls with
  | nil => exact le_rfl
  | cons l rest ih =>
    rw [configure]
    split_ifs
    · exact le_rfl
    · exact ih.trans (Nat.le_succ _)

theorem skipToEnd_length_le (ls : List Line) : (skipToEnd ls).length ≤ ls.length := by
  induction ls with
  | nil => exact le_rfl
  | cons l rest ih =>
    rw [skipToEnd]
    split_ifs
    · exact le_rfl
    · exact ih.trans (Nat.le_succ _)

/-- What is left after a branch was taken. -/
theorem taken_length_lt {rest : List Line} (h : rest ≠ []) :
    (skipToEnd (configure rest).2).tail.length < rest.length := by
  have h1 := configure_length_le rest
  have h2 := skipToEnd_length_le (configure rest).2
  have h3 := List.length_pos_iff.mpr h
  rw [List.length_tail]
  omega

/-- The number of lines is enough fuel. -/
theorem forLoop_fuel {fuel fuel' : ℕ} (ls : List Line) (h : ls.length < fuel)
    (h' : ls.length < fuel') :
    forLoop threshold hex fuel ls = forLoop threshold hex fuel' ls := by
  induction fuel generalizing fuel' ls with
  | zero => exact absurd h (Nat.not_lt_zero _)
  | succ fuel ih =>
    obtain ⟨fuel', rfl⟩ := Nat.exists_eq_succ_of_ne_zero (Nat.ne_zero_of_lt h')
    cases ls with
    | nil => rfl
    | cons l rest =>
      have hd := discard_length_le rest
      rw [List.length_cons] at h h'
      rw [forLoop, forLoop, @ih fuel' rest (by omega) (by omega),
        @ih fuel' (discard rest) (by omega) (by omega)]
      by_cases hnil : rest = []
      · rw [if_pos hnil, if_pos hnil]
      · have ht := taken_length_lt hnil
        rw [@ih fuel' (skipToEnd (configure rest).2).tail (by omega) (by omega)]

theorem interpret_nil : interpret threshold hex [] = .ok [] := rfl

theorem interpret_pair {l : Line} (h : l.1 < threshold) (rest : List Line) :
    interpret threshold hex (l :: rest) =
      (interpret threshold hex rest).map ((rest.length, l) :: ·) := by
  rw [interpret, forLoop, if_pos h, List.length_cons]
  rfl

theorem interpret_last {l : Line} (h : threshold ≤ l.1) :
    interpret threshold hex [l] = .error .beyondTable := by
  rw [interpret, forLoop, if_neg (UInt32.not_lt.mpr h), if_pos rfl]

theorem interpret_reject {l : Line} (h : threshold ≤ l.1) (hc : checkCondition l.1 hex = false)
    {rest : List Line} (hne : rest ≠ []) :
    interpret threshold hex (l :: rest) = interpret threshold hex (discard rest) := by
  have hd := discard_length_le rest
  rw [interpret, forLoop, if_neg (UInt32.not_lt.mpr h), if_neg hne, hc]
  exact forLoop_fuel _ (by rw [List.length_cons]; omega) (Nat.lt_succ_self _)

theorem interpret_accept {l : Line} (h : threshold ≤ l.1) (hc : checkCondition l.1 hex = true)
    {rest : List Line} (hne : rest ≠ []) :
    interpret threshold hex (l :: rest) =
      (interpret threshold hex (skipToEnd (configure rest).2).tail).map
        ((configure rest).1 ++ ·) := by
  have ht := taken_length_lt hne
  rw [interpret, forLoop, if_neg (UInt32.not_lt.mpr h), if_neg hne, hc]
  show (forLoop threshold hex (rest.length + 1) _).map _ = _
  rw [forLoop_fuel _ (by omega) (Nat.lt_succ_self _)]
  rfl

/-- Every run ends. -/
theorem interpret_ne_timeout (ls : List Line) : interpret threshold hex ls ≠ .error .timeout := by
  induction hn : ls.length using Nat.strongRecOn generalizing ls with
  | _ n ih =>
    cases ls with
    | nil => exact fun h => by cases h
    | cons l rest =>
      rw [List.length_cons] at hn
      have hmap : ∀ (x : Except Fault (List Written)) (f : List Written → List Written),
          x ≠ .error .timeout → x.map f ≠ .error .timeout := by
        intro x f hx
        cases x with
        | error e => exact hx
        | ok w => exact fun h => by cases h
      rcases UInt32.lt_or_le l.1 threshold with hlt | hge
      · rw [interpret_pair hlt]
        exact hmap _ _ (ih rest.length (by omega) rest rfl)
      · by_cases hnil : rest = []
        · subst hnil
          rw [interpret_last hge]
          exact fun h => by cases h
        · have hd := discard_length_le rest
          have ht := taken_length_lt hnil
          cases hc : checkCondition l.1 hex with
          | false =>
            rw [interpret_reject hge hc hnil]
            exact ih _ (by omega) _ rfl
          | true =>
            rw [interpret_accept hge hc hnil]
            exact hmap _ _ (ih _ (by omega) _ rfl)

/-! ### What is written follows the table -/

theorem place_lt {ls : List Line} {m : ℕ} {w : Written} (hw : w ∈ place ls m) :
    m ≤ w.1 ∧ w.1 < ls.length + m := by
  induction ls with
  | nil => exact absurd hw List.not_mem_nil
  | cons l ls ih =>
    rw [List.length_cons]
    rcases List.mem_cons.mp hw with rfl | hw
    · exact ⟨Nat.le_add_left _ _, by omega⟩
    · have := ih hw
      omega

theorem configure_lt {ls : List Line} {w : Written} (hw : w ∈ (configure ls).1) :
    w.1 < ls.length := by
  induction ls with
  | nil => exact absurd hw List.not_mem_nil
  | cons l rest ih =>
    rw [configure] at hw
    split_ifs at hw
    · exact absurd hw List.not_mem_nil
    · rcases List.mem_cons.mp hw with rfl | hw
      · exact Nat.lt_succ_self _
      · exact (ih hw).trans (Nat.lt_succ_self _)

theorem map_eq_ok {x : Except Fault (List Written)} {f : List Written → List Written}
    {log : List Written} (h : x.map f = .ok log) : ∃ log', x = .ok log' ∧ f log' = log := by
  cases x with
  | error e => cases h
  | ok log' => exact ⟨log', rfl, Except.ok.inj h⟩

/-- Only lines of the table are written. -/
theorem interpret_lt {ls : List Line} {log : List Written}
    (h : interpret threshold hex ls = .ok log) {w : Written} (hw : w ∈ log) : w.1 < ls.length := by
  induction hn : ls.length using Nat.strongRecOn generalizing ls log with
  | _ n ih =>
    cases ls with
    | nil =>
      obtain rfl : log = [] := (Except.ok.inj h).symm
      exact absurd hw List.not_mem_nil
    | cons l rest =>
      rw [List.length_cons] at hn
      rcases UInt32.lt_or_le l.1 threshold with hlt | hge
      · rw [interpret_pair hlt] at h
        obtain ⟨log', hlog, rfl⟩ := map_eq_ok h
        rcases List.mem_cons.mp hw with rfl | hw
        · show rest.length < n
          omega
        · have := ih rest.length (by omega) hlog hw rfl
          omega
      · by_cases hnil : rest = []
        · subst hnil
          rw [interpret_last hge] at h
          cases h
        · have hd := discard_length_le rest
          have ht := taken_length_lt hnil
          cases hc : checkCondition l.1 hex with
          | false =>
            rw [interpret_reject hge hc hnil] at h
            have := ih _ (by omega) h hw rfl
            omega
          | true =>
            rw [interpret_accept hge hc hnil] at h
            obtain ⟨log', hlog, rfl⟩ := map_eq_ok h
            rcases List.mem_append.mp hw with hw | hw
            · have := configure_lt hw
              omega
            · have := ih _ (by omega) hlog hw rfl
              omega

/-- A start line is never written. -/
theorem interpret_start_lt {l : Line} (hge : threshold ≤ l.1) {rest : List Line}
    {log : List Written} (h : interpret threshold hex (l :: rest) = .ok log) {w : Written}
    (hw : w ∈ log) : w.1 < rest.length := by
  by_cases hnil : rest = []
  · subst hnil
    rw [interpret_last hge] at h
    cases h
  · have hd := discard_length_le rest
    have ht := taken_length_lt hnil
    cases hc : checkCondition l.1 hex with
    | false =>
      rw [interpret_reject hge hc hnil] at h
      exact (interpret_lt h hw).trans_le hd
    | true =>
      rw [interpret_accept hge hc hnil] at h
      obtain ⟨log', hlog, rfl⟩ := map_eq_ok h
      rcases List.mem_append.mp hw with hw | hw
      · exact configure_lt hw
      · exact (interpret_lt hlog hw).trans ht

end loops

/-! ## Blocks -/

section blocks

variable {threshold hex : UInt32}

theorem discard_append {ls : List Line} (hls : ∀ l ∈ ls, isMark l.2 = false) {rest : List Line}
    (hne : rest ≠ []) : discard (ls ++ rest) = discard rest := by
  induction ls with
  | nil => rfl
  | cons l ls ih =>
    have hl := hls l List.mem_cons_self
    rw [List.cons_append, discard, hl, Bool.false_or, if_neg (by simp [hne])]
    exact ih fun x hx => hls x (List.mem_cons_of_mem l hx)

theorem configure_append {ls : List Line} (hls : ∀ l ∈ ls, isMark l.2 = false)
    {rest : List Line} (hne : rest ≠ []) :
    configure (ls ++ rest) =
      (place ls rest.length ++ (configure rest).1, (configure rest).2) := by
  induction ls with
  | nil => rfl
  | cons l ls ih =>
    have hl := hls l List.mem_cons_self
    rw [List.cons_append, configure, hl, Bool.false_or, if_neg (by simp [hne]),
      ih fun x hx => hls x (List.mem_cons_of_mem l hx), List.length_append]
    rfl

theorem skipToEnd_append {ls : List Line} (hls : ∀ l ∈ ls, l.2 ≠ endMark) {rest : List Line}
    (hne : rest ≠ []) : skipToEnd (ls ++ rest) = skipToEnd rest := by
  induction ls with
  | nil => rfl
  | cons l ls ih =>
    have hl := hls l List.mem_cons_self
    rw [List.cons_append, skipToEnd, if_neg (by simp [hl, hne])]
    exact ih fun x hx => hls x (List.mem_cons_of_mem l hx)

/-- A line with a mark ends a branch. -/
theorem discard_mark {l : Line} (h : isMark l.2 = true) (rest : List Line) :
    discard (l :: rest) = l :: rest := by rw [discard, h, Bool.true_or, if_pos rfl]

theorem configure_mark {l : Line} (h : isMark l.2 = true) (rest : List Line) :
    configure (l :: rest) = ([], l :: rest) := by rw [configure, h, Bool.true_or, if_pos rfl]

theorem isMark_of_mem {v : UInt32} (h : v ∈ [endMark, 0xCDEF, 0xCDCD]) : isMark v = true := by
  rw [List.mem_cons, List.mem_cons, List.mem_singleton] at h
  obtain rfl | rfl | rfl := h <;> decide

theorem ne_endMark {v : UInt32} (h : isMark v = false) : v ≠ endMark := by
  rintro rfl
  exact absurd h (by decide)

/-- One branch with a mark behind it. -/
theorem interpret_branch {c v : UInt32} (hge : threshold ≤ c) {ls : List Line}
    (hls : ∀ l ∈ ls, isMark l.2 = false) {m : Line} (hm : isMark m.2 = true)
    (rest : List Line) :
    interpret threshold hex ((c, v) :: (ls ++ m :: rest)) =
      if checkCondition c hex then
        (interpret threshold hex (skipToEnd (m :: rest)).tail).map
          (place ls (m :: rest).length ++ ·)
      else interpret threshold hex (m :: rest) := by
  have hne : ls ++ m :: rest ≠ [] := List.append_ne_nil_of_right_ne_nil _ (List.cons_ne_nil _ _)
  cases hc : checkCondition c hex with
  | false =>
    rw [interpret_reject hge hc hne, discard_append hls (List.cons_ne_nil _ _), discard_mark hm]
    rfl
  | true =>
    rw [interpret_accept hge hc hne, configure_append hls (List.cons_ne_nil _ _), configure_mark hm,
      List.append_nil]
    rfl

theorem restLines_ne_nil (bs : List Branch) (els : Option (List Line)) (e : UInt32) :
    restLines bs els e ≠ [] := by
  cases bs with
  | nil => cases els <;> exact List.cons_ne_nil _ _
  | cons b bs => exact List.cons_ne_nil _ _

/-- The lines behind a branch start with a mark. -/
theorem restLines_head (bs : List Branch) (els : Option (List Line)) (e : UInt32) :
    ∃ m rest, restLines bs els e = m :: rest ∧ isMark m.2 = true := by
  cases bs with
  | nil => cases els <;> exact ⟨_, _, rfl, isMark_of_mem (by simp)⟩
  | cons b bs => exact ⟨_, _, rfl, isMark_of_mem (by simp)⟩

variable {els : Option (List Line)} (hels : ∀ ls ∈ els, ∀ l ∈ ls, isMark l.2 = false)
  (e : UInt32) (rest : List Line)

include hels in
/-- The end line is found from every branch. -/
theorem skipToEnd_restLines {bs : List Branch}
    (hbs : ∀ b ∈ bs, ∀ l ∈ b.pairs, isMark l.2 = false) :
    (skipToEnd (restLines bs els e ++ rest)).tail = rest := by
  have hend : (skipToEnd ((e, endMark) :: rest)).tail = rest := by
    rw [skipToEnd, if_pos (by simp)]
    rfl
  have hskip : ∀ (c v : UInt32) (ls tail : List Line), v ≠ endMark →
      (∀ l ∈ ls, isMark l.2 = false) → tail ≠ [] →
      skipToEnd ((c, v) :: (ls ++ tail)) = skipToEnd tail := by
    intro c v ls tail hv hls hne
    rw [← List.cons_append]
    refine skipToEnd_append (fun l hl => ?_) hne
    rcases List.mem_cons.mp hl with rfl | hl
    · exact hv
    · exact ne_endMark (hls l hl)
  induction bs with
  | nil =>
    cases els with
    | none => exact hend
    | some ls =>
      rw [restLines, List.cons_append, List.append_assoc,
        hskip branchMark 0xCDCD ls ([(e, endMark)] ++ rest) (by decide) (hels ls rfl)
          (List.cons_ne_nil _ _)]
      exact hend
  | cons b bs ih =>
    rw [restLines, List.cons_append, List.append_assoc,
      hskip b.cond 0xCDEF b.pairs _ (by decide) (hbs b List.mem_cons_self)
        (List.append_ne_nil_of_left_ne_nil (restLines_ne_nil bs els e) _)]
    exact ih fun x hx => hbs x (List.mem_cons_of_mem b hx)

include hels in
/-- The first branch that is accepted is taken, then the else branch; without it the end line is
    taken for a start line. -/
theorem interpret_restLines (hthr : threshold ≤ branchMark) {bs : List Branch}
    (hge : ∀ b ∈ bs, branchMark ≤ b.cond) (hbs : ∀ b ∈ bs, ∀ l ∈ b.pairs, isMark l.2 = false) :
    interpret threshold hex (restLines bs els e ++ rest) =
      match chosen hex bs els with
      | some _ =>
        (interpret threshold hex rest).map (chosenLines hex els e rest.length bs ++ ·)
      | none => interpret threshold hex ((e, endMark) :: rest) := by
  have hbranch : ∀ (c v : UInt32) (ls tail : List Line), threshold ≤ c →
      (∀ l ∈ ls, isMark l.2 = false) → (∃ m r, tail = m :: r ∧ isMark m.2 = true) →
      (skipToEnd (tail ++ rest)).tail = rest →
      interpret threshold hex ((c, v) :: (ls ++ tail) ++ rest) =
        if checkCondition c hex then
          (interpret threshold hex rest).map (place ls (tail.length + rest.length) ++ ·)
        else interpret threshold hex (tail ++ rest) := by
    rintro c v ls tail hc hls ⟨m, r, rfl, hm⟩ hend
    rw [List.cons_append, List.append_assoc, List.cons_append, interpret_branch hc hls hm,
      ← List.cons_append, hend, List.length_append]
  induction bs with
  | nil =>
    cases els with
    | none => rfl
    | some ls =>
      rw [restLines, hbranch _ _ ls _ hthr (hels ls rfl) ⟨_, _, rfl, isMark_of_mem (by simp)⟩
        (@skipToEnd_restLines none (fun _ h => by cases h) e rest [] fun _ h => by cases h),
        if_pos (by rfl)]
      rfl
  | cons b bs ih =>
    have hbs' : ∀ b ∈ bs, ∀ l ∈ b.pairs, isMark l.2 = false := fun x hx =>
      hbs x (List.mem_cons_of_mem b hx)
    rw [restLines, hbranch _ _ b.pairs _
      (UInt32.le_trans hthr (hge b List.mem_cons_self)) (hbs b List.mem_cons_self)
      (restLines_head bs els e) (skipToEnd_restLines hels e rest hbs'),
      ih (fun x hx => hge x (List.mem_cons_of_mem b hx)) hbs', chosen, chosenLines]
    split_ifs <;> rfl

end blocks

/-! ## Tables -/

section tables

variable {threshold hex : UInt32}

theorem map_append_eq_ok {x : Except Fault (List Written)} {p q : List Written} :
    x.map (p ++ ·) = .ok (p ++ q) ↔ x = .ok q := by
  cases x with
  | error e => exact iff_of_false nofun nofun
  | ok log =>
    constructor
    · intro h
      rw [List.append_cancel_left (Except.ok.inj h)]
    · intro h
      rw [Except.ok.inj h]
      rfl

/-- The second word of a start line is not read. -/
theorem interpret_start_congr {c : UInt32} (hge : threshold ≤ c) (v v' : UInt32)
    (rest : List Line) :
    interpret threshold hex ((c, v) :: rest) = interpret threshold hex ((c, v') :: rest) := by
  by_cases hnil : rest = []
  · subst hnil
    rw [interpret_last hge, interpret_last hge]
  · cases hc : checkCondition c hex with
    | false => rw [interpret_reject hge hc hnil, interpret_reject hge hc hnil]
    | true => rw [interpret_accept hge hc hnil, interpret_accept hge hc hnil]

theorem chosenLines_eq (els : Option (List Line)) (e : UInt32) (m : ℕ) (bs : List Branch) :
    ∃ k, m < k ∧ chosenLines hex els e m bs = place ((chosen hex bs els).getD []) k := by
  induction bs with
  | nil =>
    cases els with
    | none => exact ⟨m + 1, Nat.lt_succ_self m, rfl⟩
    | some ls => exact ⟨1 + m, by omega, rfl⟩
  | cons b bs ih =>
    rw [chosenLines, chosen]
    split_ifs
    · have := List.length_pos_iff.mpr (restLines_ne_nil bs els e)
      exact ⟨_, by omega, rfl⟩
    · exact ih

theorem place_eq_nil {ls : List Line} {m : ℕ} : place ls m = [] ↔ ls = [] := by
  cases ls with
  | nil => exact iff_of_true rfl rfl
  | cons l ls => exact iff_of_false (List.cons_ne_nil _ _) (List.cons_ne_nil _ _)

/-- The pairs are in the block, behind its first line. -/
theorem chosenLines_lt {els : Option (List Line)} {e : UInt32} {m : ℕ} {bs : List Branch}
    {w : Written} (hw : w ∈ chosenLines hex els e m bs) :
    w.1 + 1 < (restLines bs els e).length + m := by
  induction bs with
  | nil =>
    cases els with
    | none => exact absurd hw List.not_mem_nil
    | some ls =>
      have := place_lt hw
      rw [restLines, List.length_cons, List.length_append, List.length_singleton]
      omega
  | cons b bs ih =>
    rw [restLines, List.length_cons, List.length_append]
    rw [chosenLines] at hw
    split_ifs at hw
    · have := place_lt hw
      omega
    · have := ih hw
      omega

theorem block_length (b : Block) (t : List Item) :
    (tableLines (.block b :: t)).length =
      (restLines (b.first :: b.elseIfs) b.els b.endCond).length + (tableLines t).length := by
  rw [tableLines, List.length_append]
  rfl

theorem expected_lt {t : List Item} {w : Written} (hw : w ∈ expected hex t) :
    w.1 < (tableLines t).length := by
  induction t with
  | nil => exact absurd hw List.not_mem_nil
  | cons item t ih =>
    cases item with
    | pair l h =>
      rw [tableLines, List.length_append]
      rcases List.mem_cons.mp hw with rfl | hw
      · show (tableLines t).length < 1 + (tableLines t).length
        omega
      · have := ih hw
        omega
    | block b =>
      rw [block_length]
      rcases List.mem_append.mp hw with hw | hw
      · have := chosenLines_lt hw
        omega
      · have := ih hw
        omega

theorem tableLines_ne_nil {item : Item} {t : List Item} : tableLines (item :: t) ≠ [] := by
  cases item <;> exact List.cons_ne_nil _ _

/-- If the end line is taken for a branch that is accepted, the last pair of the table is
    forgotten, or a pair whose value is a mark, or the first line of a block is written. -/
theorem configure_ne_expected {t : List Item} (hne : t ≠ []) (log : List Written)
    (hlog : ∀ w ∈ log, w.1 + 1 < (configure (tableLines t)).2.length) :
    (configure (tableLines t)).1 ++ log ≠ expected hex t := by
  induction t with
  | nil => exact absurd rfl hne
  | cons item t ih =>
    cases item with
    | pair l h =>
      have hlines : tableLines (.pair l h :: t) = l :: tableLines t := rfl
      rw [hlines, configure] at hlog ⊢
      by_cases hstop : (isMark l.2 || (tableLines t).isEmpty) = true
      · rw [if_pos hstop] at hlog ⊢
        intro heq
        have hmem : ((tableLines t).length, l) ∈ log := by
          rw [List.nil_append] at heq
          rw [heq]
          exact List.mem_cons_self
        exact Nat.lt_irrefl _ (hlog _ hmem)
      · rw [if_neg hstop] at hlog ⊢
        have ht : t ≠ [] := by
          rintro rfl
          exact hstop (Bool.or_eq_true_iff.mpr (.inr rfl))
        intro heq
        exact ih ht hlog (List.cons.inj heq).2
    | block b =>
      have hlines : tableLines (.block b :: t) =
          (b.first.cond, b.tag) :: (b.first.pairs ++ b.restLines ++ tableLines t) := rfl
      have hrest : b.first.pairs ++ b.restLines ++ tableLines t ≠ [] :=
        List.append_ne_nil_of_left_ne_nil
          (List.append_ne_nil_of_right_ne_nil _ (restLines_ne_nil _ _ _)) _
      intro heq
      have hmem : ((b.first.pairs ++ b.restLines ++ tableLines t).length,
          (b.first.cond, b.tag)) ∈ expected hex (.block b :: t) := by
        have hgo : ¬ (b.first.pairs ++ b.restLines ++ tableLines t).isEmpty = true :=
          fun hempty => hrest (List.isEmpty_iff.mp hempty)
        rw [← heq, hlines, configure, b.tag_unmarked, Bool.false_or, if_neg hgo]
        exact List.mem_append_left _ List.mem_cons_self
      rcases List.mem_append.mp hmem with hmem | hmem
      · have hlt := chosenLines_lt hmem
        have hlen := block_length b t
        rw [hlines, List.length_cons] at hlen
        dsimp only at hlt
        omega
      · have hlt := expected_lt hmem
        simp only [List.length_append] at hlt
        omega

/-- What is said of the rest of the table, read as it is and behind an end line. -/
structure TableIff (threshold hex : UInt32) (t : List Item) : Prop where
  plain : interpret threshold hex (tableLines t) = .ok (expected hex t) ↔
    Sound threshold hex false t
  afterEnd : ∀ e, interpret threshold hex ((e, endMark) :: tableLines t) = .ok (expected hex t) ↔
    threshold ≤ e ∧ checkCondition e hex = false ∧ Sound threshold hex true t

/-- The branches of a block and what follows them. -/
theorem TableIff.restLines {t : List Item} (h : TableIff threshold hex t)
    (hthr : threshold ≤ branchMark) {bs : List Branch} {els : Option (List Line)} (e : UInt32)
    (hels : ∀ ls ∈ els, ∀ l ∈ ls, isMark l.2 = false) (hge : ∀ b ∈ bs, branchMark ≤ b.cond)
    (hbs : ∀ b ∈ bs, ∀ l ∈ b.pairs, isMark l.2 = false) :
    interpret threshold hex (Phy.restLines bs els e ++ tableLines t) =
        .ok (chosenLines hex els e (tableLines t).length bs ++ expected hex t) ↔
      match chosen hex bs els with
      | some _ => Sound threshold hex false t
      | none => threshold ≤ e ∧ checkCondition e hex = false ∧ Sound threshold hex true t := by
  rw [interpret_restLines hels e _ hthr hge hbs]
  obtain ⟨k, -, hk⟩ := @chosenLines_eq hex els e (tableLines t).length bs
  cases hc : chosen hex bs els with
  | some ls => exact map_append_eq_ok.trans h.plain
  | none =>
    rw [hk, hc]
    exact h.afterEnd e

/-- Behind an end line that is rejected as a start line. -/
theorem afterEnd_of_discard {t : List Item} {e : UInt32}
    (h : t ≠ [] → (interpret threshold hex (discard (tableLines t)) = .ok (expected hex t) ↔
      Sound threshold hex true t)) :
    interpret threshold hex ((e, endMark) :: tableLines t) = .ok (expected hex t) ↔
      threshold ≤ e ∧ checkCondition e hex = false ∧ Sound threshold hex true t := by
  rcases UInt32.lt_or_le e threshold with hlt | hge
  · refine iff_of_false (fun heq => ?_) fun hc => UInt32.not_le.mpr hlt hc.1
    rw [interpret_pair hlt] at heq
    obtain ⟨log, -, hlog⟩ := map_eq_ok heq
    have hmem : ((tableLines t).length, (e, endMark)) ∈ expected hex t :=
      hlog ▸ List.mem_cons_self
    exact Nat.lt_irrefl _ (expected_lt hmem)
  · by_cases hnil : t = []
    · subst hnil
      refine iff_of_false (fun heq => ?_) fun hc => by cases hc.2.2
      rw [tableLines, interpret_last hge] at heq
      cases heq
    · have hne : tableLines t ≠ [] := by
        obtain ⟨item, t', rfl⟩ := List.exists_cons_of_ne_nil hnil
        exact tableLines_ne_nil
      cases hc : checkCondition e hex with
      | true =>
        refine iff_of_false (fun heq => ?_) fun hc => by cases hc.2.1
        rw [interpret_accept hge hc hne] at heq
        obtain ⟨log, hrun, hlog⟩ := map_eq_ok heq
        refine configure_ne_expected hnil log (fun w hw => ?_) hlog
        have hlt := interpret_lt hrun hw
        have hskip := skipToEnd_length_le (configure (tableLines t)).2
        rw [List.length_tail] at hlt
        omega
      | false =>
        rw [interpret_reject hge hc hne, h hnil]
        exact ⟨fun hs => ⟨hge, rfl, hs⟩, fun hs => hs.2.2⟩

theorem TableIff.pairPlain {t : List Item} (h : TableIff threshold hex t) (l : Line)
    (hl : l.1 < branchMark) :
    interpret threshold hex (l :: tableLines t) = .ok (expected hex (.pair l hl :: t)) ↔
      l.1 < threshold ∧ Sound threshold hex false t := by
  rcases UInt32.lt_or_le l.1 threshold with hlt | hge
  · rw [interpret_pair hlt, and_iff_right hlt, ← h.plain]
    exact @map_append_eq_ok _ [((tableLines t).length, l)] _
  · refine iff_of_false (fun heq => ?_) fun hc => UInt32.not_le.mpr hc.1 hge
    exact Nat.lt_irrefl _ (interpret_start_lt hge heq List.mem_cons_self)

theorem TableIff.pair {t : List Item} (h : TableIff threshold hex t) (l : Line)
    (hl : l.1 < branchMark) : TableIff threshold hex (.pair l hl :: t) := by
  have hlines : tableLines (.pair l hl :: t) = l :: tableLines t := rfl
  have hplain := h.pairPlain l hl
  refine ⟨hplain.trans ?_, fun e => afterEnd_of_discard fun _ => ?_⟩
  · exact ⟨fun h => ⟨fun hc => absurd hc Bool.false_ne_true, h⟩, fun h => h.2⟩
  · rw [hlines, discard]
    by_cases hstop : (isMark l.2 || (tableLines t).isEmpty) = true
    · rw [if_pos hstop, hplain]
      have hstop' : isMark l.2 = true ∨ t = [] := by
        refine (Bool.or_eq_true_iff.mp hstop).imp_right fun hempty => ?_
        by_contra hne
        obtain ⟨item, t', rfl⟩ := List.exists_cons_of_ne_nil hne
        exact tableLines_ne_nil (List.isEmpty_iff.mp hempty)
      exact ⟨fun h => ⟨fun _ => hstop', h⟩, fun h => h.2⟩
    · rw [if_neg hstop]
      refine iff_of_false (fun heq => ?_) fun hc => hstop ?_
      · have hlt := (interpret_lt heq List.mem_cons_self).trans_le (discard_length_le _)
        exact Nat.lt_irrefl _ hlt
      · rcases hc.1 rfl with hmark | rfl
        · rw [hmark, Bool.true_or]
        · exact Bool.or_eq_true_iff.mpr (.inr rfl)

theorem tableLines_block (b : Block) (t : List Item) :
    tableLines (.block b :: t) =
      (b.first.cond, b.tag) :: (b.first.pairs ++ (b.restLines ++ tableLines t)) := by
  rw [← List.append_assoc]
  rfl

/-- The first line of a block and the pairs of its first branch are skipped. -/
theorem discard_block (b : Block) (t : List Item) :
    discard (tableLines (.block b :: t)) = b.restLines ++ tableLines t := by
  obtain ⟨m, r, hm, hmark⟩ := restLines_head b.elseIfs b.els b.endCond
  have hcons : b.restLines ++ tableLines t = m :: (r ++ tableLines t) := by
    rw [Block.restLines, hm, List.cons_append]
  rw [tableLines_block, discard, b.tag_unmarked, Bool.false_or, if_neg (by simp [hcons]),
    discard_append (b.unmarked b.first List.mem_cons_self) (by simp [hcons]), hcons,
    discard_mark hmark]

theorem Block.elseIfs_ge (b : Block) : ∀ x ∈ b.elseIfs, branchMark ≤ x.cond :=
  fun x hx => b.cond_ge x (List.mem_cons_of_mem _ hx)

theorem Block.elseIfs_unmarked (b : Block) : ∀ x ∈ b.elseIfs, ∀ l ∈ x.pairs, isMark l.2 = false :=
  fun x hx => b.unmarked x (List.mem_cons_of_mem _ hx)

/-- From the second branch on the pairs of the first are not written. -/
theorem firstPairs_nil {b : Block} {t : List Item}
    (h : interpret threshold hex (b.restLines ++ tableLines t) =
      .ok (place b.first.pairs (b.restLines.length + (tableLines t).length) ++ expected hex t)) :
    b.first.pairs = [] := by
  by_contra hpairs
  obtain ⟨w, hw⟩ := List.exists_mem_of_ne_nil _
    (fun h => hpairs (place_eq_nil.mp h) :
      place b.first.pairs (b.restLines.length + (tableLines t).length) ≠ [])
  have hlo := (place_lt hw).1
  have hhi := interpret_lt h (List.mem_append_left _ hw)
  rw [List.length_append] at hhi
  omega

/-- If nothing of a block is written, the branch that is taken from the second on is empty. -/
theorem chosen_nil (hthr : threshold ≤ branchMark) {b : Block} {t : List Item}
    (h : interpret threshold hex (b.restLines ++ tableLines t) = .ok (expected hex t)) :
    (chosen hex b.elseIfs b.els).getD [] = [] := by
  by_contra hother
  obtain ⟨k, hk, hplace⟩ := @chosenLines_eq hex b.els b.endCond (tableLines t).length b.elseIfs
  rw [Block.restLines,
    interpret_restLines b.els_unmarked b.endCond _ hthr b.elseIfs_ge b.elseIfs_unmarked] at h
  cases hch : chosen hex b.elseIfs b.els with
  | none => exact hother (by rw [hch]; rfl)
  | some ls =>
    rw [hch] at h hother hplace
    obtain ⟨log, -, hlog⟩ := map_eq_ok h
    have hne : chosenLines hex b.els b.endCond (tableLines t).length b.elseIfs ≠ [] := by
      rw [hplace]
      exact fun h => hother (place_eq_nil.mp h)
    obtain ⟨w, hw⟩ := List.exists_mem_of_ne_nil _ hne
    have hmem : w ∈ expected hex t := hlog ▸ List.mem_append_left _ hw
    have hlo := (place_lt (hplace ▸ hw)).1
    have hhi := expected_lt hmem
    omega

/-- Behind an end line only the first line of the block is lost when its first branch is
    rejected; else the block has to have nothing to write. -/
theorem TableIff.blockDiscard {t : List Item} (h : TableIff threshold hex t)
    (hthr : threshold ≤ branchMark) (b : Block) :
    interpret threshold hex (b.restLines ++ tableLines t) =
        .ok (expected hex (.block b :: t)) ↔ Sound threshold hex true (.block b :: t) := by
  have hrest := h.restLines hthr b.endCond b.els_unmarked b.elseIfs_ge b.elseIfs_unmarked
  have hsound : Sound threshold hex true (.block b :: t) ↔
      (checkCondition b.first.cond hex = true →
        b.first.pairs = [] ∧ (chosen hex b.elseIfs b.els).getD [] = []) ∧
      match chosen hex b.elseIfs b.els with
      | some _ => Sound threshold hex false t
      | none => threshold ≤ b.endCond ∧ checkCondition b.endCond hex = false ∧
          Sound threshold hex true t := by
    simp only [Sound, if_true, true_implies]
  rw [hsound, expected, chosenLines]
  cases hc : checkCondition b.first.cond hex with
  | false =>
    rw [if_neg Bool.false_ne_true]
    exact hrest.trans ⟨fun h => ⟨fun hc => absurd hc Bool.false_ne_true, h⟩, fun h => h.2⟩
  | true =>
    rw [if_pos rfl]
    by_cases hempty : b.first.pairs = [] ∧ (chosen hex b.elseIfs b.els).getD [] = []
    · obtain ⟨k, -, hk⟩ := @chosenLines_eq hex b.els b.endCond (tableLines t).length b.elseIfs
      rw [hk, place_eq_nil.mpr hempty.2] at hrest
      rw [place_eq_nil.mpr hempty.1]
      exact hrest.trans ⟨fun h => ⟨fun _ => hempty, h⟩, fun h => h.2⟩
    · refine iff_of_false (fun heq => hempty ?_) fun h => hempty (h.1 rfl)
      have hpairs := firstPairs_nil heq
      rw [hpairs, place, List.nil_append] at heq
      exact ⟨hpairs, chosen_nil hthr heq⟩

theorem TableIff.block {t : List Item} (h : TableIff threshold hex t)
    (hthr : threshold ≤ branchMark) (b : Block) : TableIff threshold hex (.block b :: t) := by
  have hfirst := b.cond_ge b.first List.mem_cons_self
  refine ⟨?_, fun e => afterEnd_of_discard fun _ => ?_⟩
  · have hall := h.restLines hthr b.endCond b.els_unmarked b.cond_ge b.unmarked
    rw [tableLines_block, interpret_start_congr (UInt32.le_trans hthr hfirst) b.tag 0xCDEF,
      ← List.append_assoc]
    refine hall.trans ?_
    simp only [Sound, Bool.false_eq_true, if_false, false_implies, true_and]
  · rw [discard_block]
    exact h.blockDiscard hthr b

theorem tableIff (hthr : threshold ≤ branchMark) (t : List Item) : TableIff threshold hex t := by
  induction t with
  | nil =>
    exact
      { plain := iff_of_true interpret_nil rfl
        afterEnd := fun e => afterEnd_of_discard fun hne => absurd rfl hne }
  | cons item t ih =>
    cases item with
    | pair l hl => exact ih.pair l hl
    | block b => exact ih.block hthr b

end tables

/-! ## The copies -/

theorem Interpreter.threshold_le (k : Interpreter) : k.threshold ≤ branchMark := by
  cases k <;> decide

/-- Every copy ends on every list of lines. -/
theorem Interpreter.run_ne_timeout (k : Interpreter) (hex : UInt32) (table : List Line) :
    k.run hex table ≠ .error .timeout := by
  have hloop : interpret k.threshold hex table ≠ .error .timeout := interpret_ne_timeout table
  rw [Interpreter.run]
  intro h
  cases hlog : interpret k.threshold hex table with
  | error e =>
    rw [hlog] at h hloop
    exact hloop (congrArg _ (Except.error.inj h))
  | ok log =>
    rw [hlog] at h
    cases h

/-- On a sound table the hardware gets the chosen lines in the order of the table. -/
theorem Interpreter.run_of_sound {k : Interpreter} {hex : UInt32} {items : List Item}
    (h : Sound k.threshold hex false items) :
    k.run hex (tableLines items) = .ok ((expected hex items).flatMap fun w => k.config w.2) := by
  have hok : interpret k.threshold hex (tableLines items) = .ok (expected hex items) :=
    (tableIff k.threshold_le items).plain.mpr h
  rw [Interpreter.run, hok]
  rfl

/-- A copy writes what is meant, and reads nothing else, exactly for the sound tables. -/
theorem interpret_eq_iff (k : Interpreter) (hex : UInt32) (items : List Item) :
    interpret k.threshold hex (tableLines items) = .ok (expected hex items) ↔
      Sound k.threshold hex false items :=
  (tableIff k.threshold_le items).plain

/-- A block of one branch, as in the table of radio A of the 8821A but without its else line. -/
def blockWithoutElse : Block where
  first := ⟨0xFF0F0740, [(0x18, 0x1712A)]⟩
  tag := 0xABCD
  elseIfs := []
  els := none
  endCond := 0xFF0F0740
  cond_ge := by decide
  tag_unmarked := by decide
  unmarked := by
    rintro b hb l hl
    obtain rfl := List.mem_singleton.mp hb
    obtain rfl := List.mem_singleton.mp hl
    decide
  els_unmarked := nofun

/-- The pairs behind a block without an else line are lost. -/
theorem blockWithoutElse_pairs_lost : ¬ ∀ (k : Interpreter) (hex : UInt32) (items : List Item),
    interpret k.threshold hex (tableLines items) = .ok (expected hex items) := by
  intro h
  have hrun := h .radioA8821 (boardHex 0)
    [.block blockWithoutElse, .pair (0xEF, 0) (by decide), .pair (0x18, 1) (by decide)]
  have hlost : interpret Interpreter.radioA8821.threshold (boardHex 0)
      (tableLines [.block blockWithoutElse, .pair (0xEF, 0) (by decide),
        .pair (0x18, 1) (by decide)]) = .ok [(0, (0x18, 1))] := by
    decide
  rw [hlost] at hrun
  exact absurd hrun (by decide)

end Rtl8821au.Phy
