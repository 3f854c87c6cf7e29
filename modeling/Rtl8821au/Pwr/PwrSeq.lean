import Mathlib.Tactic.SplitIfs
import Mathlib.Algebra.BigOperators.Group.List.Basic
import Mathlib.Algebra.GroupWithZero.Nat
import Rtl8821au.Lib.Checked
import Rtl8821au.Lib.RegIo

/-!
# The interpreter of power sequences

`rtw_hal_pwrseqcmdparsing` (`hal/HalPwrSeqCmd.c`, lines 52–131) on any table that ends in an end
command, for any answers of the chip, against a meaning of the commands in which every polling
command has a budget of its own.

* `pollLoop_eq`: a polling loop with what is left of the budget.
* `parsing_counts`: what a run that ends has counted.
* `interpreter_right_iff`: when the interpreter does what the commands mean.

**What goes wrong.** `pollingCount` is set to 0 once for the table and not for each polling
command, so the reads of all of them together are bounded by `maxPollingCnt`: a poll can fail
because earlier ones were slow. `AryIdx` has 32 bits.
-/

namespace Rtl8821au.Pwr.PwrSeq

open Checked RegIo

/-! ## Model -/

/-- `struct wlan_pwr_cfg` (`HalPwrSeqCmd.h`) without `base`, which is not looked at. -/
structure WlanPwrCfg where
  offset : UInt16
  cutMsk : BitVec 8
  fabMsk : BitVec 4
  interfaceMsk : BitVec 4
  cmd : BitVec 4
  msk : BitVec 8
  value : BitVec 8
  deriving DecidableEq, Repr

def pwrCmdRead : BitVec 4 := 0
def pwrCmdWrite : BitVec 4 := 1
def pwrCmdPolling : BitVec 4 := 2
def pwrCmdDelay : BitVec 4 := 3
def pwrCmdEnd : BitVec 4 := 4

/-- `PWRSEQ_DELAY_US`. -/
def pwrseqDelayUs : BitVec 8 := 0

/-- `cut_version`, `fabversion` and `interface_type`. -/
structure Chip where
  cutVersion : BitVec 8
  fabversion : BitVec 8
  interfaceType : BitVec 8
  deriving DecidableEq, Repr

/-- The condition of lines 67–69. -/
def Matches (ch : Chip) (c : WlanPwrCfg) : Prop :=
  c.fabMsk.setWidth 8 &&& ch.fabversion ≠ 0 ∧ c.cutMsk &&& ch.cutVersion ≠ 0 ∧
    c.interfaceMsk.setWidth 8 &&& ch.interfaceType ≠ 0

instance (ch : Chip) (c : WlanPwrCfg) : Decidable (Matches ch c) :=
  inferInstanceAs (Decidable (_ ∧ _))

/-- What the interpreter does to the chip, and the delays in between. -/
inductive Access where
  | read (offset : UInt16) (value : BitVec 8)
  | write (offset : UInt16) (value : BitVec 8)
  | udelay (usecs : ℕ)
  deriving DecidableEq, Repr

abbrev State := Io Access

/-- One more access. -/
def log (io : State) (a : Access) : State := { io with log := io.log ++ [a] }

variable (reads : ℕ → BitVec 8)

/-- `rtl_read_byte` returns the next answer of the chip. -/
def rtlReadByte (offset : UInt16) (io : State) : State :=
  ⟨io.pos + 1, io.log ++ [.read offset (reads io.pos)]⟩

def maxPollingCnt : ℕ := 5000

/-- The value read is the one polled for. -/
def Hit (c : WlanPwrCfg) (pos : ℕ) : Prop := reads pos &&& c.msk = c.value &&& c.msk

instance (c : WlanPwrCfg) (pos : ℕ) : Decidable (Hit reads c pos) :=
  inferInstanceAs (Decidable (_ = _))

/-- A read of the register that is polled, and the delay if it is not yet as it should be. -/
def pollOnce (c : WlanPwrCfg) (io : State) : State :=
  let io' := rtlReadByte reads c.offset io
  if Hit reads c io.pos then io' else log io' (.udelay 10)

/-- The loop of lines 91–105, with `pollingCount`; without one it returns `false`. -/
def pollLoop (c : WlanPwrCfg) : ℕ → ℕ → State → Except Fault (Option ℕ × State)
  | 0, _, _ => .error .timeout
  | fuel + 1, pollingCount, io =>
    let io' := pollOnce reads c io
    if maxPollingCnt < pollingCount then .ok (none, io')
    else if Hit reads c io.pos then .ok (some (pollingCount + 1), io')
    else pollLoop c fuel (pollingCount + 1) io'

/-- The byte that is written (lines 80–81). -/
def merged (c : WlanPwrCfg) (value : BitVec 8) : BitVec 8 :=
  (value &&& ~~~c.msk) ||| (c.value &&& c.msk)

/-- Lines 74–86. -/
def writeCmd (c : WlanPwrCfg) (io : State) : State :=
  log (rtlReadByte reads c.offset io) (.write c.offset (merged c (reads io.pos)))

/-- Lines 109–114. -/
def delayCmd (c : WlanPwrCfg) (io : State) : State :=
  if c.value = pwrseqDelayUs then log io (.udelay c.offset.toNat)
  else log io (.udelay (c.offset.toNat * 1000))

/-- The loop over the table, with `AryIdx` and `pollingCount`. -/
def cmdLoop (ch : Chip) (pwrcfgcmd : List WlanPwrCfg) :
    ℕ → ℕ → ℕ → State → Except Fault (Bool × State)
  | 0, _, _, _ => .error .timeout
  | fuel + 1, aryIdx, pollingCount, io =>
    match pwrcfgcmd[aryIdx]? with
    | none => .error .beyond
    | some c =>
      let next := (aryIdx + 1) % 2 ^ 32
      if Matches ch c then
        if c.cmd = pwrCmdWrite then
          cmdLoop ch pwrcfgcmd fuel next pollingCount (writeCmd reads c io)
        else if c.cmd = pwrCmdPolling then
          match pollLoop reads c (maxPollingCnt + 2) pollingCount io with
          | .error e => .error e
          | .ok (none, io) => .ok (false, io)
          | .ok (some pollingCount, io) => cmdLoop ch pwrcfgcmd fuel next pollingCount io
        else if c.cmd = pwrCmdDelay then
          cmdLoop ch pwrcfgcmd fuel next pollingCount (delayCmd c io)
        else if c.cmd = pwrCmdEnd then .ok (true, io)
        else cmdLoop ch pwrcfgcmd fuel next pollingCount io
      else cmdLoop ch pwrcfgcmd fuel next pollingCount io

/-- `rtw_hal_pwrseqcmdparsing`. -/
def rtwHalPwrseqcmdparsing (ch : Chip) (pwrcfgcmd : List WlanPwrCfg) (fuel : ℕ) :
    Except Fault (Bool × State) :=
  cmdLoop reads ch pwrcfgcmd fuel 0 0 .start

/-! ## What the commands mean -/

/-- How often a polling command may read its register. -/
def allowed : ℕ := maxPollingCnt + 1

/-- How many of at most `n` reads are needed. -/
def firstHit (c : WlanPwrCfg) : ℕ → ℕ → Option ℕ
  | 0, _ => none
  | n + 1, pos => if Hit reads c pos then some 1 else (firstHit c n (pos + 1)).map (· + 1)

/-- One command, for which a poll has all of its budget. -/
def command (c : WlanPwrCfg) (io : State) : Bool × State :=
  if c.cmd = pwrCmdWrite then (true, writeCmd reads c io)
  else if c.cmd = pwrCmdPolling then
    match firstHit reads c allowed io.pos with
    | some k => (true, (pollOnce reads c)^[k] io)
    | none => (false, (pollOnce reads c)^[allowed + 1] io)
  else if c.cmd = pwrCmdDelay then (true, delayCmd c io)
  else (true, io)

/-- One command after the other, until a poll fails. -/
def meant : List WlanPwrCfg → State → Bool × State
  | [], io => (true, io)
  | c :: cs, io =>
    if (command reads c io).1 then meant cs (command reads c io).2
    else (false, (command reads c io).2)

/-- The end command is meant for this chip. -/
def IsEnd (ch : Chip) (c : WlanPwrCfg) : Prop := Matches ch c ∧ c.cmd = pwrCmdEnd

/-- A polling command is. -/
def IsPoll (ch : Chip) (c : WlanPwrCfg) : Prop := Matches ch c ∧ c.cmd = pwrCmdPolling

instance (ch : Chip) (c : WlanPwrCfg) : Decidable (IsEnd ch c) :=
  inferInstanceAs (Decidable (_ ∧ _))

instance (ch : Chip) (c : WlanPwrCfg) : Decidable (IsPoll ch c) :=
  inferInstanceAs (Decidable (_ ∧ _))

/-- The commands for this chip before its first end command. -/
def live (ch : Chip) (t : List WlanPwrCfg) : List WlanPwrCfg :=
  (t.takeWhile (¬ IsEnd ch ·)).filter (Matches ch ·)

/-- The last command ends the sequence on this chip. -/
def EndsMatched (ch : Chip) (t : List WlanPwrCfg) : Prop :=
  ∃ c, t.getLast? = some c ∧ IsEnd ch c

/-- The interpreter ends inside the table and has done what the commands mean, and a write
    changes the bits of its mask only. -/
structure Right (ch : Chip) (t : List WlanPwrCfg) : Prop where
  asMeant : ∃ fuel, rtwHalPwrseqcmdparsing reads ch t fuel = .ok (meant reads (live ch t) .start)
  masked : ∀ c ∈ live ch t, ∀ v i, (merged c v).getLsbD i =
    if c.msk.getLsbD i then c.value.getLsbD i else v.getLsbD i

/-! ## When it is so -/

/-- How often each polling command reads its register, one time too many if in vain. -/
def waits : List WlanPwrCfg → State → List ℕ
  | [], _ => []
  | c :: cs, io =>
    if c.cmd = pwrCmdPolling then
      (firstHit reads c allowed io.pos).getD (allowed + 1) :: waits cs (command reads c io).2
    else waits cs (command reads c io).2

/-- All polls together succeed within the budget of one, or the first one fails; and the index
    does not wrap before. -/
def Timely (ch : Chip) (t : List WlanPwrCfg) : Prop :=
  t.findIdx (IsEnd ch ·) < 2 ^ 32 ∧ (waits reads (live ch t) .start).sum ≤ allowed ∨
    t.findIdx (IsPoll ch ·) < 2 ^ 32 ∧
      (waits reads (live ch t) .start).head? = some (allowed + 1)

/-! ## A polling loop -/

section poll

variable {reads} {c : WlanPwrCfg}

theorem pollOnce_pos (io : State) : (pollOnce reads c io).pos = io.pos + 1 := by
  rw [pollOnce]
  split_ifs
  · rfl
  · rfl

theorem firstHit_le {n pos k : ℕ} (h : firstHit reads c n pos = some k) : 0 < k ∧ k ≤ n := by
  induction n generalizing pos k with
  | zero => cases h
  | succ n ih =>
    rw [firstHit] at h
    split_ifs at h with hhit
    · obtain rfl := Option.some.inj h
      exact ⟨Nat.one_pos, Nat.succ_le_succ (Nat.zero_le n)⟩
    · obtain ⟨k', hk', rfl⟩ := Option.map_eq_some_iff.mp h
      exact ⟨Nat.succ_pos k', Nat.succ_le_succ (ih hk').2⟩

/-- A smaller budget is enough for what is found within it, and for nothing else. -/
theorem firstHit_of_le {m n pos : ℕ} (h : m ≤ n) :
    firstHit reads c m pos = (firstHit reads c n pos).filter (· ≤ m) := by
  induction m generalizing n pos with
  | zero =>
    cases hn : firstHit reads c n pos with
    | none => rfl
    | some k =>
      have hk : ¬ k ≤ 0 := Nat.not_le.mpr (firstHit_le hn).1
      rw [firstHit, Option.filter_some, if_neg (by rwa [decide_eq_true_eq])]
  | succ m ih =>
    obtain ⟨n, rfl⟩ : ∃ k, n = k + 1 := ⟨n - 1, by omega⟩
    rw [firstHit, firstHit]
    split_ifs with hhit
    · rw [Option.filter_some, if_pos (by simp)]
    · rw [ih (Nat.le_of_succ_le_succ h)]
      cases firstHit reads c n (pos + 1) with
      | none => rfl
      | some k =>
        by_cases hk : k ≤ m
        · rw [Option.map_some, Option.filter_some, Option.filter_some,
            if_pos (decide_eq_true hk), if_pos (decide_eq_true (Nat.succ_le_succ hk))]
          rfl
        · rw [Option.map_some, Option.filter_some, Option.filter_some,
            if_neg (by rwa [decide_eq_true_eq]),
            if_neg (by rw [decide_eq_true_eq]; omega)]
          rfl

/-- What is left of the budget is `maxPollingCnt + 1 - pollingCount` reads. -/
theorem pollLoop_eq {n pollingCount fuel : ℕ} (hn : pollingCount + n = allowed) (hf : n < fuel)
    (io : State) : pollLoop reads c fuel pollingCount io =
      match firstHit reads c n io.pos with
      | some k => .ok (some (pollingCount + k), (pollOnce reads c)^[k] io)
      | none => .ok (none, (pollOnce reads c)^[n + 1] io) := by
  rw [allowed] at hn
  induction n generalizing pollingCount fuel io with
  | zero =>
    obtain ⟨fuel, rfl⟩ : ∃ k, fuel = k + 1 := ⟨fuel - 1, by omega⟩
    rw [pollLoop, firstHit, if_pos (by omega)]
    rfl
  | succ n ih =>
    obtain ⟨fuel, rfl⟩ : ∃ k, fuel = k + 1 := ⟨fuel - 1, by omega⟩
    rw [pollLoop, firstHit, if_neg (by omega)]
    by_cases hhit : Hit reads c io.pos
    · rw [if_pos hhit, if_pos hhit]
      rfl
    · rw [if_neg hhit, if_neg hhit, ih (by omega) (Nat.lt_of_succ_lt_succ hf), pollOnce_pos]
      cases firstHit reads c n (io.pos + 1) with
      | none => rfl
      | some k =>
        dsimp only [Option.map_some]
        rw [Function.iterate_succ_apply, Nat.add_assoc, Nat.add_comm 1 k]

end poll

/-! ## A turn of the loop over the table -/

section turn

variable {reads} {ch : Chip} {t : List WlanPwrCfg} {c : WlanPwrCfg} {fuel aryIdx pollingCount : ℕ}
  {io : State}

theorem cmdLoop_skip (hc : t[aryIdx]? = some c) (hm : ¬ Matches ch c) :
    cmdLoop reads ch t (fuel + 1) aryIdx pollingCount io =
      cmdLoop reads ch t fuel ((aryIdx + 1) % 2 ^ 32) pollingCount io := by
  rw [cmdLoop, hc]
  exact if_neg hm

theorem cmdLoop_end (hc : t[aryIdx]? = some c) (hm : IsEnd ch c) :
    cmdLoop reads ch t (fuel + 1) aryIdx pollingCount io = .ok (true, io) := by
  rw [cmdLoop, hc]
  dsimp only
  rw [if_pos hm.1, hm.2, if_neg (by decide), if_neg (by decide), if_neg (by decide), if_pos rfl]

theorem cmdLoop_poll (hc : t[aryIdx]? = some c) (hm : IsPoll ch c) (hle : pollingCount ≤ allowed) :
    cmdLoop reads ch t (fuel + 1) aryIdx pollingCount io =
      match firstHit reads c (allowed - pollingCount) io.pos with
      | some k => cmdLoop reads ch t fuel ((aryIdx + 1) % 2 ^ 32) (pollingCount + k)
          ((pollOnce reads c)^[k] io)
      | none => .ok (false, (pollOnce reads c)^[allowed - pollingCount + 1] io) := by
  have hfuel : allowed - pollingCount < maxPollingCnt + 2 := by
    rw [allowed]
    omega
  rw [cmdLoop, hc]
  dsimp only
  rw [if_pos hm.1, hm.2, if_neg (by decide), if_pos rfl,
    pollLoop_eq (Nat.add_sub_cancel' hle) hfuel]
  cases firstHit reads c (allowed - pollingCount) io.pos with
  | none => rfl
  | some k => rfl

/-- A command that neither ends nor polls. -/
theorem command_plain (hp : c.cmd ≠ pwrCmdPolling) : (command reads c io).1 = true := by
  rw [command]
  split_ifs <;> rfl

theorem cmdLoop_plain (hc : t[aryIdx]? = some c) (hm : Matches ch c) (he : c.cmd ≠ pwrCmdEnd)
    (hp : c.cmd ≠ pwrCmdPolling) : cmdLoop reads ch t (fuel + 1) aryIdx pollingCount io =
      cmdLoop reads ch t fuel ((aryIdx + 1) % 2 ^ 32) pollingCount (command reads c io).2 := by
  rw [cmdLoop, hc]
  dsimp only
  rw [if_pos hm, if_neg hp, if_neg he, command]
  by_cases hw : c.cmd = pwrCmdWrite
  · rw [if_pos hw, if_pos hw]
  · rw [if_neg hw, if_neg hw, if_neg hp]
    by_cases hd : c.cmd = pwrCmdDelay
    · rw [if_pos hd, if_pos hd]
    · rw [if_neg hd, if_neg hd]

end turn

/-! ## What a run has counted -/

/-- The writes among the accesses. -/
def writesIn (l : List Access) : ℕ := l.countP fun a => match a with
  | .write _ _ => true
  | _ => false

/-- Of the reads so far, `n` belong to no write. -/
def Counted (io : State) (n : ℕ) : Prop := io.pos = writesIn io.log + n

section counted

variable {reads} {c : WlanPwrCfg} {io : State} {n : ℕ}

theorem writesIn_append (l l' : List Access) : writesIn (l ++ l') = writesIn l + writesIn l' :=
  List.countP_append

theorem Counted.unique {m : ℕ} (h : Counted io n) (h' : Counted io m) : n = m :=
  Nat.add_left_cancel (h.symm.trans h')

theorem Counted.rtlReadByte (h : Counted io n) (offset : UInt16) :
    Counted (rtlReadByte reads offset io) (n + 1) := by
  rw [Counted, PwrSeq.rtlReadByte]
  dsimp only
  rw [writesIn_append, h]
  rfl

theorem Counted.udelay (h : Counted io n) (usecs : ℕ) : Counted (log io (.udelay usecs)) n := by
  rw [Counted, log]
  dsimp only
  rw [writesIn_append, h]
  rfl

theorem Counted.pollOnce (h : Counted io n) : Counted (pollOnce reads c io) (n + 1) := by
  rw [PwrSeq.pollOnce]
  split_ifs
  · exact h.rtlReadByte _
  · exact (h.rtlReadByte _).udelay _

theorem Counted.polled (h : Counted io n) (k : ℕ) :
    Counted ((PwrSeq.pollOnce reads c)^[k] io) (n + k) := by
  induction k with
  | zero => exact h
  | succ k ih =>
    rw [Function.iterate_succ_apply']
    exact ih.pollOnce

theorem Counted.command (h : Counted io n) (hp : c.cmd ≠ pwrCmdPolling) :
    Counted (command reads c io).2 n := by
  rw [PwrSeq.command]
  split_ifs
  · have hread : (PwrSeq.rtlReadByte reads c.offset io).pos =
        writesIn (PwrSeq.rtlReadByte reads c.offset io).log + (n + 1) := h.rtlReadByte c.offset
    rw [Counted, writeCmd, log]
    dsimp only
    rw [hread, writesIn_append, show writesIn [.write c.offset _] = 1 from rfl]
    omega
  · rw [delayCmd]
    split_ifs
    · exact h.udelay _
    · exact h.udelay _
  · exact h

end counted

section runs

variable {reads} {ch : Chip} {t : List WlanPwrCfg}

/-- A run that ends with `true` has polled within the budget and come to an end command; one that
    ends with `false` has polled once more than allowed. -/
def Spent (ch : Chip) (t : List WlanPwrCfg) (r : Bool × State) : Prop :=
  (r.1 = true → (∃ n ≤ allowed, Counted r.2 n) ∧ ∃ i < 2 ^ 32, ∃ c, t[i]? = some c ∧ IsEnd ch c) ∧
    (r.1 = false → Counted r.2 (allowed + 1) ∧ ∃ i < 2 ^ 32, ∃ c, t[i]? = some c ∧ IsPoll ch c)

/-- Induction on the turns. -/
theorem parsing_counts {fuel aryIdx pollingCount : ℕ} {io : State} {r : Bool × State}
    (hidx : aryIdx < 2 ^ 32) (hle : pollingCount ≤ allowed) (hio : Counted io pollingCount)
    (h : cmdLoop reads ch t fuel aryIdx pollingCount io = .ok r) : Spent ch t r := by
  induction fuel generalizing aryIdx pollingCount io with
  | zero => cases h
  | succ fuel ih =>
    have hnext : (aryIdx + 1) % 2 ^ 32 < 2 ^ 32 := Nat.mod_lt _ (Nat.two_pow_pos 32)
    cases hc : t[aryIdx]? with
    | none =>
      rw [cmdLoop, hc] at h
      cases h
    | some c =>
      by_cases hm : Matches ch c
      · by_cases he : c.cmd = pwrCmdEnd
        · rw [cmdLoop_end hc ⟨hm, he⟩] at h
          obtain rfl := Except.ok.inj h
          exact ⟨fun _ => ⟨⟨pollingCount, hle, hio⟩, aryIdx, hidx, c, hc, hm, he⟩,
            fun hfalse => by cases hfalse⟩
        · by_cases hp : c.cmd = pwrCmdPolling
          · rw [cmdLoop_poll hc ⟨hm, hp⟩ hle] at h
            cases hhit : firstHit reads c (allowed - pollingCount) io.pos with
            | some k =>
              rw [hhit] at h
              have hk := (firstHit_le hhit).2
              exact ih hnext (by omega) (hio.polled k) h
            | none =>
              rw [hhit] at h
              obtain rfl := Except.ok.inj h
              refine ⟨fun htrue => (by cases htrue), fun _ => ⟨?_, aryIdx, hidx, c, hc, hm, hp⟩⟩
              have hsum : pollingCount + (allowed - pollingCount + 1) = allowed + 1 := by omega
              rw [← hsum]
              exact hio.polled (allowed - pollingCount + 1)
          · rw [cmdLoop_plain hc hm he hp] at h
            exact ih hnext hle (hio.command hp) h
      · rw [cmdLoop_skip hc hm] at h
        exact ih hnext hle hio h

theorem command_poll {c : WlanPwrCfg} (hp : c.cmd = pwrCmdPolling) (io : State) :
    command reads c io = match firstHit reads c allowed io.pos with
      | some k => (true, (pollOnce reads c)^[k] io)
      | none => (false, (pollOnce reads c)^[allowed + 1] io) := by
  rw [command, hp, if_neg (by decide), if_pos rfl]

/-- What the commands mean counts the waits; a failure after another poll counts more than a
    failure of the first one. -/
theorem meant_counts (cs : List WlanPwrCfg) {io : State} {n : ℕ} (hio : Counted io n) :
    ((meant reads cs io).1 = true →
      Counted (meant reads cs io).2 (n + (waits reads cs io).sum)) ∧
    ((meant reads cs io).1 = false →
      ∃ m, Counted (meant reads cs io).2 m ∧ n + allowed + 1 ≤ m ∧
        (m = n + allowed + 1 → (waits reads cs io).head? = some (allowed + 1))) := by
  induction cs generalizing io n with
  | nil => exact ⟨fun _ => hio, fun hfalse => by cases hfalse⟩
  | cons c cs ih =>
    by_cases hp : c.cmd = pwrCmdPolling
    · rw [meant, waits, if_pos hp, command_poll hp]
      cases hhit : firstHit reads c allowed io.pos with
      | some k =>
        have hk := (firstHit_le hhit).1
        obtain ⟨htrue, hfalse⟩ := ih (hio.polled k)
        dsimp only
        rw [if_pos rfl]
        constructor
        · intro h
          have hcount := htrue h
          rwa [Nat.add_assoc] at hcount
        · intro h
          obtain ⟨m, hm, hle, -⟩ := hfalse h
          exact ⟨m, hm, by omega, fun heq => by omega⟩
      | none =>
        dsimp only
        rw [if_neg Bool.false_ne_true]
        dsimp only
        constructor
        · intro h
          cases h
        · intro _
          refine ⟨n + (allowed + 1), hio.polled (allowed + 1), ?_, ?_⟩
          · exact Nat.le_of_eq (Nat.add_assoc _ _ _)
          · intro _
            rw [Option.getD_none, List.head?_cons]
    · rw [meant, waits, if_neg hp, if_pos (command_plain hp)]
      exact ih (hio.command hp)

end runs

/-! ## When the interpreter does what the commands mean -/

section main

variable {reads} {ch : Chip} {t : List WlanPwrCfg}

theorem live_skip {c : WlanPwrCfg} {l : List WlanPwrCfg} (hm : ¬ Matches ch c) :
    live ch (c :: l) = live ch l := by
  have hend : ¬ IsEnd ch c := fun h => hm h.1
  rw [live, List.takeWhile_cons_of_pos (by simpa using hend),
    List.filter_cons_of_neg (by simpa using hm)]
  rfl

theorem live_cons {c : WlanPwrCfg} {l : List WlanPwrCfg} (hm : Matches ch c)
    (he : c.cmd ≠ pwrCmdEnd) : live ch (c :: l) = c :: live ch l := by
  have hend : ¬ IsEnd ch c := fun h => he h.2
  rw [live, List.takeWhile_cons_of_pos (by simpa using hend),
    List.filter_cons_of_pos (by simpa using hm)]
  rfl

theorem live_end {c : WlanPwrCfg} {l : List WlanPwrCfg} (hm : IsEnd ch c) :
    live ch (c :: l) = [] := by
  rw [live, List.takeWhile_cons_of_neg (by simpa using hm)]
  rfl

/-- `Timely` for the rest of a table, with the polls that were made before. -/
def TimelyFrom (reads : ℕ → BitVec 8) (ch : Chip) (l : List WlanPwrCfg) (aryIdx pollingCount : ℕ)
    (io : State) : Prop :=
  aryIdx + l.findIdx (IsEnd ch ·) < 2 ^ 32 ∧
      pollingCount + (waits reads (live ch l) io).sum ≤ allowed ∨
    pollingCount = 0 ∧ aryIdx + l.findIdx (IsPoll ch ·) < 2 ^ 32 ∧
      (waits reads (live ch l) io).head? = some (allowed + 1)

/-- A command that is neither the end nor a poll leaves the rest as timely as it was. -/
theorem TimelyFrom.tail {c : WlanPwrCfg} {l : List WlanPwrCfg} {aryIdx pollingCount : ℕ}
    {io io' : State} (h : TimelyFrom reads ch (c :: l) aryIdx pollingCount io)
    (he : ¬ IsEnd ch c) (hp : ¬ IsPoll ch c)
    (hw : waits reads (live ch (c :: l)) io = waits reads (live ch l) io') :
    aryIdx + 1 < 2 ^ 32 ∧ TimelyFrom reads ch l (aryIdx + 1) pollingCount io' := by
  rw [TimelyFrom, hw, List.findIdx_cons, List.findIdx_cons, decide_eq_false he,
    decide_eq_false hp] at h
  simp only [cond_false] at h
  rcases h with ⟨hidx, hsum⟩ | ⟨hzero, hidx, hhead⟩
  · exact ⟨by omega, .inl ⟨by omega, hsum⟩⟩
  · exact ⟨by omega, .inr ⟨hzero, by omega, hhead⟩⟩

/-- The rest of a table that is timely is run as it is meant. Induction on the rest. -/
theorem cmdLoop_meant {l : List WlanPwrCfg} {aryIdx pollingCount : ℕ} {io : State}
    (hl : t.drop aryIdx = l) (hend : ∃ c ∈ l, IsEnd ch c) (hle : pollingCount ≤ allowed)
    (h : TimelyFrom reads ch l aryIdx pollingCount io) :
    ∃ fuel, cmdLoop reads ch t fuel aryIdx pollingCount io = .ok (meant reads (live ch l) io) := by
  induction l generalizing aryIdx pollingCount io with
  | nil =>
    obtain ⟨_, hc, -⟩ := hend
    exact absurd hc List.not_mem_nil
  | cons c l ih =>
    have hc : t[aryIdx]? = some c := by
      rw [← List.head?_drop, hl]
      rfl
    have hdrop : t.drop (aryIdx + 1) = l := by
      rw [← List.tail_drop, hl]
      rfl
    by_cases he : IsEnd ch c
    · refine ⟨1, ?_⟩
      rw [cmdLoop_end hc he, live_end he]
      rfl
    · have hend' : ∃ c ∈ l, IsEnd ch c := by
        obtain ⟨d, hd, hde⟩ := hend
        rcases List.mem_cons.mp hd with rfl | hd
        · exact absurd hde he
        · exact ⟨d, hd, hde⟩
      by_cases hm : Matches ch c
      · have hcmd : c.cmd ≠ pwrCmdEnd := fun hcmd => he ⟨hm, hcmd⟩
        by_cases hp : c.cmd = pwrCmdPolling
        · have hwaits : waits reads (live ch (c :: l)) io =
              (firstHit reads c allowed io.pos).getD (allowed + 1) ::
                waits reads (live ch l) (command reads c io).2 := by
            rw [live_cons hm hcmd, waits, if_pos hp]
          rw [live_cons hm hcmd, meant]
          rw [TimelyFrom, hwaits, List.sum_cons, List.head?_cons, command_poll hp,
            List.findIdx_cons, decide_eq_false he] at h
          rw [command_poll hp]
          cases hhit : firstHit reads c allowed io.pos with
          | none =>
            -- Only the first poll may fail.
            rw [hhit] at h
            rcases h with ⟨-, hsum⟩ | ⟨rfl, -, -⟩
            · rw [Option.getD_none] at hsum
              omega
            · refine ⟨1, ?_⟩
              rw [cmdLoop_poll hc ⟨hm, hp⟩ hle, Nat.sub_zero, hhit]
              dsimp only
              rw [if_neg Bool.false_ne_true]
          | some k =>
            have hk := (firstHit_le hhit).2
            rw [hhit, Option.getD_some] at h
            rcases h with ⟨hidx, hsum⟩ | ⟨-, -, hhead⟩
            · simp only [cond_false] at hidx
              have hleft : firstHit reads c (allowed - pollingCount) io.pos = some k := by
                rw [firstHit_of_le (Nat.sub_le _ _), hhit, Option.filter_some,
                  if_pos (decide_eq_true (show k ≤ allowed - pollingCount by omega))]
              have hrest : TimelyFrom reads ch l (aryIdx + 1) (pollingCount + k)
                  ((pollOnce reads c)^[k] io) := .inl ⟨by omega, by rwa [Nat.add_assoc]⟩
              obtain ⟨fuel, hrun⟩ := ih hdrop hend' (by omega) hrest
              refine ⟨fuel + 1, ?_⟩
              rw [cmdLoop_poll hc ⟨hm, hp⟩ hle, hleft]
              dsimp only
              rw [Nat.mod_eq_of_lt (show aryIdx + 1 < 2 ^ 32 by omega), hrun, if_pos rfl]
            · have heq := Option.some.inj hhead
              omega
        · obtain ⟨hidx, hrest⟩ := h.tail he (fun hpoll => hp hpoll.2)
            (show _ = waits reads (live ch l) (command reads c io).2 by
              rw [live_cons hm hcmd, waits, if_neg hp])
          obtain ⟨fuel, hrun⟩ := ih hdrop hend' hle hrest
          refine ⟨fuel + 1, ?_⟩
          rw [cmdLoop_plain hc hm hcmd hp, Nat.mod_eq_of_lt hidx, hrun, live_cons hm hcmd, meant,
            if_pos (command_plain hp)]
      · obtain ⟨hidx, hrest⟩ := h.tail he (fun hpoll => hm hpoll.1)
          (show _ = waits reads (live ch l) io by rw [live_skip hm])
        obtain ⟨fuel, hrun⟩ := ih hdrop hend' hle hrest
        refine ⟨fuel + 1, ?_⟩
        rw [cmdLoop_skip hc hm, Nat.mod_eq_of_lt hidx, hrun, live_skip hm]

theorem merged_masked (c : WlanPwrCfg) (v : BitVec 8) (i : ℕ) : (merged c v).getLsbD i =
    if c.msk.getLsbD i then c.value.getLsbD i else v.getLsbD i := by
  by_cases hi : i < 8
  · rw [merged, BitVec.getLsbD_or, BitVec.getLsbD_and, BitVec.getLsbD_and, BitVec.getLsbD_not,
      decide_eq_true hi]
    cases c.msk.getLsbD i
    · simp
    · simp
  · rw [BitVec.getLsbD_of_ge _ _ (Nat.not_lt.mp hi), BitVec.getLsbD_of_ge _ _ (Nat.not_lt.mp hi),
      BitVec.getLsbD_of_ge _ _ (Nat.not_lt.mp hi), BitVec.getLsbD_of_ge _ _ (Nat.not_lt.mp hi)]
    rfl

theorem findIdx_lt {p : WlanPwrCfg → Prop} [DecidablePred p] {i : ℕ} (hi : i < 2 ^ 32)
    {c : WlanPwrCfg} (hc : t[i]? = some c) (hp : p c) : t.findIdx (p ·) < 2 ^ 32 := by
  obtain ⟨hlt, rfl⟩ := List.getElem?_eq_some_iff.mp hc
  refine Nat.lt_of_not_le fun hle => ?_
  exact absurd hp (by simpa using List.not_of_lt_findIdx (Nat.lt_of_lt_of_le hi hle))

/-- The interpreter does what the commands mean exactly if all polls together stay within the
    budget of one or the first one fails, before the index wraps. -/
theorem interpreter_right_iff (reads : ℕ → BitVec 8) (ch : Chip) (t : List WlanPwrCfg)
    (h : EndsMatched ch t) : Right reads ch t ↔ Timely reads ch t := by
  have hstart : Counted .start 0 := rfl
  constructor
  · rintro ⟨⟨fuel, hrun⟩, -⟩
    obtain ⟨htrue, hfalse⟩ := parsing_counts (Nat.two_pow_pos 32) (Nat.zero_le _) hstart hrun
    obtain ⟨hmtrue, hmfalse⟩ := meant_counts (live ch t) hstart
    cases hb : (meant reads (live ch t) .start).1 with
    | true =>
      obtain ⟨⟨n, hn, hcount⟩, i, hi, c, hc, hend⟩ := htrue hb
      have hsum := (hmtrue hb).unique hcount
      exact .inl ⟨findIdx_lt hi hc hend, by omega⟩
    | false =>
      obtain ⟨hcount, i, hi, c, hc, hpoll⟩ := hfalse hb
      obtain ⟨m, hm, -, hhead⟩ := hmfalse hb
      have heq := hm.unique hcount
      exact .inr ⟨findIdx_lt hi hc hpoll, hhead (by omega)⟩
  · intro htimely
    obtain ⟨c, hlast, hc⟩ := h
    refine ⟨cmdLoop_meant (List.drop_zero) ⟨c, List.mem_of_getLast? hlast, hc⟩ (Nat.zero_le _) ?_,
      fun c _ v i => merged_masked c v i⟩
    rcases htimely with ⟨hidx, hsum⟩ | ⟨hidx, hhead⟩
    · exact .inl ⟨by rwa [Nat.zero_add], by rwa [Nat.zero_add]⟩
    · exact .inr ⟨rfl, by rwa [Nat.zero_add], hhead⟩

/-- Every cut and fab of a chip on USB. -/
def usbChip : Chip := ⟨0xff, 0x0f, 0x02⟩

/-- A polling command for bit 0, and the end command, for every chip. -/
def pollBit (offset : UInt16) : WlanPwrCfg := ⟨offset, 0xff, 0xf, 0xf, pwrCmdPolling, 1, 1⟩

def endCmd : WlanPwrCfg := ⟨0xffff, 0xff, 0xf, 0xf, pwrCmdEnd, 0, 0⟩

theorem onePoll_right : EndsMatched usbChip [pollBit 6, endCmd] ∧
    Right (fun _ => 1) usbChip [pollBit 6, endCmd] := by
  have hends : EndsMatched usbChip [pollBit 6, endCmd] := ⟨endCmd, rfl, by decide⟩
  have hiff := interpreter_right_iff (fun _ => 1) usbChip [pollBit 6, endCmd] hends
  refine ⟨hends, hiff.mpr (.inl ⟨?_, ?_⟩)⟩
  · decide
  · decide +kernel

/-- A poll that succeeds at once, and one that needs all of its budget. -/
def slowSecond (n : ℕ) : BitVec 8 := if n = 0 ∨ n = 5001 then 1 else 0

theorem firstHit_of_hit {c : WlanPwrCfg} {n k pos : ℕ} (hk : k < n)
    (hno : ∀ j < k, ¬ Hit reads c (pos + j)) (hhit : Hit reads c (pos + k)) :
    firstHit reads c n pos = some (k + 1) := by
  induction k generalizing n pos with
  | zero =>
    obtain ⟨n, rfl⟩ : ∃ m, n = m + 1 := ⟨n - 1, by omega⟩
    exact if_pos hhit
  | succ k ih =>
    obtain ⟨n, rfl⟩ : ∃ m, n = m + 1 := ⟨n - 1, by omega⟩
    have hnow : ¬ Hit reads c pos := hno 0 (Nat.succ_pos k)
    rw [firstHit, if_neg hnow, ih (Nat.lt_of_succ_lt_succ hk)]
    · rfl
    · intro j hj
      rw [Nat.add_assoc, Nat.add_comm 1 j]
      exact hno (j + 1) (Nat.succ_lt_succ hj)
    · rwa [Nat.add_assoc, Nat.add_comm 1 k]

theorem slowSecond_wrong : EndsMatched usbChip [pollBit 6, pollBit 0x80, endCmd] ∧
    ¬ Right slowSecond usbChip [pollBit 6, pollBit 0x80, endCmd] := by
  refine ⟨⟨endCmd, rfl, by decide⟩, fun h => ?_⟩
  have hfirst : ∀ n, 0 < n → firstHit slowSecond (pollBit 6) n 0 = some 1 := fun n hn =>
    firstHit_of_hit hn (fun j hj => absurd hj (Nat.not_lt_zero j)) (by decide)
  have hsecond : firstHit slowSecond (pollBit 0x80) allowed 1 = some 5001 := by
    refine firstHit_of_hit (by decide) (fun j hj => ?_) (by decide)
    have hzero : slowSecond (1 + j) = 0 := if_neg (by omega)
    rw [Hit, hzero]
    decide
  have hshort : firstHit slowSecond (pollBit 0x80) (allowed - 1) 1 = none := by
    rw [firstHit_of_le (Nat.sub_le _ _), hsecond]
    decide
  have hpos : (pollOnce slowSecond (pollBit 6) .start).pos = 1 := pollOnce_pos .start
  have hmeant : (meant slowSecond (live usbChip [pollBit 6, pollBit 0x80, endCmd]) .start).1 =
      true := by
    have hlive : live usbChip [pollBit 6, pollBit 0x80, endCmd] = [pollBit 6, pollBit 0x80] := by
      decide
    have hfast : command slowSecond (pollBit 6) .start =
        (true, pollOnce slowSecond (pollBit 6) .start) := by
      rw [command_poll rfl, show (Io.start : State).pos = 0 from rfl, hfirst allowed (by decide)]
      rfl
    have hslow : command slowSecond (pollBit 0x80) (pollOnce slowSecond (pollBit 6) .start) =
        (true, (pollOnce slowSecond (pollBit 0x80))^[5001]
          (pollOnce slowSecond (pollBit 6) .start)) := by
      rw [command_poll rfl, hpos, hsecond]
    rw [hlive, meant, hfast, if_pos rfl, meant, hslow, if_pos rfl, meant]
  obtain ⟨fuel, hrun⟩ := h.asMeant
  have hfail : ∀ r, rtwHalPwrseqcmdparsing slowSecond usbChip
      [pollBit 6, pollBit 0x80, endCmd] fuel = .ok r → r.1 = false := by
    intro r hr
    rw [rtwHalPwrseqcmdparsing] at hr
    rcases fuel with _ | _ | fuel
    · cases hr
    · rw [cmdLoop_poll (c := pollBit 6) rfl (by decide) (Nat.zero_le _), Nat.sub_zero,
        show (Io.start : State).pos = 0 from rfl, hfirst allowed (by decide)] at hr
      cases hr
    · rw [cmdLoop_poll (c := pollBit 6) rfl (by decide) (Nat.zero_le _), Nat.sub_zero,
        show (Io.start : State).pos = 0 from rfl, hfirst allowed (by decide)] at hr
      dsimp only at hr
      rw [cmdLoop_poll (c := pollBit 0x80) rfl (by decide) (by decide), Nat.zero_add,
        Function.iterate_one, hpos, hshort] at hr
      obtain rfl := Except.ok.inj hr
      rfl
  exact absurd ((hfail _ hrun).symm.trans hmeant) Bool.false_ne_true

end main

end Rtl8821au.Pwr.PwrSeq
