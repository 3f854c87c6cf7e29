import Mathlib.Data.List.Nodup
import Mathlib.Tactic.SplitIfs
import Rtl8821au.Lib.Buffer
import Rtl8821au.Lib.Ring
import Rtl8821au.Lib.Run
import Rtl8821au.Recv.Frame

/-!
# Commands to the firmware

`rtl8821au_fill_h2c_cmd` (`fw.c`) hands a command of up to seven bytes to the firmware in
one of four mailboxes. Every register access is a step of its own, and between any two of
them the firmware may take a step. Writing the last of the four main bytes of a box sets
the bit of the box in `REG_HMETFR`; the firmware reads the boxes in rotation and clears
the bit of a box after it has read it.

`h2c_fwcmd_mutex` is taken: calls do not overlap. `RT_ASSERT` only prints.

Results:
* `h2cInv_step`: host and firmware use the boxes as a ring.
* `h2c_of_run`: the firmware reads the commands for which a free box was found, each once
  and in order, if no command is longer than the staging buffer.
-/

namespace Rtl8821au.Fw

open Buffer Ring Run
open Recv (Bytes)

/-! ## Model of the C code -/

/-- `RTL8812_MAX_H2C_BOX_NUMS`, `RTL8812_MAX_CMD_LEN` and the two sizes of a box (`fw.c`,
    lines 15–18). -/
def maxH2cBoxNums : ℕ := 4

def maxCmdLen : ℕ := 7

def messageBoxSize : ℕ := 4

def exMessageBoxSize : ℕ := 4

/-- `REG_HMEBOX_0` and `REG_HMEBOX_EXT0_8812`. -/
def regHmebox0 : ℕ := 0x1D0

def regHmeboxExt0 : ℕ := 0x1F0

/-- The arguments of a call; `cmd_len` is the length of `cmdbuffer`. -/
structure H2cCmd where
  elementId : UInt8
  cmdbuffer : Bytes
  deriving DecidableEq, Repr

/-- `tmp_cmdbuf` (lines 190–199) after `memset` and `memcpy`. -/
def tmpCmdbuf (c : H2cCmd) : Bytes := overwrite (List.replicate 8 0) 0 c.cmdbuffer

/-- The bytes that this `memcpy` writes behind `tmp_cmdbuf`. -/
def spilled (c : H2cCmd) : Bytes := c.cmdbuffer.drop 8

/-- The bytes of `h2c_cmd` (lines 139–145). -/
def h2cCmdWord (c : H2cCmd) : Bytes :=
  let h2cCmd := overwrite (List.replicate 4 0) 0 [c.elementId]
  overwrite h2cCmd 1 ((tmpCmdbuf c).take (min c.cmdbuffer.length 3))

/-- `ext_cmd_len` and the bytes of `h2c_cmd_ex` (lines 145–147). -/
def extCmdLen (c : H2cCmd) : ℕ := c.cmdbuffer.length - 3

def h2cCmdEx (c : H2cCmd) : Bytes :=
  overwrite (List.replicate 4 0) 0 (((tmpCmdbuf c).drop 3).take (extCmdLen c))

/-- The byte writes of a command into box `h2cBoxNum`, in their order (lines 149–168). -/
def boxWrites (c : H2cCmd) (h2cBoxNum : ℕ) : List (ℕ × UInt8) :=
  (List.range (extCmdLen c)).map (fun cmdIdx =>
      (regHmeboxExt0 + h2cBoxNum * exMessageBoxSize + cmdIdx, (h2cCmdEx c).getD cmdIdx 0)) ++
    (List.range messageBoxSize).map (fun cmdIdx =>
      (regHmebox0 + h2cBoxNum * messageBoxSize + cmdIdx, (h2cCmdWord c).getD cmdIdx 0))

/-- Where a call is: in `_is_fw_read_cmd_down` with so many retries left, or with writes of
    a command left. -/
inductive HostPc where
  | idle
  | poll (c : H2cCmd) (retryCnts : ℕ)
  | write (c : H2cCmd) (rest : List (ℕ × UInt8))
  deriving DecidableEq, Repr

/-- What a command may change: the mailbox registers and `last_hmeboxnum`. -/
structure Mailbox where
  reg : ℕ → UInt8
  lastHmeboxnum : ℕ

/-- A call that has returned: what it found and what it left, and whether a box was free. -/
structure Returned where
  cmd : H2cCmd
  before : Mailbox
  after : Mailbox
  boxFree : Bool

/-- Host, registers and firmware. `fwBox` is the box the firmware reads next, or is about
    to give back if `fwRead`. The last four members are a history: the commands for which
    a free box was found, the boxes the firmware has read (main and extended bytes), the
    calls that have returned and what was written behind staging buffers. -/
structure H2c where
  mailbox : Mailbox
  hmetfr : ℕ → Bool
  fwReady : Bool
  bSurpriseRemoved : Bool
  pc : HostPc
  entry : Mailbox
  fwBox : ℕ
  fwRead : Bool
  found : List H2cCmd
  fwLog : List (Bytes × Bytes)
  returned : List Returned
  overrun : Bytes

/-- The call is over. -/
def H2c.ret (s : H2c) (c : H2cCmd) (boxFree : Bool) : H2c :=
  { s with
    pc := .idle
    returned := s.returned ++ [⟨c, s.entry, s.mailbox, boxFree⟩] }

/-- A call of `rtl8821au_fill_h2c_cmd` up to its first register access (lines 185–200 and
    116–128). -/
def call (s : H2c) (c : H2cCmd) : H2c :=
  match s.pc with
  | .idle =>
    let s := { s with entry := s.mailbox }
    if s.fwReady = false then s.ret c false
    else
      let s := { s with overrun := s.overrun ++ spilled c }
      if c.cmdbuffer.length > maxCmdLen then s.ret c false
      else if s.bSurpriseRemoved then s.ret c false
      else { s with pc := .poll c 100 }
  | _ => s

/-- The host's next register access (lines 70–87 and 130–176). -/
def hostStep (s : H2c) : H2c :=
  match s.pc with
  | .idle => s
  | .poll c retryCnts =>
    if s.hmetfr s.mailbox.lastHmeboxnum = false then
      { s with
        pc := .write c (boxWrites c s.mailbox.lastHmeboxnum)
        found := s.found ++ [c] }
    else
      match retryCnts with
      | 0 => s.ret c false
      | n + 1 => { s with pc := .poll c n }
  | .write c ((addr, val) :: rest) =>
    let box := s.mailbox.lastHmeboxnum
    { s with
      mailbox := { s.mailbox with reg := Function.update s.mailbox.reg addr val }
      hmetfr :=
        if addr = regHmebox0 + box * messageBoxSize + 3 then Function.update s.hmetfr box true
        else s.hmetfr
      pc := .write c rest }
  | .write c [] =>
    let box := s.mailbox.lastHmeboxnum
    { s with mailbox := { s.mailbox with lastHmeboxnum := (box + 1) % maxH2cBoxNums } }.ret c true

/-- Main and extended bytes of a box. -/
def boxBytes (reg : ℕ → UInt8) (box : ℕ) : Bytes × Bytes :=
  ((List.range messageBoxSize).map fun i => reg (regHmebox0 + box * messageBoxSize + i),
    (List.range exMessageBoxSize).map fun i => reg (regHmeboxExt0 + box * exMessageBoxSize + i))

/-- The firmware reads its box when the bit is set, and then clears the bit. -/
def fwStep (s : H2c) : H2c :=
  if s.fwRead then
    { s with
      hmetfr := Function.update s.hmetfr s.fwBox false
      fwBox := (s.fwBox + 1) % maxH2cBoxNums
      fwRead := false }
  else if s.hmetfr s.fwBox then
    { s with fwLog := s.fwLog ++ [boxBytes s.mailbox.reg s.fwBox], fwRead := true }
  else s

/-- What happens next. -/
inductive H2cEvent where
  | call (c : H2cCmd)
  | host
  | fw
  | surpriseRemoved
  deriving DecidableEq, Repr

def h2cStep (s : H2c) : H2cEvent → H2c
  | .call c => call s c
  | .host => hostStep s
  | .fw => fwStep s
  | .surpriseRemoved => { s with bSurpriseRemoved := true }

/-- Host and firmware after the firmware download. -/
def h2cInit (reg : ℕ → UInt8) (fwReady : Bool) : H2c where
  mailbox := ⟨reg, 0⟩
  hmetfr := fun _ => false
  fwReady := fwReady
  bSurpriseRemoved := false
  pc := .idle
  entry := ⟨reg, 0⟩
  fwBox := 0
  fwRead := false
  found := []
  fwLog := []
  returned := []
  overrun := []

/-! ## Specification -/

/-- A box with these bytes carries the command: element id and all payload bytes. -/
def Carries (c : H2cCmd) (box : Bytes × Bytes) : Prop :=
  ∃ payload, box.1 = c.elementId :: payload ∧
    c.cmdbuffer = (payload ++ box.2).take c.cmdbuffer.length

/-- What holds at every moment. -/
structure H2cOk (s : H2c) : Prop where
  /-- The firmware has read the first of the commands for which a box was found. -/
  delivered : List.Forall₂ Carries (s.found.take s.fwLog.length) s.fwLog
  length_le : s.fwLog.length ≤ s.found.length
  /-- It has read all of them when no bit is set and no call is under way. -/
  complete : s.pc = .idle → (∀ i < maxH2cBoxNums, s.hmetfr i = false) →
    s.fwLog.length = s.found.length
  /-- A command that is given up changes nothing. -/
  givenUp : ∀ r ∈ s.returned, r.boxFree = false → r.after = r.before
  /-- The staged bytes stay inside the staging buffer. -/
  staged : s.overrun = []

/-! ## The content of a box -/

/-- The two words of a command hold its element id and its payload. -/
theorem h2cCmdWord_eq (c : H2cCmd) (hlen : c.cmdbuffer.length ≤ maxCmdLen) :
    ∃ payload, h2cCmdWord c = c.elementId :: payload ∧ payload.length = 3 ∧
      c.cmdbuffer = payload.take c.cmdbuffer.length ++ (h2cCmdEx c).take (extCmdLen c) := by
  obtain ⟨elementId, cmdbuffer⟩ := c
  -- one case for each length of a command
  match cmdbuffer, hlen with
  | [], _ => exact ⟨_, rfl, rfl, rfl⟩
  | [_], _ => exact ⟨_, rfl, rfl, rfl⟩
  | [_, _], _ => exact ⟨_, rfl, rfl, rfl⟩
  | [_, _, _], _ => exact ⟨_, rfl, rfl, rfl⟩
  | [_, _, _, _], _ => exact ⟨_, rfl, rfl, rfl⟩
  | [_, _, _, _, _], _ => exact ⟨_, rfl, rfl, rfl⟩
  | [_, _, _, _, _, _], _ => exact ⟨_, rfl, rfl, rfl⟩
  | [_, _, _, _, _, _, _], _ => exact ⟨_, rfl, rfl, rfl⟩
  | _ :: _ :: _ :: _ :: _ :: _ :: _ :: _ :: rest, h =>
    simp only [maxCmdLen, List.length_cons] at h
    omega

theorem extCmdLen_le {c : H2cCmd} (hlen : c.cmdbuffer.length ≤ maxCmdLen) : extCmdLen c ≤ 4 := by
  simp only [maxCmdLen] at hlen
  simp only [extCmdLen]
  omega

section writes

variable {c : H2cCmd} {box : ℕ} {reg : ℕ → UInt8}

/-- Every write goes to one of the eight registers of the box. -/
theorem boxWrites_addr (hlen : c.cmdbuffer.length ≤ maxCmdLen) {p : ℕ × UInt8}
    (hp : p ∈ boxWrites c box) :
    (∃ i < 4, p.1 = 0x1F0 + box * 4 + i) ∨ ∃ i < 4, p.1 = 0x1D0 + box * 4 + i := by
  have hext := extCmdLen_le hlen
  rcases List.mem_append.mp hp with hp | hp
  · obtain ⟨i, hi, rfl⟩ := List.mem_map.mp hp
    rw [List.mem_range] at hi
    exact Or.inl ⟨i, by omega, rfl⟩
  · obtain ⟨i, hi, rfl⟩ := List.mem_map.mp hp
    exact Or.inr ⟨i, List.mem_range.mp hi, rfl⟩

/-- No register is written twice. -/
theorem boxWrites_nodup (hlen : c.cmdbuffer.length ≤ maxCmdLen) :
    ((boxWrites c box).map Prod.fst).Nodup := by
  have hext := extCmdLen_le hlen
  simp only [boxWrites, List.map_append, List.map_map]
  refine List.nodup_append.mpr ⟨?_, ?_, ?_⟩
  · exact List.Nodup.map (fun i j hij => Nat.add_left_cancel hij) List.nodup_range
  · exact List.Nodup.map (fun i j hij => Nat.add_left_cancel hij) List.nodup_range
  · intro a ha b hb heq
    obtain ⟨i, hi, rfl⟩ := List.mem_map.mp ha
    obtain ⟨j, hj, rfl⟩ := List.mem_map.mp hb
    rw [List.mem_range] at hi
    rw [List.mem_range, messageBoxSize] at hj
    simp only [Function.comp_apply, regHmebox0, regHmeboxExt0, messageBoxSize,
      exMessageBoxSize] at heq
    omega

/-- The bit of the box is set by the last write. -/
theorem boxWrites_last (c : H2cCmd) (box : ℕ) : ∃ front val,
    boxWrites c box = front ++ [(regHmebox0 + box * messageBoxSize + 3, val)] := by
  have h4 : List.range messageBoxSize = List.range 3 ++ [3] := rfl
  rw [boxWrites, h4, List.map_append, ← List.append_assoc]
  exact ⟨_, _, rfl⟩

theorem last_write_iff (hlen : c.cmdbuffer.length ≤ maxCmdLen) {made rest : List (ℕ × UInt8)}
    {w : ℕ × UInt8} (hws : boxWrites c box = made ++ w :: rest) :
    w.1 = regHmebox0 + box * messageBoxSize + 3 ↔ rest = [] := by
  obtain ⟨front, val, hlast⟩ := boxWrites_last c box
  rcases List.eq_nil_or_concat rest with rfl | ⟨init, l, rfl⟩
  · have heq := hws.symm.trans hlast
    have hw := (List.append_inj_right' heq rfl :)
    rw [List.cons.injEq] at hw
    simp [hw.1]
  · rw [List.concat_eq_append] at hws ⊢
    have hl : l = (regHmebox0 + box * messageBoxSize + 3, val) := by
      have heq := hws.symm.trans hlast
      rw [← List.cons_append, ← List.append_assoc] at heq
      have hw := (List.append_inj_right' heq rfl :)
      exact (List.cons.injEq _ _ _ _ ▸ hw).1
    constructor
    · intro hw
      have hnodup : ((boxWrites c box).map Prod.fst).Nodup := boxWrites_nodup hlen
      rw [hws, List.map_append, List.nodup_append, List.map_cons, List.nodup_cons] at hnodup
      refine absurd ?_ hnodup.2.1.1
      rw [hw, List.map_append, hl]
      exact List.mem_append_right _ List.mem_cons_self
    · intro hnil
      exact absurd hnil (List.append_ne_nil_of_right_ne_nil init (List.cons_ne_nil l []))

/-- After all its writes a command is in the box. -/
theorem carries_of_written (hlen : c.cmdbuffer.length ≤ maxCmdLen)
    (h : ∀ p ∈ boxWrites c box, reg p.1 = p.2) : Carries c (boxBytes reg box) := by
  obtain ⟨payload, hword, hpay, hcmd⟩ := h2cCmdWord_eq c hlen
  have hext := extCmdLen_le hlen
  have hexlen : (h2cCmdEx c).length = 4 := by simp [h2cCmdEx]
  refine ⟨payload, ?_, ?_⟩
  · -- the main bytes are those of `h2c_cmd`
    rw [← hword]
    apply ext_getD 0
    · rw [hword, List.length_cons, hpay]
      rfl
    · intro k hk
      have hk4 : k < 4 := by simpa [boxBytes, messageBoxSize] using hk
      have hreg : reg (regHmebox0 + box * messageBoxSize + k) = (h2cCmdWord c).getD k 0 :=
        h (_, _) (List.mem_append_right _ (List.mem_map.mpr ⟨k, List.mem_range.mpr hk4, rfl⟩))
      rw [← hreg]
      simp [boxBytes, messageBoxSize, List.getD_eq_getElem?_getD, hk4]
  · -- and of the extended bytes those that the command needs
    have htake : (boxBytes reg box).2.take (extCmdLen c) = (h2cCmdEx c).take (extCmdLen c) := by
      apply ext_getD 0
      · simp only [boxBytes, List.length_take, List.length_map, List.length_range, hexlen,
          exMessageBoxSize]
      · intro k hk
        have hk' : k < extCmdLen c := by
          rw [List.length_take] at hk
          omega
        have hreg : reg (regHmeboxExt0 + box * exMessageBoxSize + k) = (h2cCmdEx c).getD k 0 :=
          h (_, _) (List.mem_append_left _ (List.mem_map.mpr ⟨k, List.mem_range.mpr hk', rfl⟩))
        have hk4 : k < 4 := by omega
        simp only [List.getD_eq_getElem?_getD, List.getElem?_take_of_lt hk'] at hreg ⊢
        rw [← hreg]
        simp [boxBytes, exMessageBoxSize, hk4]
    have hsplit : (payload ++ (boxBytes reg box).2).take c.cmdbuffer.length =
        payload.take c.cmdbuffer.length ++ (boxBytes reg box).2.take (extCmdLen c) := by
      rw [List.take_append, hpay]
      rfl
    rw [hsplit, htake]
    exact hcmd

/-- A write to one box leaves the others alone. -/
theorem boxBytes_update (hlen : c.cmdbuffer.length ≤ maxCmdLen) {p : ℕ × UInt8}
    (hp : p ∈ boxWrites c box) (hbox : box < maxH2cBoxNums) {i : ℕ} (hi : i < maxH2cBoxNums)
    (hne : i ≠ box) : boxBytes (Function.update reg p.1 p.2) i = boxBytes reg i := by
  have haddr := boxWrites_addr hlen hp
  simp only [maxH2cBoxNums] at hbox hi
  simp only [boxBytes, Prod.mk.injEq]
  constructor
  · apply List.map_congr_left
    intro k hk
    rw [List.mem_range, messageBoxSize] at hk
    apply Function.update_of_ne
    simp only [regHmebox0, messageBoxSize]
    rcases haddr with ⟨j, hj, hp⟩ | ⟨j, hj, hp⟩ <;> omega
  · apply List.map_congr_left
    intro k hk
    rw [List.mem_range, exMessageBoxSize] at hk
    apply Function.update_of_ne
    simp only [regHmeboxExt0, exMessageBoxSize]
    rcases haddr with ⟨j, hj, hp⟩ | ⟨j, hj, hp⟩ <;> omega

end writes

/-! ## Invariant -/

/-- The box the host fills next; it is handed over before `last_hmeboxnum` moves on. -/
def writeBox (s : H2c) : ℕ :=
  match s.pc with
  | .write _ [] => (s.mailbox.lastHmeboxnum + 1) % maxH2cBoxNums
  | _ => s.mailbox.lastHmeboxnum

/-- The command whose box is not handed over yet. -/
def unpublished : HostPc → List H2cCmd
  | .write c (_ :: _) => [c]
  | _ => []

/-- What a call knows between its steps: the length is checked, the box is free until the
    last write, and what has been written is there. -/
def PcOk (s : H2c) : Prop :=
  match s.pc with
  | .idle => True
  | .poll c _ => c.cmdbuffer.length ≤ maxCmdLen ∧ s.mailbox = s.entry
  | .write c rest => c.cmdbuffer.length ≤ maxCmdLen ∧ (∃ made,
      boxWrites c s.mailbox.lastHmeboxnum = made ++ rest ∧
        ∀ p ∈ made, s.mailbox.reg p.1 = p.2) ∧
      (rest ≠ [] → s.hmetfr s.mailbox.lastHmeboxnum = false)

/-- The commands the firmware has read and given back, and those still in their boxes; the
    first of these may have been read already. -/
def Delivery (s : H2c) (done q : List H2cCmd) : Prop :=
  s.found = done ++ q ++ unpublished s.pc ∧
    Holds maxH2cBoxNums s.fwBox (writeBox s) s.hmetfr
      (fun i c => Carries c (boxBytes s.mailbox.reg i)) q ∧
    List.Forall₂ Carries (done ++ if s.fwRead then q.take 1 else []) s.fwLog ∧
    (s.fwRead = true → q ≠ [])

/-- What holds between any two steps. -/
structure H2cInv (s : H2c) : Prop where
  delivery : ∃ done q, Delivery s done q
  pc : PcOk s
  last_lt : s.mailbox.lastHmeboxnum < maxH2cBoxNums
  givenUp : ∀ r ∈ s.returned, r.boxFree = false → r.after = r.before
  staged : s.overrun = []

theorem h2cInv_init (reg : ℕ → UInt8) (fwReady : Bool) : H2cInv (h2cInit reg fwReady) where
  delivery := ⟨[], [], rfl, holds_nil (Nat.zero_lt_succ 3) fun _ _ => rfl, List.Forall₂.nil, nofun⟩
  pc := trivial
  last_lt := Nat.zero_lt_succ 3
  givenUp _ hr := absurd hr List.not_mem_nil
  staged := rfl

section step

variable {s : H2c}

/-- A call that gives up leaves the mailboxes as they were on entry. -/
theorem H2cInv.giveUp (h : H2cInv s) {c : H2cCmd} (hentry : s.mailbox = s.entry)
    (hpc : unpublished s.pc = [] ∧ writeBox s = s.mailbox.lastHmeboxnum) :
    H2cInv (s.ret c false) where
  delivery := by
    obtain ⟨done, q, hfound, hring, hlog⟩ := h.delivery
    refine ⟨done, q, ?_, ?_, hlog⟩
    · rw [hpc.1] at hfound
      exact hfound
    · rw [hpc.2] at hring
      exact hring
  pc := trivial
  last_lt := h.last_lt
  givenUp r hr hfree := by
    rcases List.mem_append.mp hr with hr | hr
    · exact h.givenUp r hr hfree
    · rw [List.mem_singleton.mp hr]
      exact hentry
  staged := h.staged

theorem H2cInv.call (h : H2cInv s) (c : H2cCmd)
    (hlen : s.fwReady = true → c.cmdbuffer.length ≤ 8) : H2cInv (call s c) := by
  obtain ⟨done, q, hdel⟩ := h.delivery
  unfold Fw.call
  cases hpc : s.pc with
  | poll | write => exact h
  | idle =>
    have hdel' : ∀ entry overrun, Delivery { s with entry := entry, overrun := overrun } done q :=
      fun _ _ => hdel
    have hentry : H2cInv { s with entry := s.mailbox } :=
      ⟨⟨done, q, hdel' _ _⟩, by rw [PcOk, hpc]; trivial, h.last_lt, h.givenUp, h.staged⟩
    have hidle : unpublished s.pc = [] ∧ writeBox s = s.mailbox.lastHmeboxnum := by
      rw [writeBox, hpc]
      exact ⟨rfl, rfl⟩
    dsimp only
    by_cases hready : s.fwReady = false
    · rw [if_pos hready]
      exact hentry.giveUp rfl hidle
    · rw [if_neg hready]
      have hspill : s.overrun ++ spilled c = [] := by
        rw [h.staged, List.nil_append, spilled,
          List.drop_eq_nil_of_le (hlen (by simpa using hready))]
      have hstaged : H2cInv { s with entry := s.mailbox, overrun := s.overrun ++ spilled c } :=
        ⟨⟨done, q, hdel' _ _⟩, by rw [PcOk, hpc]; trivial, h.last_lt, h.givenUp, hspill⟩
      split_ifs with hlong hgone
      · exact hstaged.giveUp rfl hidle
      · exact hstaged.giveUp rfl hidle
      · refine ⟨⟨done, q, ?_⟩, ⟨by omega, rfl⟩, h.last_lt, h.givenUp, hspill⟩
        obtain ⟨hfound, hring, hlog⟩ := hdel
        rw [hidle.1] at hfound
        rw [hidle.2] at hring
        exact ⟨hfound, hring, hlog⟩

/-- A poll: the box is free, or there are retries left, or the command is given up. -/
theorem H2cInv.poll (h : H2cInv s) {c : H2cCmd} {retryCnts : ℕ} (hpc : s.pc = .poll c retryCnts) :
    H2cInv (hostStep s) := by
  obtain ⟨done, q, hfound, hring, hlog⟩ := h.delivery
  have hok := h.pc
  rw [PcOk, hpc] at hok
  obtain ⟨hlen, hentry⟩ := hok
  have hidle : unpublished s.pc = [] ∧ writeBox s = s.mailbox.lastHmeboxnum := by
    rw [writeBox, hpc]
    exact ⟨rfl, rfl⟩
  rw [hidle.1] at hfound
  rw [hidle.2] at hring
  unfold hostStep
  rw [hpc]
  dsimp only
  split_ifs with hfree
  · -- the writes of the command are ahead
    obtain ⟨front, val, hlast⟩ := boxWrites_last c s.mailbox.lastHmeboxnum
    cases hws : boxWrites c s.mailbox.lastHmeboxnum with
    | nil =>
      rw [hws] at hlast
      exact absurd hlast.symm (List.append_ne_nil_of_right_ne_nil front (List.cons_ne_nil _ []))
    | cons w rest =>
      refine ⟨⟨done, q, ?_, hring, hlog⟩, ⟨hlen, ⟨[], hws, ?_⟩, fun _ => hfree⟩, h.last_lt,
        h.givenUp, h.staged⟩
      · show s.found ++ [c] = done ++ q ++ [c]
        rw [hfound, List.append_nil]
      · exact fun p hp => absurd hp List.not_mem_nil
  · cases retryCnts with
    | zero => exact h.giveUp hentry hidle
    | succ n =>
      exact ⟨⟨done, q, hfound, hring, hlog⟩, ⟨hlen, hentry⟩, h.last_lt, h.givenUp, h.staged⟩

/-- A byte write; the last one hands the box over. -/
theorem H2cInv.write (h : H2cInv s) {c : H2cCmd} {w : ℕ × UInt8} {rest : List (ℕ × UInt8)}
    (hpc : s.pc = .write c (w :: rest)) : H2cInv (hostStep s) := by
  obtain ⟨done, q, hfound, hring, hlog⟩ := h.delivery
  have hok := h.pc
  rw [PcOk, hpc] at hok
  obtain ⟨hlen, ⟨made, hws, hmade⟩, hfree⟩ := hok
  have hbit := hfree (List.cons_ne_nil w rest)
  have hidle : unpublished s.pc = [c] ∧ writeBox s = s.mailbox.lastHmeboxnum := by
    rw [writeBox, hpc]
    exact ⟨rfl, rfl⟩
  rw [hidle.1] at hfound
  rw [hidle.2] at hring
  have hw : w ∈ boxWrites c s.mailbox.lastHmeboxnum := by
    rw [hws]
    exact List.mem_append_right made List.mem_cons_self
  have hnodup : ((boxWrites c s.mailbox.lastHmeboxnum).map Prod.fst).Nodup := boxWrites_nodup hlen
  -- the earlier writes stay, for no register is written twice
  have hmade' : ∀ p ∈ made ++ [w], Function.update s.mailbox.reg w.1 w.2 p.1 = p.2 := by
    intro p hp
    rcases List.mem_append.mp hp with hp | hp
    · rw [Function.update_of_ne, hmade p hp]
      intro heq
      rw [hws, List.map_append, List.nodup_append] at hnodup
      exact hnodup.2.2 p.1 (List.mem_map_of_mem hp) w.1
        (List.mem_map_of_mem List.mem_cons_self) heq
    · rw [List.mem_singleton.mp hp, Function.update_self]
  have hkeep : ∀ i < maxH2cBoxNums, i ≠ s.mailbox.lastHmeboxnum → ∀ y,
      Carries y (boxBytes s.mailbox.reg i) →
        Carries y (boxBytes (Function.update s.mailbox.reg w.1 w.2) i) := by
    intro i hi hne y hc
    rw [boxBytes_update hlen hw h.last_lt hi hne]
    exact hc
  have hring' := hring.scratch hbit hkeep
  have hws' : boxWrites c s.mailbox.lastHmeboxnum = (made ++ [w]) ++ rest := by
    rw [hws, List.append_assoc, List.singleton_append]
  unfold hostStep
  rw [hpc]
  dsimp only
  by_cases hrest : rest = []
  · -- the bit of the box is set
    subst hrest
    rw [if_pos ((last_write_iff hlen hws).mpr rfl)]
    rw [List.append_nil] at hws'
    have hput := hring'.put hbit (carries_of_written hlen (hws' ▸ hmade'))
    refine ⟨⟨done, q ++ [c], ?_, hput, ?_, ?_⟩, ⟨hlen, ⟨made ++ [w], ?_, hmade'⟩, nofun⟩,
      h.last_lt, h.givenUp, h.staged⟩
    · show s.found = done ++ (q ++ [c]) ++ []
      rw [hfound, List.append_nil, List.append_assoc]
    · show List.Forall₂ Carries (done ++ if s.fwRead then (q ++ [c]).take 1 else []) s.fwLog
      have htake : (if s.fwRead then (q ++ [c]).take 1 else []) =
          if s.fwRead then q.take 1 else [] := by
        by_cases hread : s.fwRead = true
        · obtain ⟨x, q', hq⟩ := List.exists_cons_of_ne_nil (hlog.2 hread)
          rw [if_pos hread, if_pos hread, hq]
          rfl
        · rw [if_neg hread, if_neg hread]
      rw [htake]
      exact hlog.1
    · exact fun _ => List.append_ne_nil_of_right_ne_nil q (List.cons_ne_nil c [])
    · rw [List.append_nil]
      exact hws'
  · rw [if_neg fun haddr => hrest ((last_write_iff hlen hws).mp haddr)]
    obtain ⟨w', rest', rfl⟩ := List.exists_cons_of_ne_nil hrest
    exact ⟨⟨done, q, hfound, hring', hlog⟩, ⟨hlen, ⟨made ++ [w], hws', hmade'⟩, fun _ => hbit⟩,
      h.last_lt, h.givenUp, h.staged⟩

/-- The next box is chosen and the call returns. -/
theorem H2cInv.advance (h : H2cInv s) {c : H2cCmd} (hpc : s.pc = .write c []) :
    H2cInv (hostStep s) := by
  obtain ⟨done, q, hfound, hring, hlog⟩ := h.delivery
  rw [hpc] at hfound
  rw [writeBox, hpc] at hring
  unfold hostStep
  rw [hpc]
  refine ⟨⟨done, q, hfound, hring, hlog⟩, trivial, Nat.mod_lt _ (Nat.zero_lt_succ 3), ?_, h.staged⟩
  intro r hr hfree
  rcases List.mem_append.mp hr with hr | hr
  · exact h.givenUp r hr hfree
  · rw [List.mem_singleton.mp hr] at hfree
    exact absurd (show true = false from hfree) (by decide)

theorem H2cInv.host (h : H2cInv s) : H2cInv (hostStep s) := by
  cases hpc : s.pc with
  | idle =>
    rw [hostStep, hpc]
    exact h
  | poll c retryCnts => exact h.poll hpc
  | write c ws =>
    cases ws with
    | nil => exact h.advance hpc
    | cons w rest => exact h.write hpc

/-- The firmware reads the oldest command, or gives its box back. -/
theorem H2cInv.fw (h : H2cInv s) : H2cInv (fwStep s) := by
  obtain ⟨done, q, hfound, hring, hlog, hne⟩ := h.delivery
  have hok := h.pc
  unfold fwStep
  split_ifs with hread hbit
  · obtain ⟨x, rest, rfl⟩ := List.exists_cons_of_ne_nil (hne hread)
    rw [if_pos hread] at hlog
    refine ⟨⟨done ++ [x], rest, ?_, hring.take, ?_, nofun⟩, ?_, h.last_lt, h.givenUp, h.staged⟩
    · show s.found = done ++ [x] ++ rest ++ unpublished s.pc
      rw [hfound, List.append_assoc done [x], List.singleton_append]
    · show List.Forall₂ Carries (done ++ [x] ++ []) s.fwLog
      rw [List.append_nil]
      exact hlog
    · -- a free box stays free
      have hfree : ∀ i, s.hmetfr i = false →
          Function.update s.hmetfr s.fwBox false i = false := by
        intro i hi
        by_cases hib : i = s.fwBox
        · rw [hib, Function.update_self]
        · rw [Function.update_of_ne hib, hi]
      unfold PcOk at hok ⊢
      dsimp only
      cases hpc : s.pc with
      | idle => trivial
      | poll c n =>
        rw [hpc] at hok
        exact hok
      | write c ws =>
        rw [hpc] at hok
        exact ⟨hok.1, hok.2.1, fun hws => hfree _ (hok.2.2 hws)⟩
  · obtain ⟨x, rest, rfl, hx⟩ := hring.head hbit
    rw [if_neg hread, List.append_nil] at hlog
    refine ⟨⟨done, x :: rest, hfound, hring, ?_, fun _ => List.cons_ne_nil x rest⟩, hok, h.last_lt,
      h.givenUp, h.staged⟩
    show List.Forall₂ Carries (done ++ [x]) (s.fwLog ++ [boxBytes s.mailbox.reg s.fwBox])
    exact List.rel_append hlog (List.Forall₂.cons hx List.Forall₂.nil)
  · exact h

end step

/-- A call made while the firmware is ready fits the staging buffer. -/
def Staged (s : H2c) : H2cEvent → Prop
  | .call c => s.fwReady = true → c.cmdbuffer.length ≤ 8
  | .host | .fw | .surpriseRemoved => True

theorem h2cInv_step (s : H2c) (e : H2cEvent) (he : Staged s e) (h : H2cInv s) :
    H2cInv (h2cStep s e) := by
  cases e with
  | call c => exact h.call c he
  | host => exact h.host
  | fw => exact h.fw
  | surpriseRemoved => exact ⟨h.delivery, h.pc, h.last_lt, h.givenUp, h.staged⟩

theorem H2cInv.ok {s : H2c} (h : H2cInv s) : H2cOk s := by
  obtain ⟨done, q, hfound, hring, hlog, hne⟩ := h.delivery
  -- what has been read comes first among the commands found
  have hread : (done ++ if s.fwRead then q.take 1 else []) <+: s.found := by
    rw [hfound, List.append_assoc, List.prefix_append_right_inj]
    split_ifs
    · exact (List.take_prefix 1 q).trans (List.prefix_append q _)
    · exact List.nil_prefix
  have hlen := hlog.length_eq
  refine ⟨?_, ?_, ?_, h.givenUp, h.staged⟩
  · rw [← hlen, ← List.prefix_iff_eq_take.mp hread]
    exact hlog
  · rw [← hlen]
    exact hread.length_le
  · intro hidle hbits
    have hq := hring.eq_nil (hbits _ hring.read_lt)
    have hno : s.fwRead = false := by
      cases hr : s.fwRead with
      | true => exact absurd hq (hne hr)
      | false => rfl
    rw [← hlen, hfound, hidle, hq, hno]
    simp [unpublished]

/-- Commands along every run whose calls fit the staging buffer. -/
theorem h2c_of_run (reg : ℕ → UInt8) (fwReady : Bool) (es : List H2cEvent)
    (h : Guarded h2cStep Staged (h2cInit reg fwReady) es) (n : ℕ) :
    H2cOk (run h2cStep (h2cInit reg fwReady) (es.take n)) :=
  (invariant_run_take h2cInv_step h (h2cInv_init reg fwReady) n).ok

/-- A command of five bytes, and the firmware reading it before the call has returned. -/
def fiveBytes : List H2cEvent :=
  [.call ⟨0x40, [1, 2, 3, 4, 5]⟩] ++ List.replicate 7 .host ++ [.fw, .host, .fw]

theorem h2c_of_fiveBytes : H2cOk (run h2cStep (h2cInit (fun _ => 0) true) fiveBytes) := by
  have hguard : Guarded h2cStep Staged (h2cInit (fun _ => 0) true) fiveBytes :=
    ⟨fun _ => by decide, trivial, trivial, trivial, trivial, trivial, trivial, trivial, trivial,
      trivial, trivial, trivial⟩
  exact h2c_of_run (fun _ => 0) true fiveBytes hguard 11

/-- A command of nine bytes is given up, but its last byte is written behind the buffer. -/
theorem nineBytes_spilled :
    ¬ H2cOk (run h2cStep (h2cInit (fun _ => 0) true) [.call ⟨0x40, List.replicate 9 1⟩]) :=
  fun h => absurd h.staged (by decide)

end Rtl8821au.Fw
