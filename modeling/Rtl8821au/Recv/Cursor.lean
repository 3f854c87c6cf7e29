import Mathlib.Algebra.Group.Int.Defs
import Rtl8821au.Lib.Run
import Rtl8821au.Recv.Frame

/-!
# The pointers of a receive frame

The four functions of `rtw_recv.h` (lines 446–550) that move `rx_data` or
`rx_tail` of a `struct recv_frame`: each moves the pointer first, moves it back
and answers NULL when it crossed its bound, and else lets `len` follow. Pointers
are addresses, `len` is a `uint` and follows modulo `2^32`.

* `Cursor.Consistent`: `rx_head ≤ rx_data ≤ rx_tail ≤ rx_end`, and `len` is
  `(unsigned int)(tail - data)`, as the comment at `struct recv_frame` has it.
* `CursorOp.apply_cases`: what one call can do.
* `ops_consistent`: every state that calls with non-negative sizes lead to is
  consistent; in each of them a call succeeds or leaves everything as it was, and
  `recvframe_push` undoes `recvframe_pull`, `recvframe_put` undoes
  `recvframe_pull_tail`.
* `recvframePull_ofFrame` and its like: on the frames of the receive path these
  are the cursor functions of `RecvFrame`.
-/

namespace Rtl8821au.Recv

/-- The pointers and the length of `struct recv_frame` (`rtw_recv.h`, lines 366–391). -/
structure Cursor where
  rxHead : ℤ
  rxData : ℤ
  rxTail : ℤ
  rxEnd : ℤ
  len : BitVec 32
  deriving DecidableEq, Repr

namespace Cursor

def moveData (c : Cursor) (d : ℤ) : Cursor := { c with rxData := c.rxData + d }

def moveTail (c : Cursor) (d : ℤ) : Cursor := { c with rxTail := c.rxTail + d }

/-- What the four functions share: a pointer moves by `d`. When it `crossed` its bound
    it moves back and the answer is NULL, else `len` moves by `n`. -/
def attempt (move : Cursor → ℤ → Cursor) (ptr : Cursor → ℤ) (crossed : Cursor → Bool) (d n : ℤ) :
    Option Cursor → Option ℤ × Option Cursor
  | none => (none, none)
  | some c =>
    let c := move c d
    if crossed c then (none, some (move c (-d)))
    else (some (ptr c), some { c with len := c.len + BitVec.ofInt 32 n })

/-- `recvframe_push` (lines 446–471). -/
def recvframePush (precvframe : Option Cursor) (sz : ℤ) : Option ℤ × Option Cursor :=
  attempt moveData rxData (fun c => c.rxData < c.rxHead) (-sz) sz precvframe

/-- `recvframe_pull` (lines 474–497). -/
def recvframePull (precvframe : Option Cursor) (sz : ℤ) : Option ℤ × Option Cursor :=
  attempt moveData rxData (fun c => c.rxData > c.rxTail) sz (-sz) precvframe

/-- `recvframe_put` (lines 499–524). -/
def recvframePut (precvframe : Option Cursor) (sz : ℤ) : Option ℤ × Option Cursor :=
  attempt moveTail rxTail (fun c => c.rxTail > c.rxEnd) sz sz precvframe

/-- `recvframe_pull_tail` (lines 528–550). -/
def recvframePullTail (precvframe : Option Cursor) (sz : ℤ) : Option ℤ × Option Cursor :=
  attempt moveTail rxTail (fun c => c.rxTail < c.rxData) (-sz) (-sz) precvframe

/-- The pointers are in order, and `len = (unsigned int)(tail - data)`. -/
structure Consistent (c : Cursor) : Prop where
  head_le_data : c.rxHead ≤ c.rxData
  data_le_tail : c.rxData ≤ c.rxTail
  tail_le_end : c.rxTail ≤ c.rxEnd
  len_eq : c.len = BitVec.ofInt 32 (c.rxTail - c.rxData)

/-- In a buffer of less than 4 GiB `len` is the distance itself. -/
theorem Consistent.len_toNat {c : Cursor} (h : c.Consistent)
    (hsmall : c.rxEnd - c.rxHead < 2 ^ 32) : (c.len.toNat : ℤ) = c.rxTail - c.rxData := by
  have h1 := h.head_le_data
  have h2 := h.data_le_tail
  have h3 := h.tail_le_end
  rw [h.len_eq, BitVec.toNat_ofInt, Int.toNat_of_nonneg (Int.emod_nonneg _ (by decide))]
  exact Int.emod_eq_of_lt (by omega) (by omega)

/-! ## One call -/

section attempt

variable {move : Cursor → ℤ → Cursor} {ptr : Cursor → ℤ} {crossed : Cursor → Bool} {d n : ℤ}
  {c : Cursor}

/-- A pointer that is moved back stands where it was. -/
theorem attempt_crossed (hback : move (move c d) (-d) = c) (h : crossed (move c d) = true) :
    attempt move ptr crossed d n (some c) = (none, some c) := by
  rw [attempt, if_pos h, hback]

theorem attempt_moved (h : crossed (move c d) = false) :
    attempt move ptr crossed d n (some c) = (some (ptr (move c d)),
      some { move c d with len := (move c d).len + BitVec.ofInt 32 n }) := by
  rw [attempt, if_neg (by rw [h]; exact Bool.false_ne_true)]

end attempt

theorem moveData_back (c : Cursor) (d : ℤ) : (c.moveData d).moveData (-d) = c := by
  simp [moveData]

theorem moveTail_back (c : Cursor) (d : ℤ) : (c.moveTail d).moveTail (-d) = c := by
  simp [moveTail]

theorem recvframePush_eq (c : Cursor) (sz : ℤ) : recvframePush (some c) sz =
    if c.rxHead ≤ c.rxData - sz then
      (some (c.rxData - sz),
        some { c with rxData := c.rxData - sz, len := c.len + BitVec.ofInt 32 sz })
    else (none, some c) := by
  by_cases h : c.rxHead ≤ c.rxData - sz
  · rw [if_pos h, recvframePush, attempt_moved (decide_eq_false (by simp only [moveData]; omega))]
    rfl
  · rw [if_neg h, recvframePush, attempt_crossed (moveData_back c _)
      (decide_eq_true (by simp only [moveData]; omega))]

theorem recvframePull_eq (c : Cursor) (sz : ℤ) : recvframePull (some c) sz =
    if c.rxData + sz ≤ c.rxTail then
      (some (c.rxData + sz),
        some { c with rxData := c.rxData + sz, len := c.len + BitVec.ofInt 32 (-sz) })
    else (none, some c) := by
  by_cases h : c.rxData + sz ≤ c.rxTail
  · rw [if_pos h, recvframePull, attempt_moved (decide_eq_false (by simp only [moveData]; omega))]
    rfl
  · rw [if_neg h, recvframePull, attempt_crossed (moveData_back c _)
      (decide_eq_true (by simp only [moveData]; omega))]

theorem recvframePut_eq (c : Cursor) (sz : ℤ) : recvframePut (some c) sz =
    if c.rxTail + sz ≤ c.rxEnd then
      (some (c.rxTail + sz),
        some { c with rxTail := c.rxTail + sz, len := c.len + BitVec.ofInt 32 sz })
    else (none, some c) := by
  by_cases h : c.rxTail + sz ≤ c.rxEnd
  · rw [if_pos h, recvframePut, attempt_moved (decide_eq_false (by simp only [moveTail]; omega))]
    rfl
  · rw [if_neg h, recvframePut, attempt_crossed (moveTail_back c _)
      (decide_eq_true (by simp only [moveTail]; omega))]

theorem recvframePullTail_eq (c : Cursor) (sz : ℤ) : recvframePullTail (some c) sz =
    if c.rxData ≤ c.rxTail - sz then
      (some (c.rxTail - sz),
        some { c with rxTail := c.rxTail - sz, len := c.len + BitVec.ofInt 32 (-sz) })
    else (none, some c) := by
  by_cases h : c.rxData ≤ c.rxTail - sz
  · rw [if_pos h, recvframePullTail,
      attempt_moved (decide_eq_false (by simp only [moveTail]; omega))]
    rfl
  · rw [if_neg h, recvframePullTail, attempt_crossed (moveTail_back c _)
      (decide_eq_true (by simp only [moveTail]; omega))]

/-- `len` follows a pointer that moves by `n`. -/
theorem len_follows {c : Cursor} (h : c.Consistent) (n : ℤ) :
    c.len + BitVec.ofInt 32 n = BitVec.ofInt 32 (c.rxTail - c.rxData + n) := by
  rw [h.len_eq, BitVec.ofInt_add]

/-- What a pull took off, the push of as much brings back. -/
theorem push_undoes_pull {c d : Cursor} {sz p : ℤ} (h : c.Consistent)
    (hpull : recvframePull (some c) sz = (some p, some d)) :
    recvframePush (some d) sz = (some c.rxData, some c) := by
  rw [recvframePull_eq] at hpull
  split_ifs at hpull with hle
  · obtain ⟨-, rfl⟩ : c.rxData + sz = p ∧ _ = d := by simpa using hpull
    have hdata : c.rxData + sz - sz = c.rxData := by omega
    have hlen : c.len + BitVec.ofInt 32 (-sz) + BitVec.ofInt 32 sz = c.len := by
      rw [BitVec.add_assoc, ← BitVec.ofInt_add, Int.add_left_neg]
      exact BitVec.add_zero _
    rw [recvframePush_eq]
    dsimp only
    rw [hdata, hlen, if_pos h.head_le_data]
  · cases hpull

/-- What a pull took off at the tail, the put of as much brings back. -/
theorem put_undoes_pullTail {c d : Cursor} {sz p : ℤ} (h : c.Consistent)
    (hpull : recvframePullTail (some c) sz = (some p, some d)) :
    recvframePut (some d) sz = (some c.rxTail, some c) := by
  rw [recvframePullTail_eq] at hpull
  split_ifs at hpull with hle
  · obtain ⟨-, rfl⟩ : c.rxTail - sz = p ∧ _ = d := by simpa using hpull
    have htail : c.rxTail - sz + sz = c.rxTail := by omega
    have hlen : c.len + BitVec.ofInt 32 (-sz) + BitVec.ofInt 32 sz = c.len := by
      rw [BitVec.add_assoc, ← BitVec.ofInt_add, Int.add_left_neg]
      exact BitVec.add_zero _
    rw [recvframePut_eq]
    dsimp only
    rw [htail, hlen, if_pos h.tail_le_end]
  · cases hpull

/-! ## Runs -/

end Cursor

inductive CursorOp where
  | push
  | pull
  | put
  | pullTail
  deriving DecidableEq, Repr

def CursorOp.apply : CursorOp → Option Cursor → ℤ → Option ℤ × Option Cursor
  | .push => Cursor.recvframePush
  | .pull => Cursor.recvframePull
  | .put => Cursor.recvframePut
  | .pullTail => Cursor.recvframePullTail

/-- A call succeeds and the pointers are consistent in the same buffer, or it answers
    NULL and nothing has changed. -/
theorem CursorOp.apply_cases (op : CursorOp) {c : Cursor} {sz : ℤ} (h : c.Consistent)
    (hsz : 0 ≤ sz) :
    (∃ p d, op.apply (some c) sz = (some p, some d) ∧ d.Consistent ∧ d.rxHead = c.rxHead ∧
      d.rxEnd = c.rxEnd) ∨ op.apply (some c) sz = (none, some c) := by
  have h1 := h.head_le_data
  have h2 := h.data_le_tail
  have h3 := h.tail_le_end
  cases op with
  | push =>
    simp only [apply, Cursor.recvframePush_eq]
    split_ifs with hle
    · refine .inl ⟨_, _, rfl, ⟨hle, by dsimp only; omega, h3, ?_⟩, rfl, rfl⟩
      show c.len + BitVec.ofInt 32 sz = BitVec.ofInt 32 (c.rxTail - (c.rxData - sz))
      rw [Cursor.len_follows h]
      congr 1
      omega
    · exact .inr rfl
  | pull =>
    simp only [apply, Cursor.recvframePull_eq]
    split_ifs with hle
    · refine .inl ⟨_, _, rfl, ⟨by dsimp only; omega, hle, h3, ?_⟩, rfl, rfl⟩
      show c.len + BitVec.ofInt 32 (-sz) = BitVec.ofInt 32 (c.rxTail - (c.rxData + sz))
      rw [Cursor.len_follows h]
      congr 1
      omega
    · exact .inr rfl
  | put =>
    simp only [apply, Cursor.recvframePut_eq]
    split_ifs with hle
    · refine .inl ⟨_, _, rfl, ⟨h1, by dsimp only; omega, hle, ?_⟩, rfl, rfl⟩
      show c.len + BitVec.ofInt 32 sz = BitVec.ofInt 32 (c.rxTail + sz - c.rxData)
      rw [Cursor.len_follows h]
      congr 1
      omega
    · exact .inr rfl
  | pullTail =>
    simp only [apply, Cursor.recvframePullTail_eq]
    split_ifs with hle
    · refine .inl ⟨_, _, rfl, ⟨h1, hle, by dsimp only; omega, ?_⟩, rfl, rfl⟩
      show c.len + BitVec.ofInt 32 (-sz) = BitVec.ofInt 32 (c.rxTail - sz - c.rxData)
      rw [Cursor.len_follows h]
      congr 1
      omega
    · exact .inr rfl

/-- One call of a run. -/
def opStep (precvframe : Option Cursor) (r : CursorOp × ℤ) : Option Cursor :=
  (r.1.apply precvframe r.2).2

/-- Consistent pointers into the buffer of `c`. -/
def Cursor.InBuffer (c : Cursor) (precvframe : Option Cursor) : Prop :=
  ∃ d, precvframe = some d ∧ d.Consistent ∧ d.rxHead = c.rxHead ∧ d.rxEnd = c.rxEnd

theorem Cursor.InBuffer.step {c : Cursor} {f : Option Cursor} (h : c.InBuffer f)
    {r : CursorOp × ℤ} (hsz : 0 ≤ r.2) : c.InBuffer (opStep f r) := by
  obtain ⟨d, rfl, hd, hhead, hend⟩ := h
  rcases r.1.apply_cases hd hsz with ⟨p, e, hres, he, hh, ht⟩ | hres
  · exact ⟨e, congrArg Prod.snd hres, he, hh.trans hhead, ht.trans hend⟩
  · exact ⟨d, congrArg Prod.snd hres, hd, hhead, hend⟩

theorem Cursor.Consistent.run {c : Cursor} (h : c.Consistent) (ops : List (CursorOp × ℤ))
    (hsz : ∀ r ∈ ops, 0 ≤ r.2) : c.InBuffer (Run.run opStep (some c) ops) :=
  Run.invariant_run (fun _ _ hC hI => hI.step hC) (Run.guarded_of_forall _ hsz)
    ⟨c, rfl, h, rfl, rfl⟩

/-- Calls with non-negative sizes keep the pointers consistent, each of them succeeds or
    leaves everything as it was, and what a pull did the inverse call undoes. -/
theorem ops_consistent {c : Cursor} (h : c.Consistent) (ops : List (CursorOp × ℤ))
    (hsz : ∀ r ∈ ops, 0 ≤ r.2) :
    ∃ d, Run.run opStep (some c) ops = some d ∧ d.Consistent ∧
      (c.rxEnd - c.rxHead < 2 ^ 32 → (d.len.toNat : ℤ) = d.rxTail - d.rxData) ∧
      ∀ sz, 0 ≤ sz →
        (∀ op : CursorOp, (∃ p e, op.apply (some d) sz = (some p, some e) ∧ e.Consistent) ∨
          op.apply (some d) sz = (none, some d)) ∧
        (∀ p e, Cursor.recvframePull (some d) sz = (some p, some e) →
          Cursor.recvframePush (some e) sz = (some d.rxData, some d)) ∧
        ∀ p e, Cursor.recvframePullTail (some d) sz = (some p, some e) →
          Cursor.recvframePut (some e) sz = (some d.rxTail, some d) := by
  obtain ⟨d, hrun, hd, hhead, hend⟩ := h.run ops hsz
  refine ⟨d, hrun, hd, fun hsmall => hd.len_toNat (by omega), fun sz hsz => ⟨fun op => ?_,
    fun p e => Cursor.push_undoes_pull hd, fun p e => Cursor.put_undoes_pullTail hd⟩⟩
  rcases op.apply_cases hd hsz with ⟨p, e, hres, he, -, -⟩ | hres
  · exact .inl ⟨p, e, hres, he⟩
  · exact .inr hres

/-- A frame of 100 bytes at the start of a buffer of 256. -/
def shortCursor : Cursor := ⟨4096, 4096, 4196, 4352, 100⟩

theorem shortCursor_ops :
    ∃ d, Run.run opStep (some shortCursor) [(.pull, 26), (.pullTail, 8), (.put, 500), (.push, 4)] =
      some d ∧ d = ⟨4096, 4118, 4188, 4352, 70⟩ ∧ d.Consistent ∧
      Cursor.recvframePull (some d) 71 = (none, some d) := by
  have hshort : shortCursor.Consistent := ⟨by decide, by decide, by decide, by decide⟩
  obtain ⟨d, hrun, hd, -⟩ := ops_consistent hshort
    [(.pull, 26), (.pullTail, 8), (.put, 500), (.push, 4)] (by decide)
  have hrun' : Run.run opStep (some shortCursor)
      [(.pull, 26), (.pullTail, 8), (.put, 500), (.push, 4)] =
      some ⟨4096, 4118, 4188, 4352, 70⟩ := by decide
  obtain rfl := Option.some.inj (hrun.symm.trans hrun')
  exact ⟨_, hrun, rfl, hd, by decide⟩

/-! ## The frames of the receive path -/

/-- The pointers of a frame whose buffer starts at address `base`. -/
def Cursor.ofFrame (base : ℤ) (f : RecvFrame) : Cursor :=
  { rxHead := base, rxData := base + f.rxData, rxTail := base + f.rxTail
    rxEnd := base + f.mem.length, len := BitVec.ofNat 32 f.len }

variable {f : RecvFrame}

theorem ofFrame_consistent (base : ℤ) (h : f.LenOk) : (Cursor.ofFrame base f).Consistent := by
  have h1 := f.data_le_tail
  have h2 := f.tail_le_end
  refine ⟨?_, ?_, ?_, ?_⟩ <;> simp only [Cursor.ofFrame]
  · omega
  · omega
  · omega
  · rw [h, ← BitVec.ofInt_natCast]
    congr 1
    omega

theorem recvframePull_ofFrame (base : ℤ) (h : f.LenOk) (sz : ℕ) :
    (Cursor.recvframePull (some (.ofFrame base f)) sz).2 =
      some (.ofFrame base (Recv.recvframePull f sz)) := by
  have hlen : f.len = f.rxTail - f.rxData := h
  rw [Cursor.recvframePull_eq, Recv.recvframePull]
  by_cases hle : f.rxData + sz ≤ f.rxTail
  · have hle' : (Cursor.ofFrame base f).rxData + sz ≤ (Cursor.ofFrame base f).rxTail := by
      simp only [Cursor.ofFrame]
      omega
    rw [dif_pos hle, if_pos hle']
    simp only [Cursor.ofFrame, Option.some.injEq, Cursor.mk.injEq, true_and]
    refine ⟨by push_cast; omega, ?_⟩
    rw [← BitVec.ofInt_natCast, ← BitVec.ofInt_natCast, ← BitVec.ofInt_add]
    congr 1
    omega
  · have hle' : ¬ (Cursor.ofFrame base f).rxData + sz ≤ (Cursor.ofFrame base f).rxTail := by
      simp only [Cursor.ofFrame]
      omega
    rw [dif_neg hle, if_neg hle']

theorem recvframePut_ofFrame (base : ℤ) (sz : ℕ) :
    (Cursor.recvframePut (some (.ofFrame base f)) sz).2 =
      some (.ofFrame base (Recv.recvframePut f sz)) := by
  rw [Cursor.recvframePut_eq, Recv.recvframePut]
  by_cases hle : f.rxTail + sz ≤ f.mem.length
  · have hle' : (Cursor.ofFrame base f).rxTail + sz ≤ (Cursor.ofFrame base f).rxEnd := by
      simp only [Cursor.ofFrame]
      omega
    rw [dif_pos hle, if_pos hle']
    simp only [Cursor.ofFrame, Option.some.injEq, Cursor.mk.injEq, true_and]
    refine ⟨by push_cast; omega, ?_⟩
    rw [← BitVec.ofInt_natCast, ← BitVec.ofInt_natCast, ← BitVec.ofInt_add]
    congr 1
  · have hle' : ¬ (Cursor.ofFrame base f).rxTail + sz ≤ (Cursor.ofFrame base f).rxEnd := by
      simp only [Cursor.ofFrame]
      omega
    rw [dif_neg hle, if_neg hle']

theorem recvframePullTail_ofFrame (base : ℤ) (h : f.LenOk) (sz : ℕ) :
    (Cursor.recvframePullTail (some (.ofFrame base f)) sz).2 =
      some (.ofFrame base (Recv.recvframePullTail f sz)) := by
  have hlen : f.len = f.rxTail - f.rxData := h
  rw [Cursor.recvframePullTail_eq, Recv.recvframePullTail]
  by_cases hle : f.rxData + sz ≤ f.rxTail
  · have hle' : (Cursor.ofFrame base f).rxData ≤ (Cursor.ofFrame base f).rxTail - sz := by
      simp only [Cursor.ofFrame]
      omega
    rw [dif_pos hle, if_pos hle']
    simp only [Cursor.ofFrame, Option.some.injEq, Cursor.mk.injEq, true_and]
    refine ⟨by omega, ?_⟩
    rw [← BitVec.ofInt_natCast, ← BitVec.ofInt_natCast, ← BitVec.ofInt_add]
    congr 1
    omega
  · have hle' : ¬ (Cursor.ofFrame base f).rxData ≤ (Cursor.ofFrame base f).rxTail - sz := by
      simp only [Cursor.ofFrame]
      omega
    rw [dif_neg hle, if_neg hle']

end Rtl8821au.Recv
