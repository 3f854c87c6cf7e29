import Rtl8821au.Efuse.Read
import Rtl8821au.Lib.Fueled
import Mathlib.Data.Nat.Find

/-!
# Waiting for the efuse

`efuse_OneByteRead` (`usb.c`, lines 2122–2160) polls the control register until it is ready,
and `read_efuse`, `efuse_get_current_size` and `efuse_pg_packet_read` (`efuse.c`) call it in
loops. The register may answer anything: `reads n` is what the `n`-th read of a register
returns.

* `wp_efuseOneByteRead`: a call ends exactly if it sees the ready bit, and then with the byte
  that is read next. The counter is a byte and never reaches its bound of 1000.
* `efuse_ends_iff`: all reads and all loops over them end exactly if the register is ready
  again and again.
-/

namespace Rtl8821au.Efuse.Poll

open Fueled

/-! ## Model of the C code -/

/-- An access to `EFUSE_CTRL + reg`. -/
inductive Access where
  | read (reg : ℕ) (val : UInt8)
  | write (reg : ℕ) (val : UInt8)

/-- The register reads so far, and the accesses, the last one first. -/
structure Dev where
  pos : ℕ
  log : List Access

def Dev.put (reg : ℕ) (val : UInt8) (s : Dev) : Dev := { s with log := .write reg val :: s.log }

/-- `rtl_write_byte`. -/
def writeByte (reg : ℕ) (val : UInt8) : Fueled Dev Unit := lift fun s => ((), s.put reg val)

variable (reads : ℕ → UInt8)

/-- After a register read. -/
def Dev.next (reg : ℕ) (s : Dev) : Dev :=
  { pos := s.pos + 1, log := .read reg (reads s.pos) :: s.log }

/-- `rtl_read_byte`. -/
def readByte (reg : ℕ) : Fueled Dev UInt8 := lift fun s => (reads s.pos, s.next reads reg)

/-- The condition of the `while` loop, and its body (lines 2144–2148). -/
def pollTurn (tmpidx : UInt8) : Fueled Dev (UInt8 ⊕ UInt8) := do
  let v ← readByte reads 3
  if v &&& 0x80 = 0 ∧ tmpidx.toNat < 1000 then pure (.inl (tmpidx + 1)) else pure (.inr tmpidx)

/-- `efuse_OneByteRead`: `bResult` and `*data`. -/
def efuseOneByteRead (addr : ℕ) : Fueled Dev (UInt8 × UInt8) := do
  writeByte 1 (UInt8.ofNat (addr % 256))
  let v ← readByte reads 2
  writeByte 2 ((UInt8.ofNat (addr / 256) &&& 0x03) ||| (v &&& 0xFC))
  writeByte 3 0x72
  let tmpidx ← whileLoop (pollTurn reads) 0
  if tmpidx.toNat < 1000 then do
    let data ← readByte reads 0
    pure (1, data)
  else pure (0, 0xff)

/-! ### `read_efuse` -/

/-- The loop over the words of a section (`efuse.c`, lines 223–244). -/
def readWords (wden : UInt8) : List ℕ → ℕ → (ℕ → UInt16) → Fueled Dev (ℕ × (ℕ → UInt16))
  | [], addr, w => pure (addr, w)
  | i :: is, addr, w =>
    if wordEnabled wden i then do
      let low ← efuseOneByteRead reads addr
      let w := Function.update w i low.2.toUInt16
      if ¬ addr + 1 < realContentLen then pure (addr + 1, w)
      else do
        let high ← efuseOneByteRead reads (addr + 1)
        let w := Function.update w i (w i ||| (high.2.toUInt16 <<< 8 &&& 0xFF00))
        if ¬ addr + 2 < realContentLen then pure (addr + 2, w) else readWords wden is (addr + 2) w
    else readWords wden is addr w

/-- Lines 219–245. -/
def readSection (offset wden : UInt8) (addr : ℕ) (w : ℕ → ℕ → UInt16) :
    Fueled Dev (ℕ × (ℕ → ℕ → UInt16)) :=
  if offset.toNat < maxSection then do
    let r ← readWords reads wden (List.range 4) addr (w offset.toNat)
    pure (r.1, Function.update w offset.toNat r.2)
  else pure (addr, w)

/-- `efuseHeader`, `eFuse_Addr` and `eFuseWord`. -/
structure ReadState where
  header : UInt8
  addr : ℕ
  w : ℕ → ℕ → UInt16

/-- The data of a packet and the next header. -/
def readPacket (offset wden : UInt8) (addr : ℕ) (w : ℕ → ℕ → UInt16) :
    Fueled Dev (ReadState ⊕ ReadState) := do
  let r ← readSection reads offset wden addr w
  let next ← efuseOneByteRead reads r.1
  pure (.inl { header := next.2, addr := r.1 + 1, w := r.2 })

/-- The `while` loop of `read_efuse` (lines 190–254). -/
def readTurn (st : ReadState) : Fueled Dev (ReadState ⊕ ReadState) :=
  if st.header ≠ 0xFF ∧ st.addr < realContentLen then
    if extHeader st.header then do
      let ext ← efuseOneByteRead reads st.addr
      if ext.2 = 0xFF then pure (.inr { st with addr := st.addr + 1 })
      else if allWordsDisabled ext.2 then do
        let next ← efuseOneByteRead reads (st.addr + 1)
        pure (.inr { st with header := next.2, addr := st.addr + 2 })
      else readPacket reads (extOffset st.header ext.2) (ext.2 &&& 0x0F) (st.addr + 1) st.w
    else
      readPacket reads ((st.header >>> 4) &&& 0x0F) (st.header &&& 0x0F) st.addr st.w
  else pure (.inr st)

/-- `read_efuse` (lines 128–287), with its buffers allocated: the contents of `pbuf` and what
    `HW_VAR_EFUSE_BYTES` is set to. -/
def readEfuse (offset sizeByte : ℕ) (pbuf : ℕ → UInt8) :
    Fueled Dev ((ℕ → UInt8) × Option ℕ) :=
  if mapLen < offset + sizeByte then pure (pbuf, none)
  else do
    let first ← efuseOneByteRead reads 0
    if first.2 = 0xFF then pure (pbuf, none)
    else do
      let st ← whileLoop (readTurn reads) { header := first.2, addr := 1, w := fun _ _ => 0xFFFF }
      pure (fun i => if i < sizeByte then efuseTbl st.w (offset + i) else pbuf i, some st.addr)

/-! ### `efuse_get_current_size` -/

/-- The `while` loop (lines 431–455); the read comes before the check of the address. -/
def sizeTurn (addr : ℕ) : Fueled Dev (ℕ ⊕ ℕ) := do
  let r ← efuseOneByteRead reads addr
  if r.1 ≠ 0 ∧ addr < realContentLen ∧ r.2 ≠ 0xFF then
    if extHeader r.2 then do
      let ext ← efuseOneByteRead reads (addr + 1)
      if allWordsDisabled ext.2 then pure (.inl (addr + 2))
      else pure (.inl (addr + 1 + calculateWordCnts (ext.2 &&& 0x0F) * 2 + 1))
    else pure (.inl (addr + calculateWordCnts (r.2 &&& 0x0F) * 2 + 1))
  else pure (.inr addr)

/-- `efuse_get_current_size` (lines 420–460) from the stored size `usedbytes`. -/
def efuseGetCurrentSize (usedbytes : UInt16) : Fueled Dev ℕ :=
  whileLoop (sizeTurn reads) usedbytes.toNat

/-! ### `efuse_pg_packet_read` -/

/-- The loop over the bytes of a packet (lines 544–551): `tmpdata` and `bDataEmpty`. -/
def readData (addr : ℕ) : List ℕ → (ℕ → UInt8) → Bool → Fueled Dev ((ℕ → UInt8) × Bool)
  | [], tmpdata, bDataEmpty => pure (tmpdata, bDataEmpty)
  | k :: ks, tmpdata, bDataEmpty => do
    let r ← efuseOneByteRead reads (addr + 1 + k)
    if r.1 ≠ 0 then
      readData addr ks (Function.update tmpdata k r.2) (bDataEmpty && r.2 == 0xFF)
    else readData addr ks tmpdata bDataEmpty

/-- A header is read and `efuse_addr` is at its last byte (lines 537–562). -/
def pgPacket (offset hoffset hworden : UInt8) (addr : ℕ) (s : PgRead) :
    Fueled Dev (PgRead ⊕ PgRead) :=
  let wordCnts := calculateWordCnts hworden
  if hoffset = offset then do
    let r ← readData reads addr (List.range (wordCnts * 2)) s.tmpdata true
    if r.2 then
      pure (.inl { s with hworden, wordCnts, tmpdata := r.1, efuseAddr := addr + wordCnts * 2 + 1 })
    else
      pure (.inl { s with hworden, wordCnts, tmpdata := r.1, efuseAddr := addr, readState := .data })
  else pure (.inl { s with hworden, wordCnts, efuseAddr := addr + wordCnts * 2 + 1 })

/-- The `while` loop (lines 517–573). -/
def pgTurn (offset : UInt8) (s : PgRead) : Fueled Dev (PgRead ⊕ PgRead) :=
  if s.bContinual ∧ s.efuseAddr < realContentLen then
    match s.readState with
    | .header => do
      let r ← efuseOneByteRead reads s.efuseAddr
      if r.1 ≠ 0 ∧ r.2 ≠ 0xFF then
        if extHeader r.2 then do
          let ext ← efuseOneByteRead reads (s.efuseAddr + 1)
          if !allWordsDisabled ext.2 then
            pgPacket reads offset (extOffset r.2 ext.2) (ext.2 &&& 0x0F) (s.efuseAddr + 1) s
          else pure (.inr { s with efuseAddr := s.efuseAddr + 2 })
        else
          pgPacket reads offset ((r.2 >>> 4) &&& 0x0F) (r.2 &&& 0x0F) s.efuseAddr s
      else pure (.inl { s with bContinual := false })
    | .data =>
      pure (.inl { s with
        data := wordEnableDataRead s.hworden s.tmpdata s.data
        efuseAddr := s.efuseAddr + s.wordCnts * 2 + 1
        readState := .header })
  else pure (.inr s)

/-- `efuse_pg_packet_read` (lines 487–582): the contents of `data` and the result. -/
def efusePgPacketRead (offset : UInt8) (data : ℕ → UInt8) : Fueled Dev ((ℕ → UInt8) × Bool) :=
  if maxSection < offset.toNat then pure (data, false)
  else do
    let s ← whileLoop (pgTurn reads offset)
      { readState := .header, bContinual := true, efuseAddr := 0, hworden := 0, wordCnts := 0
        tmpdata := fun _ => 0xFF, data := fun k => if k < 8 then 0xFF else data k }
    pure (s.data, !(List.range 8).all fun k => s.data k == 0xFF)

/-! ## The wait -/

/-- The ready bit of the control register. -/
def Ready (v : UInt8) : Prop := v &&& 0x80 ≠ 0

instance (v : UInt8) : Decidable (Ready v) := inferInstanceAs (Decidable (v &&& 0x80 ≠ 0))

/-- The device when the read command is written. -/
def Dev.commanded (addr : ℕ) (s : Dev) : Dev :=
  ((s.put 1 (UInt8.ofNat (addr % 256))).next reads 2
    |>.put 2 ((UInt8.ofNat (addr / 256) &&& 0x03) ||| (reads s.pos &&& 0xFC))).put 3 0x72

section wait

variable {reads}

@[simp] theorem wp_readByte {reg : ℕ} {Q : UInt8 → Dev → Prop} {s : Dev} :
    (readByte reads reg).wp Q s ↔ Q (reads s.pos) (s.next reads reg) := wp_lift

@[simp] theorem wp_writeByte {reg : ℕ} {val : UInt8} {Q : Unit → Dev → Prop} {s : Dev} :
    (writeByte reg val).wp Q s ↔ Q () (s.put reg val) := wp_lift

@[simp] theorem pos_next (reg : ℕ) (s : Dev) : (s.next reads reg).pos = s.pos + 1 := rfl

@[simp] theorem pos_put (reg : ℕ) (val : UInt8) (s : Dev) : (s.put reg val).pos = s.pos := rfl

@[simp] theorem pos_commanded (addr : ℕ) (s : Dev) :
    (s.commanded reads addr).pos = s.pos + 1 := rfl

/-- The bound of 1000 is no bound for a byte. -/
theorem tmpidx_lt (tmpidx : UInt8) : tmpidx.toNat < 1000 := by
  have h := tmpidx.toNat_lt
  omega

theorem wp_pollTurn {tmpidx : UInt8} {Q : UInt8 ⊕ UInt8 → Dev → Prop} {s : Dev} :
    (pollTurn reads tmpidx).wp Q s ↔
      Q (if Ready (reads s.pos) then .inr tmpidx else .inl (tmpidx + 1)) (s.next reads 3) := by
  unfold pollTurn
  rw [wp_bind, wp_readByte]
  by_cases h : Ready (reads s.pos)
  · rw [if_pos h, if_neg fun hc => h hc.1, wp_pure]
  · rw [if_neg h, if_pos ⟨not_not.mp h, tmpidx_lt tmpidx⟩, wp_pure]

/-- The wait when the register is ready after `k` turns. -/
theorem wp_poll_of_first {Q : UInt8 → Dev → Prop} {k : ℕ} {tmpidx : UInt8} {s : Dev}
    (hwait : ∀ j < k, ¬ Ready (reads (s.pos + j))) (hready : Ready (reads (s.pos + k))) :
    (whileLoop (pollTurn reads) tmpidx).wp Q s ↔
      Q (tmpidx + UInt8.ofNat k) ((Dev.next reads 3)^[k + 1] s) := by
  induction k generalizing tmpidx s with
  | zero =>
    rw [wp_whileLoop, wp_pollTurn, if_pos (show Ready (reads s.pos) from hready)]
    simp [afterTurn]
  | succ k ih =>
    have hshift : ∀ j, (s.next reads 3).pos + j = s.pos + (j + 1) := fun j => by
      rw [pos_next]
      omega
    have hzero : ¬ Ready (reads s.pos) := hwait 0 (Nat.succ_pos k)
    rw [wp_whileLoop, wp_pollTurn, if_neg hzero]
    show (whileLoop (pollTurn reads) (tmpidx + 1)).wp Q (s.next reads 3) ↔ _
    rw [ih (fun j hj => hshift j ▸ hwait (j + 1) (by omega)) (hshift k ▸ hready),
      ← Function.iterate_succ_apply]
    rw [show tmpidx + 1 + UInt8.ofNat k = tmpidx + UInt8.ofNat (k + 1) by
      rw [UInt8.ofNat_add, UInt8.add_assoc, UInt8.add_comm 1]
      rfl]

theorem not_wp_poll {Q : UInt8 → Dev → Prop} {tmpidx : UInt8} {s : Dev}
    (hwait : ∀ j, ¬ Ready (reads (s.pos + j))) :
    ¬ (whileLoop (pollTurn reads) tmpidx).wp Q s := by
  apply not_wp_while fun _ t => ∀ j, ¬ Ready (reads (t.pos + j))
  · intro tmpidx t ht
    rw [wp_pollTurn, if_neg (show ¬ Ready (reads t.pos) from ht 0)]
    intro j
    rw [pos_next, Nat.add_assoc]
    exact ht (1 + j)
  · exact hwait

/-- The loop ends exactly if the register gets ready. -/
theorem wp_poll {Q : UInt8 → Dev → Prop} {tmpidx : UInt8} {s : Dev} :
    (whileLoop (pollTurn reads) tmpidx).wp Q s ↔
      ∃ k, (∀ j < k, ¬ Ready (reads (s.pos + j))) ∧ Ready (reads (s.pos + k)) ∧
        Q (tmpidx + UInt8.ofNat k) ((Dev.next reads 3)^[k + 1] s) := by
  constructor
  · intro h
    have hex : ∃ k, Ready (reads (s.pos + k)) := by
      by_contra hnone
      exact not_wp_poll (fun j hj => hnone ⟨j, hj⟩) h
    have hfirst := fun j (hj : j < Nat.find hex) => Nat.find_min hex hj
    exact ⟨Nat.find hex, hfirst, Nat.find_spec hex,
      (wp_poll_of_first hfirst (Nat.find_spec hex)).mp h⟩
  · rintro ⟨k, hwait, hready, hQ⟩
    exact (wp_poll_of_first hwait hready).mpr hQ

theorem wp_efuseOneByteRead {addr : ℕ} {Q : UInt8 × UInt8 → Dev → Prop} {s : Dev} :
    (efuseOneByteRead reads addr).wp Q s ↔
      ∃ k, (∀ j < k, ¬ Ready (reads (s.pos + 1 + j))) ∧ Ready (reads (s.pos + 1 + k)) ∧
        Q (1, reads ((Dev.next reads 3)^[k + 1] (s.commanded reads addr)).pos)
          (((Dev.next reads 3)^[k + 1] (s.commanded reads addr)).next reads 0) := by
  unfold efuseOneByteRead
  simp only [wp_bind, wp_writeByte, wp_readByte, wp_poll, pos_put, pos_next, if_pos (tmpidx_lt _),
    wp_pure]
  rfl

end wait

/-! ## A call -/

/-- One of the accesses has read the ready bit. -/
def SeenReady (new : List Access) : Prop := ∃ v, .read 3 v ∈ new ∧ Ready v

/-- The call ends, with `_TRUE` and the byte read last if it has seen the ready bit, else with
    `_FALSE`. -/
def ReturnsRight (addr : ℕ) (s : Dev) : Prop :=
  (efuseOneByteRead reads addr).wp (fun r t => ∃ new, t.log = new ++ s.log ∧
    (SeenReady new → r.1 = 1 ∧ new.head? = some (.read 0 r.2)) ∧ (¬ SeenReady new → r.1 = 0)) s

/-- The log of `k` polls. -/
theorem log_polls (k : ℕ) (s : Dev) : ∃ new, ((Dev.next reads 3)^[k] s).log = new ++ s.log := by
  induction k generalizing s with
  | zero => exact ⟨[], rfl⟩
  | succ k ih =>
    obtain ⟨new, hnew⟩ := ih (s.next reads 3)
    refine ⟨new ++ [.read 3 (reads s.pos)], ?_⟩
    rw [Function.iterate_succ_apply, hnew, List.append_assoc]
    rfl

theorem pos_polls (k : ℕ) (s : Dev) : ((Dev.next reads 3)^[k] s).pos = s.pos + k := by
  induction k with
  | zero => rfl
  | succ k ih => rw [Function.iterate_succ_apply', pos_next, ih, Nat.add_assoc]

theorem log_commanded (addr : ℕ) (s : Dev) :
    ∃ new, (s.commanded reads addr).log = new ++ s.log := by
  refine ⟨[_, _, _, _], rfl⟩

/-- The last poll is in the log. -/
theorem log_call (addr k : ℕ) (s : Dev) :
    ∃ new, ((Dev.next reads 3)^[k + 1] (s.commanded reads addr)).log = new ++ s.log ∧
      .read 3 (reads (s.pos + 1 + k)) ∈ new := by
  obtain ⟨old, hold⟩ := log_polls reads k (s.commanded reads addr)
  obtain ⟨cmd, hcmd⟩ := log_commanded reads addr s
  refine ⟨.read 3 (reads (s.pos + 1 + k)) :: (old ++ cmd), ?_, List.mem_cons_self⟩
  rw [Function.iterate_succ_apply']
  show Access.read 3 (reads ((Dev.next reads 3)^[k] (s.commanded reads addr)).pos) :: _ = _
  rw [hold, hcmd, pos_polls, pos_commanded, List.cons_append, List.append_assoc]

variable {reads} in
/-- A call is as it should be exactly if the register gets ready. -/
theorem returnsRight_iff {addr : ℕ} {s : Dev} :
    ReturnsRight reads addr s ↔ ∃ n > s.pos, Ready (reads n) := by
  unfold ReturnsRight
  rw [wp_efuseOneByteRead]
  constructor
  · rintro ⟨k, -, hready, -⟩
    exact ⟨s.pos + 1 + k, by omega, hready⟩
  · intro h
    have hex : ∃ k, Ready (reads (s.pos + 1 + k)) := by
      obtain ⟨n, hn, hready⟩ := h
      refine ⟨n - (s.pos + 1), ?_⟩
      rwa [show s.pos + 1 + (n - (s.pos + 1)) = n by omega]
    refine ⟨Nat.find hex, fun j hj => Nat.find_min hex hj, Nat.find_spec hex, ?_⟩
    obtain ⟨new, hlog, hmem⟩ := log_call reads addr (Nat.find hex) s
    have hseen : ∀ a, SeenReady (a :: new) := fun a =>
      ⟨_, List.mem_cons_of_mem a hmem, Nat.find_spec hex⟩
    exact ⟨.read 0 _ :: new, congrArg _ hlog, fun _ => ⟨rfl, rfl⟩,
      fun hnot => (hnot (hseen _)).elim⟩

/-! ## The callers -/

section callers

variable {reads}

/-- The register is ready again and again. -/
def Recurs (reads : ℕ → UInt8) : Prop := ∀ n, ∃ m > n, Ready (reads m)

theorem wp_read_of_recurs (h : Recurs reads) {addr : ℕ} {Q : UInt8 × UInt8 → Dev → Prop} {s : Dev}
    (hQ : ∀ d t, Q (1, d) t) : (efuseOneByteRead reads addr).wp Q s := by
  have hcall : ReturnsRight reads addr s := returnsRight_iff.mpr (h s.pos)
  rw [ReturnsRight, wp_efuseOneByteRead] at hcall
  obtain ⟨k, hwait, hready, -⟩ := hcall
  exact wp_efuseOneByteRead.mpr ⟨k, hwait, hready, hQ _ _⟩

theorem wp_readWords (h : Recurs reads) (wden : UInt8) (is : List ℕ) (addr : ℕ) (w : ℕ → UInt16)
    (s : Dev) : (readWords reads wden is addr w).wp (fun r _ => addr ≤ r.1) s := by
  induction is generalizing addr w s with
  | nil => exact wp_pure.mpr (Nat.le_refl _)
  | cons i is ih =>
    rw [readWords]
    split
    · refine wp_bind.mpr (wp_read_of_recurs h fun low t => ?_)
      split
      · exact wp_pure.mpr (Nat.le_succ _)
      · refine wp_bind.mpr (wp_read_of_recurs h fun high t => ?_)
        split
        · exact wp_pure.mpr (Nat.le_add_right _ _)
        · exact (ih (addr + 2) _ t).weaken fun r _ hr => by omega
    · exact ih addr w s

theorem wp_readSection (h : Recurs reads) (offset wden : UInt8) (addr : ℕ) (w : ℕ → ℕ → UInt16)
    (s : Dev) : (readSection reads offset wden addr w).wp (fun r _ => addr ≤ r.1) s := by
  unfold readSection
  split
  · refine wp_bind.mpr ((wp_readWords h wden _ addr _ s).weaken fun r t hr => ?_)
    exact wp_pure.mpr hr
  · exact wp_pure.mpr (Nat.le_refl _)

/-- The addresses before the end of the efuse. -/
def ReadState.rest (st : ReadState) (_ : Dev) : ℕ := realContentLen - st.addr

theorem wp_readPacket (h : Recurs reads) {Q : ReadState → Dev → Prop} {rest addr : ℕ}
    (haddr : realContentLen - (addr + 1) < rest) (offset wden : UInt8) (w : ℕ → ℕ → UInt16)
    (s : Dev) :
    (readPacket reads offset wden addr w).wp
      (Turn (fun _ _ => True) ReadState.rest Q rest) s := by
  unfold readPacket
  refine wp_bind.mpr ((wp_readSection h offset wden addr w s).weaken fun r t hr => ?_)
  refine wp_bind.mpr (wp_read_of_recurs h fun next t => wp_pure.mpr ⟨trivial, ?_⟩)
  show realContentLen - (r.1 + 1) < rest
  omega

theorem wp_readTurn (h : Recurs reads) (st : ReadState) (s : Dev) :
    (readTurn reads st).wp
      (Turn (fun _ _ => True) ReadState.rest (fun _ _ => True) (st.rest s)) s := by
  unfold readTurn
  split
  case isFalse => exact wp_pure.mpr trivial
  case isTrue hgo =>
    have hrest : st.rest s = realContentLen - st.addr := rfl
    have haddr := hgo.2
    split
    · refine wp_bind.mpr (wp_read_of_recurs h fun ext t => ?_)
      split
      · exact wp_pure.mpr trivial
      · split
        · exact wp_bind.mpr (wp_read_of_recurs h fun next t => wp_pure.mpr trivial)
        · exact wp_readPacket h (by omega) _ _ _ t
    · exact wp_readPacket h (by omega) _ _ _ s

theorem readEfuse_ends (h : Recurs reads) (offset sizeByte : ℕ) (pbuf : ℕ → UInt8) (s : Dev) :
    (readEfuse reads offset sizeByte pbuf).Ends s := by
  unfold Ends readEfuse
  split
  · exact wp_pure.mpr trivial
  · refine wp_bind.mpr (wp_read_of_recurs h fun first t => ?_)
    split
    · exact wp_pure.mpr trivial
    · refine wp_bind.mpr ((wp_while_of_variant (fun _ _ => True) ReadState.rest
        (fun st s _ => wp_readTurn h st s) trivial).weaken fun st t _ => ?_)
      exact wp_pure.mpr trivial

/-- The rest of the efuse from an address on. -/
def restFrom (addr : ℕ) (_ : Dev) : ℕ := realContentLen - addr

theorem wp_sizeTurn (h : Recurs reads) (addr : ℕ) (s : Dev) :
    (sizeTurn reads addr).wp
      (Turn (fun _ _ => True) restFrom (fun _ _ => True) (restFrom addr s)) s := by
  unfold sizeTurn
  refine wp_bind.mpr (wp_read_of_recurs h fun d t => ?_)
  split
  case isFalse => exact wp_pure.mpr trivial
  case isTrue hgo =>
    have haddr := hgo.2.1
    have hlower : ∀ n, restFrom (addr + n + 1) s < restFrom addr s := fun n => by
      unfold restFrom
      omega
    split
    · refine wp_bind.mpr (wp_read_of_recurs h fun ext t => ?_)
      split
      · exact wp_pure.mpr ⟨trivial, hlower 1⟩
      · refine wp_pure.mpr ⟨trivial, ?_⟩
        show restFrom (addr + 1 + _ + 1) s < restFrom addr s
        rw [Nat.add_assoc addr]
        exact hlower _
    · exact wp_pure.mpr ⟨trivial, hlower _⟩

theorem efuseGetCurrentSize_ends (h : Recurs reads) (usedbytes : UInt16) (s : Dev) :
    (efuseGetCurrentSize reads usedbytes).Ends s :=
  wp_while_of_variant (fun _ _ => True) restFrom (fun addr s _ => wp_sizeTurn h addr s) trivial

theorem wp_readData (h : Recurs reads) {Q : (ℕ → UInt8) × Bool → Dev → Prop} {s : Dev} (addr : ℕ)
    (ks : List ℕ) (tmpdata : ℕ → UInt8) (bDataEmpty : Bool) (hQ : ∀ r t, Q r t) :
    (readData reads addr ks tmpdata bDataEmpty).wp Q s := by
  induction ks generalizing tmpdata bDataEmpty s with
  | nil => exact wp_pure.mpr (hQ _ _)
  | cons k ks ih =>
    rw [readData]
    refine wp_bind.mpr (wp_read_of_recurs h fun d t => ?_)
    split
    · exact ih _ _
    · exact ih _ _

/-- A packet that is found is passed over in a turn of its own. -/
def pgRest (s : PgRead) (_ : Dev) : ℕ :=
  2 * (realContentLen - s.efuseAddr) + (if s.readState = .header then 1 else 0) +
    (if s.bContinual then 1 else 0)

theorem wp_pgPacket (h : Recurs reads) {offset hoffset hworden : UInt8} {addr rest : ℕ}
    {s : PgRead} (hs : s.bContinual = true)
    (hrest : 2 * (realContentLen - addr) + 1 < rest)
    (hrest' : 2 * (realContentLen - (addr + 1)) + 2 < rest) (hheader : s.readState = .header)
    (t : Dev) :
    (pgPacket reads offset hoffset hworden addr s).wp
      (Turn (fun _ _ => True) pgRest (fun _ _ => True) rest) t := by
  have hskip : ∀ n, 2 * (realContentLen - (addr + n + 1)) + 1 + 1 < rest := fun n => by omega
  unfold pgPacket
  dsimp only
  split
  · refine wp_bind.mpr (wp_readData h addr _ _ _ fun r t => ?_)
    split
    · refine wp_pure.mpr ⟨trivial, ?_⟩
      simp only [pgRest, hs, hheader, if_true]
      exact hskip _
    · refine wp_pure.mpr ⟨trivial, ?_⟩
      simp only [pgRest, hs, reduceCtorEq, if_true, if_false]
      exact hrest
  · refine wp_pure.mpr ⟨trivial, ?_⟩
    simp only [pgRest, hs, hheader, if_true]
    exact hskip _

theorem wp_pgTurn (h : Recurs reads) (offset : UInt8) (s : PgRead) (t : Dev) :
    (pgTurn reads offset s).wp
      (Turn (fun _ _ => True) pgRest (fun _ _ => True) (pgRest s t)) t := by
  unfold pgTurn
  split
  case isFalse => exact wp_pure.mpr trivial
  case isTrue hgo =>
    obtain ⟨hs, haddr⟩ := hgo
    cases hstate : s.readState with
    | header =>
      have hrest : pgRest s t = 2 * (realContentLen - s.efuseAddr) + 2 := by
        simp only [pgRest, hs, hstate, if_true]
      refine wp_bind.mpr (wp_read_of_recurs h fun d t => ?_)
      split
      · split
        · refine wp_bind.mpr (wp_read_of_recurs h fun ext t => ?_)
          split
          · exact wp_pgPacket h hs (by omega) (by omega) hstate t
          · exact wp_pure.mpr trivial
        · exact wp_pgPacket h hs (by omega) (by omega) hstate t
      · refine wp_pure.mpr ⟨trivial, ?_⟩
        rw [hrest]
        simp [pgRest]
    | data =>
      refine wp_pure.mpr ⟨trivial, ?_⟩
      simp only [pgRest, hs, hstate, reduceCtorEq, if_true, if_false]
      omega

theorem efusePgPacketRead_ends (h : Recurs reads) (offset : UInt8) (data : ℕ → UInt8) (s : Dev) :
    (efusePgPacketRead reads offset data).Ends s := by
  unfold Ends efusePgPacketRead
  split
  · exact wp_pure.mpr trivial
  · refine wp_bind.mpr ((wp_while_of_variant (fun _ _ => True) pgRest
      (fun st s _ => wp_pgTurn h offset st s) trivial).weaken fun st t _ => ?_)
    exact wp_pure.mpr trivial

end callers

/-! ## When everything ends -/

/-- Every call is as it should be and every loop over it ends, whenever they start. -/
structure AllEnd (reads : ℕ → UInt8) : Prop where
  call : ∀ addr s, ReturnsRight reads addr s
  readEfuse : ∀ offset sizeByte pbuf s, (readEfuse reads offset sizeByte pbuf).Ends s
  currentSize : ∀ usedbytes s, (efuseGetCurrentSize reads usedbytes).Ends s
  pgPacketRead : ∀ offset data s, (efusePgPacketRead reads offset data).Ends s

theorem efuse_ends_iff (reads : ℕ → UInt8) :
    (∀ addr s, ReturnsRight reads addr s ↔ ∃ n > s.pos, Ready (reads n)) ∧
      (AllEnd reads ↔ ∀ n, ∃ m > n, Ready (reads m)) := by
  refine ⟨fun addr s => returnsRight_iff, ?_, ?_⟩
  · intro h n
    exact returnsRight_iff.mp (h.call 0 { pos := n, log := [] })
  · intro h
    exact ⟨fun addr s => returnsRight_iff.mpr (h s.pos), readEfuse_ends h,
      efuseGetCurrentSize_ends h, efusePgPacketRead_ends h⟩

/-- A register that is never ready: neither a call nor the first read of the map ends. -/
theorem never_ready_hangs :
    ¬ ReturnsRight (fun _ => 0) 0 { pos := 0, log := [] } ∧
      ¬ (readEfuse (fun _ => 0) 0 mapLen fun _ => 0).Ends { pos := 0, log := [] } := by
  have hzero : ¬ Ready 0 := by decide
  constructor
  · intro h
    obtain ⟨n, -, hready⟩ := returnsRight_iff.mp h
    exact hzero hready
  · unfold Ends readEfuse
    rw [if_neg (by decide), wp_bind, wp_efuseOneByteRead]
    rintro ⟨k, -, hready, -⟩
    exact hzero hready

end Rtl8821au.Efuse.Poll
