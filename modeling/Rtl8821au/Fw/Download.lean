import Mathlib.Tactic.IntervalCases
import Rtl8821au.Lib.Checked
import Rtl8821au.Lib.RegIo
import Rtl8821au.Recv.Frame

/-!
# Downloading the firmware

`rtl8821au_download_fw` (`fw.c`, lines 1158–1271) copies the firmware file into a buffer, skips its
header, and writes the rest page by page into the chip, each page in blocks of 196, 8 and 1 bytes.
The page is in the low bits of the register behind `REG_MCUFWDL`; the addresses from `0x1000` on
are those of the page.

The file is compared with the size of the buffer before its length is known: the comparison is
about the length that the last download has left in `fwsize`.

* `emits_blockWrite`, `emits_writeFw`: the blocks and the pages tile the image.
* `returns_blockWrite`: a write that ends has read nothing behind the buffer.
* `download_right_iff`: the chip gets the image, and a file that is too long is refused, exactly
  when the file fits into the buffer and is not shorter than its header.
-/

namespace Rtl8821au.Fw.Download

open Checked RegIo
open Recv (Bytes)

/-! ## Model of the C code -/

/-- `REG_SYS_FUNC_EN`, `REG_RSV_CTRL` and `REG_MCUFWDL`. -/
def regSysFuncEn : ℕ := 0x0002

def regRsvCtrl : ℕ := 0x001C

def regMcufwdl : ℕ := 0x0080

/-- `FW_8821AU_START_ADDRESS`, `FW_SIZE_8812`, `MAX_DLFW_PAGE_SIZE` and `MAX_REG_BOLCK_SIZE`. -/
def fwStartAddress : ℕ := 0x1000

def fwSize : ℕ := 0x8000

def maxDlfwPageSize : ℕ := 4096

def maxRegBlockSize : ℕ := 196

/-- A register write, of one byte or more. -/
structure RegWrite where
  addr : ℕ
  bytes : Bytes
  deriving DecidableEq, Repr

abbrev M := Prog RegWrite Fault

/-- The two chips that the driver knows. -/
inductive HwType where
  | rtl8812au
  | rtl8821u
  deriving DecidableEq, Repr

/-- `_SUCCESS`, `_FAIL`, `-ENOENT` and `-ENOMEM`. -/
inductive FwStatus where
  | success
  | fail
  | enoent
  | enomem
  deriving DecidableEq, Repr

/-- The members of `struct rtl_hal` that are written. -/
structure RtlHal where
  fwsize : UInt32 := 0
  fwVersion : UInt16 := 0
  fwSubversion : UInt16 := 0

/-- `rtlhal->fwsize = fw->size`. -/
def RtlHal.loaded (hal : RtlHal) (data : Bytes) : RtlHal :=
  { hal with fwsize := UInt32.ofNat data.length }

/-- What comes from outside: the chip, the file, whether there is memory for the buffer, what the
    register reads return, and the time since `fwdl_start_time` in every round of the loop. -/
structure Env where
  hw : HwType
  fw : Option Bytes
  kzallocOk : Bool
  reads : ℕ → UInt32
  passingTimeMs : ℕ → ℕ

variable (e : Env)

/-- `rtl_read_byte` and `rtl_read_dword`. -/
def readReg8 : M UInt8 := read fun n => (e.reads n).toUInt8

def readReg32 : M UInt32 := read e.reads

/-- `rtl_write_byte`. -/
def writeReg8 (addr : ℕ) (v : UInt8) : M Unit := write ⟨addr, [v]⟩

/-- `rtl_write_dword`. -/
def writeReg32 (addr : ℕ) (v : UInt32) : M Unit :=
  write ⟨addr, [v.toUInt8, (v >>> 8).toUInt8, (v >>> 16).toUInt8, (v >>> 24).toUInt8]⟩

/-- `rtl_writeN` of bytes of the buffer. -/
def writeN (addr : ℕ) (buf : Bytes) (pos len : ℕ) : M Unit := do
  let bytes ← check (readBytes buf pos len)
  write ⟨addr, bytes⟩

/-- `rtl8821au_firmware_selfreset` (lines 20–49). -/
def firmwareSelfreset : M Unit := do
  let mask : UInt8 := match e.hw with
    | .rtl8812au => 0x08
    | .rtl8821u => 0x01
  let tmp2 ← readReg8 e
  writeReg8 (regRsvCtrl + 1) (tmp2 &&& ~~~ mask)
  let tmp ← readReg8 e
  writeReg8 (regSysFuncEn + 1) (tmp &&& ~~~ 0x04)
  let tmp2 ← readReg8 e
  writeReg8 (regRsvCtrl + 1) (tmp2 ||| mask)
  writeReg8 (regSysFuncEn + 1) (tmp ||| 0x04)

/-- `_rtl8821ae_enable_fw_download` (lines 977–995). -/
def enableFwDownload (enable : Bool) : M Unit := do
  if enable then do
    let tmp ← readReg8 e
    writeReg8 regMcufwdl (tmp ||| 0x01)
    let tmp ← readReg8 e
    writeReg8 (regMcufwdl + 2) (tmp &&& 0xf7)
  else do
    let tmp ← readReg8 e
    writeReg8 regMcufwdl (tmp &&& 0xfe)

/-- `_BlockWrite_8812` (lines 1001–1057); `buffer` is `start` bytes behind the beginning of
    `buf`. -/
def blockWrite (buf : Bytes) (start size : ℕ) : M FwStatus := do
  let blockCountP1 := size / maxRegBlockSize
  let remainSizeP1 := size % maxRegBlockSize
  forLoop (fun i => writeN (fwStartAddress + i * maxRegBlockSize) buf
    (start + i * maxRegBlockSize) maxRegBlockSize) blockCountP1
  let offset := blockCountP1 * maxRegBlockSize
  let blockCountP2 := if remainSizeP1 ≠ 0 then remainSizeP1 / 8 else 0
  let remainSizeP2 := if remainSizeP1 ≠ 0 then remainSizeP1 % 8 else 0
  forLoop (fun i => writeN (fwStartAddress + offset + i * 8) buf (start + offset + i * 8) 8)
    blockCountP2
  let offset := blockCountP1 * maxRegBlockSize + blockCountP2 * 8
  forLoop (fun i => do
    let v ← check (readByte buf (start + offset + i))
    writeReg8 (fwStartAddress + offset + i) v) remainSizeP2
  pure .success

/-- `_PageWrite_8812` (lines 1061–1071). -/
def pageWrite (page : ℕ) (buf : Bytes) (start size : ℕ) : M FwStatus := do
  let v ← readReg8 e
  writeReg8 (regMcufwdl + 2) ((v &&& 0xF8) ||| UInt8.ofNat (page % 8))
  blockWrite buf start size

/-- `for (page = 0; page < pageNums; page++)` in `_WriteFW_8812`. -/
def writePages (buf : Bytes) (start : ℕ) : ℕ → M FwStatus
  | 0 => pure .success
  | page + 1 => do
    let ret ← writePages buf start page
    if ret = .fail then pure ret
    else pageWrite e page buf (start + page * maxDlfwPageSize) maxDlfwPageSize

/-- `_WriteFW_8812` (lines 1075–1112). -/
def writeFw (buf : Bytes) (start size : ℕ) : M FwStatus := do
  let pageNums := size / maxDlfwPageSize
  let remainSize := size % maxDlfwPageSize
  let ret ← writePages e buf start pageNums
  if ret = .fail then pure ret
  else if remainSize ≠ 0 then
    pageWrite e pageNums buf (start + pageNums * maxDlfwPageSize) remainSize
  else pure ret

/-- `do { ... if (value32 & mask) break; } while (counter++ < 6000)`: whether the bit was seen, and
    `counter`. -/
def pollLoop (mask : UInt32) : ℕ → ℕ → M (Bool × ℕ)
  | 0, counter => pure (false, counter)
  | fuel + 1, counter => do
    let value32 ← readReg32 e
    if value32 &&& mask ≠ 0 then pure (true, counter)
    else pollLoop mask fuel (counter + 1)

/-- `_rtl8821au_fw_free_to_go` (lines 1114–1156). -/
def fwFreeToGo : M FwStatus := do
  let (_, counter) ← pollLoop e 0x04 6001 0
  if 6000 ≤ counter then pure .fail
  else do
    let value32 ← readReg32 e
    writeReg32 regMcufwdl ((value32 ||| 0x02) &&& ~~~ 0x40)
    firmwareSelfreset e
    let (seen, _) ← pollLoop e 0x40 6001 0
    if seen then pure .success else pure .fail

/-- `while (1)` (lines 1239–1252). -/
def writeLoop (buf : Bytes) (start size : ℕ) : ℕ → ℕ → ℕ → M FwStatus
  | 0, _, _ => check (.error .timeout)
  | fuel + 1, round, retry => do
    let v ← readReg8 e
    writeReg8 regMcufwdl (v ||| 0x04)
    let rtStatus ← writeFw e buf start size
    if rtStatus = .success then pure rtStatus
    else if 500 < e.passingTimeMs round then
      if 3 ≤ retry then pure rtStatus else writeLoop buf start size fuel (round + 1) (retry + 1)
    else writeLoop buf start size fuel (round + 1) retry

/-- `kzalloc` and `memcpy`. -/
def copyFirmware (data : Bytes) : Except Fault Bytes :=
  if data.length ≤ fwSize then .ok (data ++ List.replicate (fwSize - data.length) 0)
  else .error .beyond

/-- Two bytes of the buffer, the low one first. -/
def le16At (buf : Bytes) (k : ℕ) : UInt16 :=
  (buf.getD k 0).toUInt16 ||| ((buf.getD (k + 1) 0).toUInt16 <<< 8)

/-- `IS_FW_HEADER_EXIST_8812` or `IS_FW_HEADER_EXIST_8821`. -/
def headerExists (buf : Bytes) : Prop :=
  le16At buf 0 &&& 0xFFF0 = 0x9500 ∨ le16At buf 0 &&& 0xFFF0 = 0x2100

instance (buf : Bytes) : Decidable (headerExists buf) := inferInstanceAs (Decidable (_ ∨ _))

/-- The reset of a chip that runs RAM code (lines 1232–1235). -/
def resetRamCode : M Unit := do
  let v ← readReg8 e
  if v &&& 0x80 ≠ 0 then do
    writeReg8 regMcufwdl 0
    firmwareSelfreset e
  else pure ()

/-- What is done with the buffer (lines 1208–1268). -/
def startFirmware (hal : RtlHal) (buf : Bytes) (fuel : ℕ) : M (FwStatus × RtlHal) := do
  let hal := { hal with fwVersion := le16At buf 4, fwSubversion := (buf.getD 6 0).toUInt16 }
  let start := if headerExists buf then 32 else 0
  let hal := if headerExists buf then { hal with fwsize := hal.fwsize - 32 } else hal
  resetRamCode e
  enableFwDownload e true
  let rtStatus ← writeLoop e buf start hal.fwsize.toNat fuel 0 0
  enableFwDownload e false
  if rtStatus ≠ .success then pure (rtStatus, hal)
  else do
    let rtStatus ← fwFreeToGo e
    pure (rtStatus, hal)

/-- `rtl8821au_download_fw`. -/
def downloadFw (hal : RtlHal) (fuel : ℕ) : M (FwStatus × RtlHal) :=
  match e.fw with
  | none => pure (.enoent, hal)
  | some data =>
    if fwSize < hal.fwsize.toNat then pure (.fail, hal)
    else if e.kzallocOk then do
      let buf ← check (copyFirmware data)
      startFirmware e (hal.loaded data) buf fuel
    else pure (.enomem, hal)

/-! ## What it is for -/

/-- A byte in the memory of the chip. -/
structure Placed where
  page : ℕ
  addr : ℕ
  byte : UInt8
  deriving DecidableEq, Repr

/-- The chip: the page that is selected, and what was written to the download addresses. -/
structure Chip where
  page : ℕ
  placed : List Placed

def Chip.writeByte (c : Chip) (addr : ℕ) (v : UInt8) : Chip :=
  if addr = regMcufwdl + 2 then { c with page := (v &&& 0x07).toNat }
  else if fwStartAddress ≤ addr then { c with placed := c.placed ++ [⟨c.page, addr, v⟩] }
  else c

/-- A register write, byte by byte. -/
def Chip.writeBytes : Chip → ℕ → Bytes → Chip
  | c, _, [] => c
  | c, addr, v :: vs => (c.writeByte addr v).writeBytes (addr + 1) vs

def Chip.run (c : Chip) (log : List RegWrite) : Chip :=
  log.foldl (fun c w => c.writeBytes w.addr w.bytes) c

/-- The bytes that the writes put at download addresses. -/
def placedBy (log : List RegWrite) : List Placed := (Chip.run ⟨0, []⟩ log).placed

/-- The file without its header. -/
def image (data : Bytes) : Bytes :=
  if headerExists data ∧ 32 ≤ data.length then data.drop 32 else data

/-- Byte `k` is in page `k / 4096` at `0x1000 + k % 4096`, once. -/
def imagePlaced (img : Bytes) : List Placed :=
  (List.range img.length).map fun k =>
    ⟨k / maxDlfwPageSize, fwStartAddress + k % maxDlfwPageSize, img.getD k 0⟩

/-- A file that is too long is refused before anything is written, no byte is copied behind the
    buffer, and of any other file the image is written, if there is memory for it. -/
def Right (hal : RtlHal) (data : Bytes) : Prop :=
  ∃ fuel st hal' io,
    downloadFw { e with fw := some data } hal fuel Io.start = .ok ((st, hal'), io) ∧
    if fwSize < data.length then st ≠ .success ∧ io.log = []
    else st = .enomem ∧ io.log = [] ∨ placedBy io.log = imagePlaced (image data)

/-- The last download has left no greater length, and the file fits into the buffer and is not
    shorter than its header. After a greater length every file is refused. -/
def Fits (hal : RtlHal) (data : Bytes) : Prop :=
  if fwSize < hal.fwsize.toNat then fwSize < data.length ∨ image data = []
  else e.kzallocOk = true → data.length ≤ fwSize ∧ (headerExists data → 32 ≤ data.length)

/-! ## The chip -/

section chip

variable {c : Chip} {ws ws' : List RegWrite} {l l' : List Placed} {addr : ℕ} {bytes buf : Bytes}
  {start off n m : ℕ}

theorem Chip.run_append (c : Chip) (ws ws' : List RegWrite) :
    c.run (ws ++ ws') = (c.run ws).run ws' := List.foldl_append

/-- What the writes put at download addresses. -/
def Writes (l : List Placed) (ws : List RegWrite) : Prop :=
  ∀ c : Chip, (c.run ws).placed = c.placed ++ l

theorem Writes.append (h : Writes l ws) (h' : Writes l' ws') : Writes (l ++ l') (ws ++ ws') := by
  intro c
  rw [Chip.run_append, h', h, List.append_assoc]

theorem writes_nil : Writes [] [] := fun _ => (List.append_nil _).symm

/-- Writes below the download addresses. -/
theorem placed_writeBytes_low (h : addr + bytes.length ≤ fwStartAddress) :
    (c.writeBytes addr bytes).placed = c.placed := by
  induction bytes generalizing c addr with
  | nil => rfl
  | cons v vs ih =>
    rw [List.length_cons] at h
    rw [Chip.writeBytes, ih (by omega), Chip.writeByte]
    split_ifs
    · rfl
    · omega
    · rfl

theorem writes_low (h : addr + bytes.length ≤ fwStartAddress) : Writes [] [⟨addr, bytes⟩] :=
  fun c => (placed_writeBytes_low (c := c) h).trans (List.append_nil _).symm

/-- Writes to the page that is selected. -/
theorem writeBytes_ram (h : fwStartAddress ≤ addr) :
    c.writeBytes addr bytes = { c with placed := c.placed ++ (List.range bytes.length).map fun k =>
      ⟨c.page, addr + k, bytes.getD k 0⟩ } := by
  induction bytes generalizing c addr with
  | nil => exact congrArg (Chip.mk c.page) (List.append_nil _).symm
  | cons v vs ih =>
    have hlow : regMcufwdl + 2 < fwStartAddress := by decide
    have hbyte : c.writeByte addr v = { c with placed := c.placed ++ [⟨c.page, addr, v⟩] } := by
      rw [Chip.writeByte, if_neg (by omega), if_pos h]
    have hrange : (List.range (v :: vs).length).map (fun k =>
        (⟨c.page, addr + k, (v :: vs).getD k 0⟩ : Placed)) =
        ⟨c.page, addr, v⟩ :: (List.range vs.length).map fun k =>
          ⟨c.page, addr + 1 + k, vs.getD k 0⟩ := by
      rw [List.length_cons, List.range_succ_eq_map, List.map_cons, List.map_map]
      refine congrArg _ (List.map_congr_left fun k _ => ?_)
      simp only [Function.comp, List.getD_cons_succ, Placed.mk.injEq, true_and, and_true]
      omega
    rw [Chip.writeBytes, hbyte, ih (by omega), hrange, List.append_assoc]
    rfl

/-- The writes put `n` bytes of the buffer into the page that is selected, from `off` on. -/
def Puts (buf : Bytes) (start off n : ℕ) (ws : List RegWrite) : Prop :=
  ∀ c : Chip, c.run ws = { c with placed := c.placed ++ (List.range n).map fun k =>
    ⟨c.page, fwStartAddress + off + k, buf.getD (start + off + k) 0⟩ }

theorem puts_nil : Puts buf start off 0 [] := fun c =>
  congrArg (Chip.mk c.page) (List.append_nil _).symm

theorem Puts.append (h : Puts buf start off n ws) (h' : Puts buf start (off + n) m ws') :
    Puts buf start off (n + m) (ws ++ ws') := by
  intro c
  rw [Chip.run_append, h, h', List.range_add, List.map_append, List.map_map, List.append_assoc]
  simp only [Function.comp_def, Nat.add_assoc]

theorem puts_write (h : start + off + n ≤ buf.length) :
    Puts buf start off n [⟨fwStartAddress + off, bytesAt buf (start + off) n⟩] := by
  intro c
  have hlen : (bytesAt buf (start + off) n).length = n := by
    rw [bytesAt, List.length_take, List.length_drop]
    omega
  show c.writeBytes _ _ = _
  rw [writeBytes_ram (Nat.le_add_right _ _), hlen]
  refine congrArg (Chip.mk c.page) (congrArg _ (List.map_congr_left fun k hk => ?_))
  have hk := List.mem_range.mp hk
  have hbyte : (bytesAt buf (start + off) n).getD k 0 = buf.getD (start + off + k) 0 := by
    rw [bytesAt, List.getD_eq_getElem?_getD, List.getElem?_take_of_lt hk, List.getElem?_drop,
      List.getD_eq_getElem?_getD]
  rw [hbyte]

end chip

/-! ## Blocks and pages -/

section blocks

variable {e : Env} {buf : Bytes} {start off n size page : ℕ}

theorem emits_writeN (h : start + off + n ≤ buf.length) :
    Emits (writeN (fwStartAddress + off) buf (start + off) n) fun _ => Puts buf start off n := by
  refine Emits.bind (emits_check (P := fun bytes ws => bytes = bytesAt buf (start + off) n ∧ ws = [])
    (readBytes_of_inside (.inr h)) ⟨rfl, rfl⟩) ?_
  rintro _ _ ⟨rfl, rfl⟩
  exact emits_write (puts_write h)

theorem bytesAt_one {k : ℕ} (h : k < buf.length) : bytesAt buf k 1 = [buf.getD k 0] := by
  rw [bytesAt, List.drop_eq_getElem_cons h, List.getD_eq_getElem _ _ h]
  rfl

/-- A loop over blocks of one size. -/
theorem emits_blocks {size count : ℕ} (h : start + off + count * size ≤ buf.length) :
    Emits (forLoop (fun i => writeN (fwStartAddress + off + i * size) buf (start + off + i * size)
      size) count) fun _ => Puts buf start off (count * size) := by
  refine emits_forLoop (Q := fun i => Puts buf start off (i * size)) ?_ fun i hi ws hws => ?_
  · rw [Nat.zero_mul]
    exact puts_nil
  · have hle : (i + 1) * size ≤ count * size := Nat.mul_le_mul_right size hi
    rw [Nat.succ_mul] at hle
    rw [Nat.add_assoc, Nat.add_assoc start]
    refine (emits_writeN (by omega)).weaken fun _ ws' hws' => ?_
    rw [Nat.succ_mul]
    exact hws.append hws'

/-- The loop over the bytes that are left. -/
theorem emits_bytes (h : start + off + n ≤ buf.length) :
    Emits (forLoop (fun i => do
      let v ← check (readByte buf (start + off + i))
      writeReg8 (fwStartAddress + off + i) v) n) fun _ => Puts buf start off n := by
  refine emits_forLoop (Q := fun i => Puts buf start off i) puts_nil fun i hi ws hws => ?_
  refine Emits.bind (emits_check (P := fun v ws => v = buf.getD (start + off + i) 0 ∧ ws = [])
    (readByte_of_lt (by omega)) ⟨rfl, rfl⟩) ?_
  rintro _ _ ⟨rfl, rfl⟩
  have hbyte := @puts_write buf start (off + i) 1 (by omega)
  rw [← Nat.add_assoc start, bytesAt_one (by omega), ← Nat.add_assoc] at hbyte
  exact emits_write (hws.append hbyte)

/-- The three phases put the whole of the buffer into the page. -/
theorem emits_blockWrite (h : start + size ≤ buf.length) :
    Emits (blockWrite buf start size) fun st ws => st = .success ∧ Puts buf start 0 size ws := by
  have h1 := Nat.div_add_mod size maxRegBlockSize
  have h2 := Nat.div_add_mod (size % maxRegBlockSize) 8
  rw [Nat.mul_comm] at h1 h2
  unfold blockWrite
  dsimp only
  refine Emits.bind (@emits_blocks buf start 0 _ _ (by omega)) fun _ ws1 hws1 => ?_
  refine Emits.bind (emits_blocks ?_) fun _ ws2 hws2 => ?_
  · split_ifs <;> omega
  · refine Emits.bind (emits_bytes ?_) fun _ ws3 hws3 => emits_pure ⟨rfl, ?_⟩
    · split_ifs <;> omega
    · have hall := (hws1.append (by rwa [Nat.zero_add])).append (by rwa [Nat.zero_add])
      have hsize : size / maxRegBlockSize * maxRegBlockSize +
          (if size % maxRegBlockSize ≠ 0 then size % maxRegBlockSize / 8 else 0) * 8 +
          (if size % maxRegBlockSize ≠ 0 then size % maxRegBlockSize % 8 else 0) = size := by
        split_ifs <;> omega
      rw [hsize] at hall
      rw [List.append_nil, ← List.append_assoc]
      exact hall

theorem returns_writeN {addr : ℕ} (h : Returns (writeN addr buf off n) ()) :
    Inside buf off n := by
  obtain ⟨bytes, hcheck, -⟩ := returns_bind h
  by_contra hno
  have herr := returns_check hcheck
  rw [readBytes_of_not_inside hno] at herr
  cases herr

/-- The last block of the last phase that writes one is in the buffer. -/
theorem returns_blockWrite {st : FwStatus} (h : Returns (blockWrite buf start size) st) :
    st = .success ∧ (size = 0 ∨ start + size ≤ buf.length) := by
  have h1 := Nat.div_add_mod size maxRegBlockSize
  have h2 := Nat.div_add_mod (size % maxRegBlockSize) 8
  rw [Nat.mul_comm] at h1 h2
  unfold blockWrite at h
  dsimp only at h
  obtain ⟨_, hp1, h⟩ := returns_bind h
  obtain ⟨_, hp2, h⟩ := returns_bind h
  obtain ⟨_, hp3, h⟩ := returns_bind h
  refine ⟨returns_pure h, ?_⟩
  have h196 : maxRegBlockSize = 196 := rfl
  by_cases hrem1 : size % maxRegBlockSize = 0
  · by_cases hcount : size / maxRegBlockSize = 0
    · exact Or.inl (by rw [← h1, hcount, hrem1, Nat.zero_mul])
    · obtain ⟨q, hq⟩ := Nat.exists_eq_succ_of_ne_zero hcount
      have hin := returns_writeN (returns_forLoop hp1 q (by omega))
      rw [Inside] at hin
      rw [hq, Nat.succ_mul] at h1
      exact Or.inr (by omega)
  · rw [if_pos hrem1, if_pos hrem1] at hp3
    rw [if_pos hrem1] at hp2
    by_cases hrem2 : size % maxRegBlockSize % 8 = 0
    · have hcount : size % maxRegBlockSize / 8 ≠ 0 := fun hc => by omega
      have hin := returns_writeN
        (returns_forLoop hp2 (size % maxRegBlockSize / 8 - 1) (Nat.sub_one_lt hcount))
      rw [Inside] at hin
      exact Or.inr (by omega)
    · obtain ⟨v, hv, -⟩ := returns_bind
        (returns_forLoop hp3 (size % maxRegBlockSize % 8 - 1) (Nat.sub_one_lt hrem2))
      refine Or.inr ?_
      by_contra hno
      have herr := returns_check hv
      rw [readByte_of_le (by omega)] at herr
      cases herr

/-- The other bits of the register do not matter. -/
theorem page_bits (v : UInt8) (page : ℕ) :
    (((v &&& 0xF8) ||| UInt8.ofNat (page % 8)) &&& 0x07).toNat = page % 8 := by
  have hmask : (0xF8 : UInt8).toNat &&& (0x07 : UInt8).toNat = 0 := rfl
  have hlt := Nat.mod_lt page (by decide : 0 < 8)
  rw [UInt8.toNat_and, UInt8.toNat_or, UInt8.toNat_and, Nat.and_or_distrib_right, Nat.and_assoc,
    hmask, Nat.and_zero, Nat.zero_or]
  interval_cases page % 8 <;> rfl

/-- One page. -/
theorem emits_pageWrite (h : start + size ≤ buf.length) :
    Emits (pageWrite e page buf start size) fun st ws => st = .success ∧
      Writes ((List.range size).map fun k =>
        ⟨page % 8, fwStartAddress + k, buf.getD (start + k) 0⟩) ws := by
  refine Emits.bind (emits_read (P := fun _ ws => ws = []) fun _ => rfl) ?_
  rintro v _ rfl
  refine Emits.bind (emits_write (Q := fun _ ws => ws =
    [⟨regMcufwdl + 2, [(v &&& 0xF8) ||| UInt8.ofNat (page % 8)]⟩]) rfl) ?_
  rintro _ _ rfl
  refine (emits_blockWrite h).weaken ?_
  rintro st ws ⟨hst, hws⟩
  refine ⟨hst, fun c => ?_⟩
  have hselect : c.run [⟨regMcufwdl + 2, [(v &&& 0xF8) ||| UInt8.ofNat (page % 8)]⟩] =
      { c with page := page % 8 } := by
    show c.writeByte (regMcufwdl + 2) _ = _
    rw [Chip.writeByte, if_pos rfl, page_bits]
  rw [List.nil_append, Chip.run_append, hselect, hws]
  rfl

/-- The first `n` bytes of the image, where they belong. -/
def imagePart (buf : Bytes) (start n : ℕ) : List Placed :=
  (List.range n).map fun k =>
    ⟨k / maxDlfwPageSize, fwStartAddress + k % maxDlfwPageSize, buf.getD (start + k) 0⟩

/-- One page more. -/
theorem imagePart_add (hpage : page < 8) (hn : n ≤ maxDlfwPageSize) :
    imagePart buf start (page * maxDlfwPageSize + n) =
      imagePart buf start (page * maxDlfwPageSize) ++ (List.range n).map fun k =>
        ⟨page % 8, fwStartAddress + k, buf.getD (start + page * maxDlfwPageSize + k) 0⟩ := by
  unfold imagePart
  rw [List.range_add, List.map_append, List.map_map]
  refine congrArg _ (List.map_congr_left fun k hk => ?_)
  have hk := List.mem_range.mp hk
  have h4096 : maxDlfwPageSize = 4096 := rfl
  rw [h4096] at hn ⊢
  simp only [Function.comp, Placed.mk.injEq]
  refine ⟨by omega, by omega, by rw [Nat.add_assoc]⟩

theorem emits_writePages (hn : n ≤ 8) (h : start + n * maxDlfwPageSize ≤ buf.length) :
    Emits (writePages e buf start n) fun st ws => st = .success ∧
      Writes (imagePart buf start (n * maxDlfwPageSize)) ws := by
  induction n with
  | zero => exact emits_pure ⟨rfl, writes_nil⟩
  | succ n ih =>
    rw [Nat.succ_mul] at h
    refine Emits.bind (ih (Nat.le_of_succ_le hn) (by omega)) ?_
    rintro _ ws ⟨rfl, hws⟩
    rw [if_neg (by decide)]
    refine (emits_pageWrite (by omega)).weaken ?_
    rintro st ws' ⟨hst, hws'⟩
    rw [Nat.succ_mul, imagePart_add hn (Nat.le_refl _)]
    exact ⟨hst, hws.append hws'⟩

/-- The pages put the whole of the buffer into the chip. -/
theorem emits_writeFw (hsize : size ≤ fwSize) (h : start + size ≤ buf.length) :
    Emits (writeFw e buf start size) fun st ws => st = .success ∧
      Writes (imagePart buf start size) ws := by
  have h1 := Nat.div_add_mod size maxDlfwPageSize
  have hlt := Nat.mod_lt size (by decide : 0 < maxDlfwPageSize)
  have hpages : size / maxDlfwPageSize ≤ 8 := Nat.div_le_of_le_mul hsize
  rw [Nat.mul_comm] at h1
  unfold writeFw
  dsimp only
  refine Emits.bind (emits_writePages hpages (by omega)) ?_
  rintro _ ws ⟨rfl, hws⟩
  rw [if_neg (by decide)]
  by_cases hrem : size % maxDlfwPageSize = 0
  · rw [if_neg (not_not.mpr hrem)]
    refine emits_pure ⟨rfl, ?_⟩
    rw [hrem, Nat.add_zero] at h1
    rw [List.append_nil, ← h1]
    exact hws
  · rw [if_pos hrem]
    refine (emits_pageWrite (by omega)).weaken ?_
    rintro st ws' ⟨hst, hws'⟩
    refine ⟨hst, ?_⟩
    have hpage : size / maxDlfwPageSize < 8 :=
      Nat.div_lt_of_lt_mul (Nat.lt_of_le_of_ne hsize fun hc => hrem (by rw [hc]; rfl))
    have hpart := @imagePart_add buf start _ _ hpage (Nat.le_of_lt hlt)
    rw [h1] at hpart
    rw [hpart]
    exact hws.append hws'

theorem returns_pageWrite {st : FwStatus} (h : Returns (pageWrite e page buf start size) st) :
    st = .success ∧ (size = 0 ∨ start + size ≤ buf.length) := by
  obtain ⟨_, -, h⟩ := returns_bind h
  obtain ⟨_, -, h⟩ := returns_bind h
  exact returns_blockWrite h

theorem returns_writePages {st : FwStatus} (h : Returns (writePages e buf start n) st) :
    st = .success ∧ (n = 0 ∨ start + n * maxDlfwPageSize ≤ buf.length) := by
  induction n generalizing st with
  | zero => exact ⟨returns_pure h, Or.inl rfl⟩
  | succ n ih =>
    obtain ⟨ret, hpages, h⟩ := returns_bind h
    obtain rfl := (ih hpages).1
    rw [if_neg (by decide)] at h
    obtain ⟨hst, hin⟩ := returns_pageWrite h
    have hpos : maxDlfwPageSize ≠ 0 := by decide
    rw [Nat.succ_mul]
    exact ⟨hst, Or.inr (by omega)⟩

/-- Nothing behind the buffer has been read. -/
theorem returns_writeFw {st : FwStatus} (h : Returns (writeFw e buf start size) st) :
    size = 0 ∨ start + size ≤ buf.length := by
  have h1 := Nat.div_add_mod size maxDlfwPageSize
  rw [Nat.mul_comm] at h1
  unfold writeFw at h
  dsimp only at h
  obtain ⟨ret, hpages, h⟩ := returns_bind h
  obtain ⟨rfl, hin⟩ := returns_writePages hpages
  rw [if_neg (by decide)] at h
  by_cases hrem : size % maxDlfwPageSize = 0
  · rw [hrem, Nat.add_zero] at h1
    rcases hin with hzero | hin
    · exact Or.inl (by rw [← h1, hzero, Nat.zero_mul])
    · exact Or.inr (by rwa [h1] at hin)
  · rw [if_pos hrem] at h
    obtain ⟨-, hin⟩ := returns_pageWrite h
    omega

end blocks

/-! ## The download -/

section download

variable {e : Env} {hal : RtlHal} {data buf : Bytes} {start size fuel : ℕ}

/-- A step of the preparation, which writes below the download addresses. -/
def Quiet {α : Type} (x : M α) : Prop := Emits x fun _ ws => Writes [] ws

theorem Quiet.bind {α β : Type} {x : M α} {f : α → M β} (hx : Quiet x) (hf : ∀ a, Quiet (f a)) :
    Quiet (x >>= f) :=
  Emits.bind hx fun a _ hws => (hf a).weaken fun _ _ hws' => hws.append hws'

theorem quiet_pure {α : Type} (a : α) : Quiet (pure a : M α) := emits_pure writes_nil

theorem quiet_read {α : Type} (reads : ℕ → α) : Quiet (read reads : M α) :=
  emits_read fun _ => writes_nil

theorem quiet_write {addr : ℕ} {bytes : Bytes} (h : addr + bytes.length ≤ fwStartAddress) :
    Quiet (write ⟨addr, bytes⟩ : M Unit) := emits_write (writes_low h)

theorem quiet_writeReg8 {addr : ℕ} {v : UInt8} (h : addr < fwStartAddress) :
    Quiet (writeReg8 addr v) := quiet_write h

theorem quiet_writeReg32 {addr : ℕ} {v : UInt32} (h : addr + 4 ≤ fwStartAddress) :
    Quiet (writeReg32 addr v) := quiet_write h

theorem quiet_firmwareSelfreset : Quiet (firmwareSelfreset e) := by
  refine (quiet_read _).bind fun tmp2 => (quiet_writeReg8 (by decide)).bind fun _ => ?_
  refine (quiet_read _).bind fun tmp => (quiet_writeReg8 (by decide)).bind fun _ => ?_
  refine (quiet_read _).bind fun tmp2 => (quiet_writeReg8 (by decide)).bind fun _ => ?_
  exact quiet_writeReg8 (by decide)

theorem quiet_enableFwDownload {enable : Bool} : Quiet (enableFwDownload e enable) := by
  cases enable with
  | true =>
    refine (quiet_read _).bind fun _ => (quiet_writeReg8 (by decide)).bind fun _ => ?_
    exact (quiet_read _).bind fun _ => quiet_writeReg8 (by decide)
  | false => exact (quiet_read _).bind fun _ => quiet_writeReg8 (by decide)

theorem quiet_resetRamCode : Quiet (resetRamCode e) := by
  refine (quiet_read _).bind fun v => ?_
  split_ifs
  · exact (quiet_writeReg8 (by decide)).bind fun _ => quiet_firmwareSelfreset
  · exact quiet_pure _

theorem quiet_pollLoop {mask : UInt32} {counter : ℕ} : Quiet (pollLoop e mask fuel counter) := by
  induction fuel generalizing counter with
  | zero => exact quiet_pure _
  | succ fuel ih =>
    refine (quiet_read _).bind fun value32 => ?_
    split_ifs
    · exact quiet_pure _
    · exact ih

theorem quiet_fwFreeToGo : Quiet (fwFreeToGo e) := by
  refine quiet_pollLoop.bind fun ⟨_, counter⟩ => ?_
  dsimp only
  split_ifs
  · exact quiet_pure _
  · refine (quiet_read _).bind fun value32 => (quiet_writeReg32 (by decide)).bind fun _ => ?_
    refine quiet_firmwareSelfreset.bind fun _ => quiet_pollLoop.bind fun ⟨seen, _⟩ => ?_
    cases seen <;> exact quiet_pure _

/-- A program that puts an image into the chip, with quiet steps around it. -/
theorem Quiet.bindWrites {α β : Type} {x : M α} {f : α → M β} {l : List Placed} (hx : Quiet x)
    (hf : ∀ a, Emits (f a) fun _ ws => Writes l ws) : Emits (x >>= f) fun _ ws => Writes l ws :=
  Emits.bind hx fun a _ hws => (hf a).weaken fun _ _ hws' => hws.append hws'

theorem writes_bindQuiet {α β : Type} {x : M α} {f : α → M β} {l : List Placed}
    (hx : Emits x fun _ ws => Writes l ws) (hf : ∀ a, Quiet (f a)) :
    Emits (x >>= f) fun _ ws => Writes l ws :=
  Emits.bind hx fun a _ hws => (hf a).weaken fun _ _ hws' => by
    have hall := hws.append hws'
    rwa [List.append_nil] at hall

/-- The loop makes one round. -/
theorem emits_writeLoop {round retry : ℕ} (hsize : size ≤ fwSize)
    (h : start + size ≤ buf.length) :
    Emits (writeLoop e buf start size (fuel + 1) round retry) fun _ ws =>
      Writes (imagePart buf start size) ws := by
  refine (quiet_read _).bindWrites fun v => (quiet_writeReg8 (by decide)).bindWrites fun _ => ?_
  refine Emits.bind (emits_writeFw hsize h) ?_
  rintro _ ws ⟨rfl, hws⟩
  rw [if_pos rfl]
  refine emits_pure ?_
  rw [List.append_nil]
  exact hws

theorem returns_writeLoop {st : FwStatus} {round retry : ℕ}
    (h : Returns (writeLoop e buf start size fuel round retry) st) :
    size = 0 ∨ start + size ≤ buf.length := by
  cases fuel with
  | zero =>
    have herr := returns_check h
    cases herr
  | succ fuel =>
    obtain ⟨v, -, h⟩ := returns_bind h
    obtain ⟨_, -, h⟩ := returns_bind h
    obtain ⟨st', hfw, -⟩ := returns_bind h
    exact returns_writeFw hfw

/-- Where the image begins, and how long it is. -/
def imageStart (buf : Bytes) : ℕ := if headerExists buf then 32 else 0

def imageSize (hal : RtlHal) (buf : Bytes) : ℕ :=
  (if headerExists buf then hal.fwsize - 32 else hal.fwsize).toNat

theorem startFirmware_fwsize :
    (if headerExists buf then { hal with
        fwVersion := le16At buf 4, fwSubversion := (buf.getD 6 0).toUInt16
        fwsize := hal.fwsize - 32 }
      else { hal with
        fwVersion := le16At buf 4
        fwSubversion := (buf.getD 6 0).toUInt16 } : RtlHal).fwsize.toNat = imageSize hal buf := by
  unfold imageSize
  split_ifs <;> rfl

theorem emits_startFirmware (hsize : imageSize hal buf ≤ fwSize)
    (h : imageStart buf + imageSize hal buf ≤ buf.length) :
    Emits (startFirmware e hal buf (fuel + 1)) fun _ ws =>
      Writes (imagePart buf (imageStart buf) (imageSize hal buf)) ws := by
  unfold startFirmware
  dsimp only
  rw [startFirmware_fwsize]
  refine quiet_resetRamCode.bindWrites fun _ => quiet_enableFwDownload.bindWrites fun _ => ?_
  refine writes_bindQuiet (emits_writeLoop hsize h) fun st => ?_
  refine quiet_enableFwDownload.bind fun _ => ?_
  by_cases hst : st ≠ .success
  · rw [if_pos hst]
    exact quiet_pure _
  · rw [if_neg hst]
    exact quiet_fwFreeToGo.bind fun st => quiet_pure _

theorem returns_startFirmware {r : FwStatus × RtlHal}
    (h : Returns (startFirmware e hal buf fuel) r) :
    imageSize hal buf = 0 ∨ imageStart buf + imageSize hal buf ≤ buf.length := by
  unfold startFirmware at h
  dsimp only at h
  rw [startFirmware_fwsize] at h
  obtain ⟨_, -, h⟩ := returns_bind h
  obtain ⟨_, -, h⟩ := returns_bind h
  obtain ⟨_, hloop, -⟩ := returns_bind h
  exact returns_writeLoop hloop

/-- The zeros behind the file do not matter. -/
theorem getD_padded (data : Bytes) (n k : ℕ) :
    (data ++ List.replicate n 0).getD k 0 = data.getD k 0 := by
  rcases Nat.lt_or_ge k data.length with hlt | hge
  · rw [List.getD_append _ _ _ _ hlt]
  · rw [List.getD_append_right _ _ _ _ hge, List.getD_eq_default _ _ hge]
    rcases Nat.lt_or_ge (k - data.length) n with hlt | hge
    · exact List.getD_replicate _ hlt
    · exact List.getD_eq_default _ _ (by rwa [List.length_replicate])

theorem headerExists_padded (data : Bytes) (n : ℕ) :
    headerExists (data ++ List.replicate n 0) ↔ headerExists data := by
  unfold headerExists le16At
  rw [getD_padded, getD_padded]

/-- The buffer of a file that is not too long. -/
def padded (data : Bytes) : Bytes := data ++ List.replicate (fwSize - data.length) 0

theorem padded_length (h : data.length ≤ fwSize) : (padded data).length = fwSize := by
  rw [padded, List.length_append, List.length_replicate]
  omega

theorem toNat_ofNat_length (h : data.length ≤ fwSize) :
    (UInt32.ofNat data.length).toNat = data.length := by
  have hfw : fwSize = 32768 := rfl
  have hsize : UInt32.size = 4294967296 := rfl
  exact UInt32.toNat_ofNat_of_lt' (by omega)

/-- With its header the file is long enough: the image is what is left of it. -/
theorem imageSize_padded (hal : RtlHal) (h : data.length ≤ fwSize)
    (hhdr : headerExists data → 32 ≤ data.length) :
    imageStart (padded data) + imageSize (hal.loaded data) (padded data) = data.length ∧
      imagePart (padded data) (imageStart (padded data))
        (imageSize (hal.loaded data) (padded data)) = imagePlaced (image data) := by
  have hlen : (hal.loaded data).fwsize.toNat = data.length := toNat_ofNat_length h
  unfold imageStart imageSize imagePlaced image
  by_cases hd : headerExists data
  · have hpad := (headerExists_padded data (fwSize - data.length)).mpr hd
    have h32 : (32 : UInt32) ≤ (hal.loaded data).fwsize := by
      rw [UInt32.le_iff_toNat_le, hlen]
      exact hhdr hd
    have hsub : ((hal.loaded data).fwsize - 32).toNat = data.length - 32 := by
      rw [UInt32.toNat_sub_of_le _ _ h32, hlen]
      rfl
    rw [padded, if_pos hpad, if_pos hpad, hsub, if_pos ⟨hd, hhdr hd⟩, List.length_drop]
    refine ⟨by have := hhdr hd; omega, List.map_congr_left fun k _ => ?_⟩
    rw [getD_padded, getD_drop]
  · have hpad := (headerExists_padded data (fwSize - data.length)).not.mpr hd
    rw [padded, if_neg hpad, if_neg hpad, hlen, if_neg fun hc => hd hc.1]
    refine ⟨Nat.zero_add _, List.map_congr_left fun k _ => ?_⟩
    rw [getD_padded, Nat.zero_add]

/-- A header that is longer than the file: the length wraps. -/
theorem imageSize_short (hal : RtlHal) (h : data.length ≤ fwSize) (hd : headerExists data)
    (hshort : data.length < 32) : fwSize < imageSize (hal.loaded data) (padded data) := by
  have hlen : (hal.loaded data).fwsize.toNat = data.length := toNat_ofNat_length h
  have hpad := (headerExists_padded data (fwSize - data.length)).mpr hd
  have hfw : fwSize = 32768 := rfl
  have h32 : (32 : UInt32).toNat = 32 := rfl
  unfold imageSize
  rw [padded, if_pos hpad, UInt32.toNat_sub, hlen, h32]
  omega

/-- The chip gets the image exactly if the file fits and is not shorter than its header; a file
    that is too long is refused only if the one before it was too long as well. -/
theorem download_right_iff (e : Env) (hal : RtlHal) (data : Bytes) :
    Right e hal data ↔ Fits e hal data := by
  unfold Right Fits downloadFw
  dsimp only
  by_cases hstale : fwSize < hal.fwsize.toNat
  · -- every file is refused
    simp only [if_pos hstale]
    constructor
    · rintro ⟨fuel, st, hal', io, hrun, hright⟩
      obtain ⟨hres, rfl⟩ := Prod.mk.inj (Except.ok.inj hrun)
      obtain ⟨rfl, rfl⟩ := Prod.mk.inj hres
      by_cases hbig : fwSize < data.length
      · exact Or.inl hbig
      · rw [if_neg hbig] at hright
        rcases hright with ⟨hst, -⟩ | himg
        · cases hst
        · have hempty : (imagePlaced (image data)).length = 0 := by
            rw [← himg]
            rfl
          rw [imagePlaced, List.length_map, List.length_range] at hempty
          exact Or.inr (List.length_eq_zero_iff.mp hempty)
    · intro hfits
      refine ⟨0, .fail, hal, Io.start, rfl, ?_⟩
      split_ifs with hbig
      · exact ⟨by decide, rfl⟩
      · rw [hfits.resolve_left hbig]
        exact Or.inr rfl
  simp only [if_neg hstale]
  cases hmem : e.kzallocOk with
  | false =>
    refine iff_of_true ⟨0, .enomem, hal, Io.start, rfl, ?_⟩ fun h => by cases h
    split_ifs
    · exact ⟨by decide, rfl⟩
    · exact Or.inl ⟨rfl, rfl⟩
  | true =>
    simp only [if_true, forall_const]
    constructor
    · rintro ⟨fuel, st, hal', io, hrun, hright⟩
      obtain ⟨buf, hcopy, hstart⟩ := returns_bind ⟨Io.start, io, hrun⟩
      have hcopy := returns_check hcopy
      unfold copyFirmware at hcopy
      split_ifs at hcopy with hle
      obtain rfl := Except.ok.inj hcopy
      refine ⟨hle, fun hd => ?_⟩
      by_contra hshort
      have hbig := imageSize_short hal hle hd (Nat.not_le.mp hshort)
      have hin := returns_startFirmware hstart
      have hlen := padded_length hle
      unfold padded at hbig hlen
      omega
    · rintro ⟨hle, hhdr⟩
      have hcopy : copyFirmware data = .ok (padded data) := if_pos hle
      obtain ⟨hsum, himg⟩ := imageSize_padded hal hle hhdr
      have hlen := padded_length hle
      obtain ⟨⟨st, hal'⟩, io, ws, hrun, hlog, hws⟩ :=
        @emits_startFirmware { e with fw := some data } (hal.loaded data) (padded data) 0
          (by omega) (by omega) Io.start
      refine ⟨1, st, hal', io, ?_, ?_⟩
      · rw [hmem] at hrun
        rw [bind_run, hcopy]
        exact hrun
      · rw [if_neg (Nat.not_lt.mpr hle)]
        refine Or.inr ?_
        rw [hlog, placedBy, ← himg]
        exact hws ⟨0, []⟩

/-- A first download with memory for the buffer. -/
def firstLoad (data : Bytes) : Env := ⟨.rtl8821u, some data, true, fun _ => 0, fun _ => 0⟩

/-- A file that is one byte too long is copied behind the buffer. -/
theorem long_file_overruns :
    downloadFw (firstLoad (List.replicate (fwSize + 1) 0)) {} 1 Io.start = .error .beyond ∧
      ¬ Right (firstLoad (List.replicate (fwSize + 1) 0)) {} (List.replicate (fwSize + 1) 0) := by
  have hlen : (List.replicate (fwSize + 1) (0 : UInt8)).length = fwSize + 1 := List.length_replicate
  have hcopy : copyFirmware (List.replicate (fwSize + 1) 0) = .error .beyond := by
    rw [copyFirmware, hlen]
    rfl
  constructor
  · rw [downloadFw, firstLoad]
    dsimp only
    rw [if_neg (by decide), if_pos rfl, bind_run, hcopy]
    rfl
  · rintro ⟨fuel, st, hal', io, hrun, -⟩
    unfold downloadFw firstLoad at hrun
    dsimp only at hrun
    rw [if_neg (by decide), if_pos rfl, bind_run, hcopy] at hrun
    cases hrun

end download

end Rtl8821au.Fw.Download
