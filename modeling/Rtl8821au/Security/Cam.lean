import Mathlib.Logic.Function.Basic
import Mathlib.Tactic.IntervalCases
import Rtl8821au.Sta.MacId

/-!
# The key table of the hardware

`write_cam`, `clear_cam_entry`, `rtl_cam_program_entry`, `rtw_cam_add_one_entry` (`cam.c`,
lines 51–215), `HW_VAR_CAM_WRITE` (`rtl8821au/hw.c`, lines 585–595) and the commands
`setkey_hdl` and `set_stakey_hdl` (`rtw_mlme_ext.c`, lines 6215–6319). The functions are the
register writes they make; the table is written through a data and a command register.

* `addOneEntry_table`, `addOneEntry_other`: what an add writes, and that it is one entry.
* `setkeyHdl_programs_iff`, `setStakeyHdl_programs_iff`: when the entry is the key of the command.
  `setkey_hdl` passes the algorithm where the function expects `ul_default_key`.
* `clearCamEntry_run`: `clear_cam_entry` never reaches the table. `HW_VAR_CAM_WRITE` writes to
  the numbers of `WCAMI` and `RWCAM` in `enum rtl_var_map` and not to the registers that
  `cfg->maps` has for them.
* `keyCommand_iff`: the commands with which all goes well.
-/

namespace Rtl8821au.Security.Cam

open Recv (MacAddr)

/-! ## Registers -/

/-- The two entries of `cfg->maps` that the key table uses. -/
inductive CamVar where
  | rwcam
  | wcami
  deriving DecidableEq, Repr

/-- The number in `enum rtl_var_map` (`wifi.h`, lines 127–158). -/
def CamVar.number : CamVar → ℕ
  | .rwcam => 14
  | .wcami => 15

/-- `cfg->maps` (`rtl8821au/sw.c`, lines 608–609): `REG_CAMCMD` and `REG_CAMWRITE`. -/
def CamVar.maps : CamVar → ℕ
  | .rwcam => 0x670
  | .wcami => 0x674

/-- `rtl_write_dword`. -/
structure RegWrite where
  reg : ℕ
  val : BitVec 32
  deriving DecidableEq, Repr

/-- `CAM_POLLINIG | CAM_WRITE`. -/
def camWriteBits : BitVec 32 := 0x80010000#32

/-- `CAM_CONTENT_COUNT`. -/
def camContentCount : ℕ := 8

def ext32 (b : UInt8) : BitVec 32 := b.toBitVec.setWidth 32

/-- `rtl_cam_program_entry` (lines 105–182): the contents of word `i`. `keyCont128` are the bytes
    from `key_cont_128` on. -/
def camProgramContent (macAddr : MacAddr) (keyCont128 : ℕ → UInt8) (usConfig : BitVec 16)
    (i : ℕ) : BitVec 32 :=
  let m := fun k => ext32 (macAddr.getD k 0)
  let k := fun j => ext32 (keyCont128 (i * 4 - 8 + j))
  if i = 0 then m 0 <<< 16 ||| m 1 <<< 24 ||| usConfig.setWidth 32
  else if i = 1 then m 5 <<< 24 ||| m 4 <<< 16 ||| m 3 <<< 8 ||| m 2
  else k 3 <<< 24 ||| k 2 <<< 16 ||| k 1 <<< 8 ||| k 0

def rtlCamProgramEntry (entryNo : ℕ) (macAddr : MacAddr) (keyCont128 : ℕ → UInt8)
    (usConfig : BitVec 16) : List RegWrite :=
  (List.range camContentCount).flatMap fun i =>
    [⟨CamVar.wcami.maps, camProgramContent macAddr keyCont128 usConfig i⟩,
      ⟨CamVar.rwcam.maps, BitVec.ofNat 32 (i + camContentCount * entryNo) ||| camWriteBits⟩]

/-- `CFG_VALID`. -/
def cfgValid : BitVec 32 := 0x8000#32

/-- `us_config` of `rtw_cam_add_one_entry` (lines 197–200). -/
def usConfig (ulKeyId ulEncAlg ulDefaultKey : BitVec 32) : BitVec 32 :=
  if ulDefaultKey = 1 then cfgValid ||| (ulEncAlg.setWidth 16).setWidth 32 <<< 2
  else cfgValid ||| ulEncAlg <<< 2 ||| ulKeyId

/-- `rtw_cam_add_one_entry` (lines 184–209). -/
def rtwCamAddOneEntry (macAddr : MacAddr) (ulKeyId : BitVec 32) (ulEntryIdx : ℕ)
    (ulEncAlg ulDefaultKey : BitVec 32) (keyContent : ℕ → UInt8) : List RegWrite :=
  if ulKeyId = BitVec.ofNat 32 Sta.totalCamEntry then []
  else rtlCamProgramEntry ulEntryIdx macAddr keyContent
    ((usConfig ulKeyId ulEncAlg ulDefaultKey).setWidth 16)

/-- `rtl8821au_set_hw_reg` with `HW_VAR_CAM_WRITE`. -/
def setHwRegCamWrite (val addr : BitVec 32) : List RegWrite :=
  [⟨CamVar.wcami.number, val⟩, ⟨CamVar.rwcam.number, camWriteBits ||| addr⟩]

/-- `write_cam` (lines 51–92): the words from the last to the first. -/
def writeCam (entry : UInt8) (ctrl : BitVec 16) (mac : MacAddr) (key : ℕ → UInt8) :
    List RegWrite :=
  let m := fun k => ext32 (mac.getD k 0)
  let val := fun j : ℕ =>
    if j = 0 then ctrl.setWidth 32 ||| m 0 <<< 16 ||| m 1 <<< 24
    else if j = 1 then m 2 ||| m 3 <<< 8 ||| m 4 <<< 16 ||| m 5 <<< 24
    else
      let k := fun n => ext32 (key ((j - 2) * 4 + n))
      k 0 ||| k 1 <<< 8 ||| k 2 <<< 16 ||| k 3 <<< 24
  [5, 4, 3, 2, 1, 0].flatMap fun j =>
    setHwRegCamWrite (val j) (BitVec.ofNat 32 (entry.toNat * 8 + j))

/-- The address `00:00:00:00:00:00`. -/
def nullSta : MacAddr := Vector.replicate 6 0

/-- `clear_cam_entry` (lines 94–103). -/
def clearCamEntry (entry : UInt8) : List RegWrite := writeCam entry 0 nullSta fun _ => 0

/-! ## Commands -/

/-- `struct setkey_parm`; `key` are the bytes from `key[0]` on. -/
structure SetkeyParm where
  algorithm : UInt8
  keyid : UInt8
  setTx : UInt8
  key : ℕ → UInt8

/-- `struct set_stakey_parm`. -/
structure SetStakeyParm where
  addr : MacAddr
  algorithm : UInt8
  id : UInt8
  key : ℕ → UInt8

/-- What the two commands read: whether this is an access point, `network.MacAddress`, `mac_id`
    of the station with an address, and the register `REG_RCR`. -/
structure KeyEnv where
  ap : Bool
  networkAddr : MacAddr
  macId : MacAddr → Option ℕ
  rcr : BitVec 32

/-- `key_index` and `enc_algo` of `struct mlme_ext_info`, which they set. -/
structure KeyInfo where
  keyIndex : UInt8
  encAlgo : UInt8
  deriving DecidableEq, Repr

/-- `H2C_SUCCESS`, `H2C_SUCCESS_RSP`, `H2C_REJECTED`. -/
inductive H2cResult where
  | success
  | successRsp
  | rejected
  deriving DecidableEq, Repr

structure KeyResult where
  ret : H2cResult
  info : KeyInfo
  writes : List RegWrite

/-- `HW_VAR_ON_RCR_AM` (`hw.c`, lines 534–538). -/
def onRcrAm (env : KeyEnv) : List RegWrite := [⟨0x608, env.rcr ||| 4#32⟩]

/-- `setkey_hdl` (lines 6215–6233). -/
def setkeyHdl (env : KeyEnv) (info : KeyInfo) (p : SetkeyParm) : KeyResult where
  ret := .success
  info := if p.setTx ≠ 0 then { info with keyIndex := p.keyid } else info
  writes :=
    rtwCamAddOneEntry nullSta (ext32 p.keyid) p.keyid.toNat 0 (ext32 p.algorithm) p.key ++
      onRcrAm env

/-- The entry for a key of a station (lines 6262–6305). -/
def stakeyCamId (env : KeyEnv) (addr : MacAddr) : Option ℕ :=
  if env.ap then (env.macId addr).bind (Sta.setStakeyEntry true)
  else match env.macId env.networkAddr with
    | some macId => Sta.setStakeyEntry false macId
    | none => some 4

/-- `set_stakey_hdl` (lines 6235–6319). -/
def setStakeyHdl (env : KeyEnv) (info : KeyInfo) (p : SetStakeyParm) : KeyResult :=
  if p.algorithm = 0 then ⟨.success, info, clearCamEntry p.id⟩
  else match stakeyCamId env p.addr with
    | none => ⟨.rejected, info, []⟩
    | some camId =>
      ⟨if env.ap then .successRsp else .success,
        if env.ap then info else { info with encAlgo := p.algorithm },
        rtwCamAddOneEntry p.addr 0 camId (ext32 p.algorithm) 1 p.key⟩

/-! ## The hardware -/

/-- The data register and the table. -/
structure CamHw where
  data : BitVec 32
  table : ℕ → BitVec 32

/-- A write to the command register with both bits stores the data at the address in the low
    half. -/
def CamHw.write (hw : CamHw) (w : RegWrite) : CamHw :=
  if w.reg = CamVar.wcami.maps then { hw with data := w.val }
  else if w.reg = CamVar.rwcam.maps ∧ w.val &&& camWriteBits = camWriteBits then
    { hw with table := Function.update hw.table (w.val.toNat % 2 ^ 16) hw.data }
  else hw

def CamHw.run (hw : CamHw) (ws : List RegWrite) : CamHw := ws.foldl CamHw.write hw

/-- A key with its use. -/
structure CamEntry where
  valid : Bool
  alg : ℕ
  keyId : ℕ
  addr : List UInt8
  key : List UInt8
  deriving DecidableEq, Repr

def byteOf (w : BitVec 32) (k : ℕ) : UInt8 := ⟨w.extractLsb' (8 * k) 8⟩

/-- The entry in six words of the table. -/
def camDecode (table : ℕ → BitVec 32) (entry : ℕ) : CamEntry :=
  let w := fun i => table (camContentCount * entry + i)
  { valid := (w 0).getLsbD 15
    alg := ((w 0).extractLsb' 2 3).toNat
    keyId := ((w 0).extractLsb' 0 2).toNat
    addr := [byteOf (w 0) 2, byteOf (w 0) 3, byteOf (w 1) 0, byteOf (w 1) 1, byteOf (w 1) 2,
      byteOf (w 1) 3]
    key := (List.range 16).map fun j => byteOf (w (2 + j / 4)) (j % 4) }

/-! ## What an add writes -/

section words

variable {a b c d : UInt8}

theorem byteOf_pack :
    byteOf (ext32 d <<< 24 ||| ext32 c <<< 16 ||| ext32 b <<< 8 ||| ext32 a) 0 = a ∧
      byteOf (ext32 d <<< 24 ||| ext32 c <<< 16 ||| ext32 b <<< 8 ||| ext32 a) 1 = b ∧
      byteOf (ext32 d <<< 24 ||| ext32 c <<< 16 ||| ext32 b <<< 8 ||| ext32 a) 2 = c ∧
      byteOf (ext32 d <<< 24 ||| ext32 c <<< 16 ||| ext32 b <<< 8 ||| ext32 a) 3 = d := by
  refine ⟨?_, ?_, ?_, ?_⟩ <;>
  · apply UInt8.toBitVec_inj.mp
    apply BitVec.eq_of_getLsbD_eq
    intro i hi
    interval_cases i <;> simp [byteOf, ext32]

/-- The control word and the first two bytes of the address. -/
theorem byteOf_control (ctrl : BitVec 16) :
    byteOf (ext32 a <<< 16 ||| ext32 b <<< 24 ||| ctrl.setWidth 32) 2 = a ∧
      byteOf (ext32 a <<< 16 ||| ext32 b <<< 24 ||| ctrl.setWidth 32) 3 = b := by
  refine ⟨?_, ?_⟩ <;>
  · apply UInt8.toBitVec_inj.mp
    apply BitVec.eq_of_getLsbD_eq
    intro i hi
    interval_cases i <;> simp [byteOf, ext32]

theorem control_low (ctrl : BitVec 16) :
    (ext32 a <<< 16 ||| ext32 b <<< 24 ||| ctrl.setWidth 32).setWidth 16 = ctrl := by
  apply BitVec.eq_of_getLsbD_eq
  intro i hi
  interval_cases i <;> simp [ext32]

end words

section add

variable {mac : MacAddr} {key : ℕ → UInt8} {ctrl : BitVec 16}

theorem byteOf_key {i k : ℕ} (hi : 2 ≤ i) (hk : k < 4) :
    byteOf (camProgramContent mac key ctrl i) k = key (i * 4 - 8 + k) := by
  obtain ⟨h0, h1, h2, h3⟩ := byteOf_pack (a := key (i * 4 - 8 + 0)) (b := key (i * 4 - 8 + 1))
    (c := key (i * 4 - 8 + 2)) (d := key (i * 4 - 8 + 3))
  rw [camProgramContent, if_neg (by omega), if_neg (by omega)]
  interval_cases k
  · exact h0
  · exact h1
  · exact h2
  · exact h3

theorem mac_toList (mac : MacAddr) : mac.toList =
    [mac.getD 0 0, mac.getD 1 0, mac.getD 2 0, mac.getD 3 0, mac.getD 4 0, mac.getD 5 0] := by
  apply List.ext_getElem
  · rw [Vector.length_toList]
    rfl
  · intro i hi _
    rw [Vector.length_toList] at hi
    interval_cases i <;> simp [Vector.getD]

variable (mac key ctrl) in
/-- The entry that the words of `rtl_cam_program_entry` make up. -/
theorem decode_words {table : ℕ → BitVec 32} {e : ℕ}
    (h : ∀ i < 8, table (camContentCount * e + i) = camProgramContent mac key ctrl i) :
    camDecode table e =
      ⟨ctrl.getLsbD 15, (ctrl.extractLsb' 2 3).toNat, (ctrl.extractLsb' 0 2).toNat, mac.toList,
        (List.range 16).map key⟩ := by
  have h0 : table (camContentCount * e + 0) = ext32 (mac.getD 0 0) <<< 16 |||
      ext32 (mac.getD 1 0) <<< 24 ||| ctrl.setWidth 32 := h 0 (by omega)
  have h1 : table (camContentCount * e + 1) = ext32 (mac.getD 5 0) <<< 24 |||
      ext32 (mac.getD 4 0) <<< 16 ||| ext32 (mac.getD 3 0) <<< 8 ||| ext32 (mac.getD 2 0) :=
    h 1 (by omega)
  have hlow := control_low (a := mac.getD 0 0) (b := mac.getD 1 0) ctrl
  have hctrl : ∀ k n, k + n ≤ 16 → (table (camContentCount * e + 0)).extractLsb' k n =
      ctrl.extractLsb' k n := by
    intro k n hkn
    rw [← hlow, h0]
    apply BitVec.eq_of_getLsbD_eq
    intro i hi
    have hki : k + i < 16 := by omega
    simp only [BitVec.getLsbD_extractLsb', BitVec.getLsbD_setWidth, hki, hi, decide_true,
      Bool.true_and]
  have hvalid : (table (camContentCount * e + 0)).getLsbD 15 = ctrl.getLsbD 15 := by
    rw [← hlow, h0, BitVec.getLsbD_setWidth]
    rfl
  obtain ⟨hb2, hb3⟩ := byteOf_control (a := mac.getD 0 0) (b := mac.getD 1 0) ctrl
  obtain ⟨ha0, ha1, ha2, ha3⟩ := byteOf_pack (a := mac.getD 2 0) (b := mac.getD 3 0)
    (c := mac.getD 4 0) (d := mac.getD 5 0)
  have hkey : (List.range 16).map (fun j => byteOf (table (camContentCount * e + (2 + j / 4)))
      (j % 4)) = (List.range 16).map key := by
    apply List.map_congr_left
    intro j hj
    rw [List.mem_range] at hj
    rw [h _ (by omega), byteOf_key (by omega) (Nat.mod_lt j (by omega))]
    congr 1
    omega
  rw [camDecode, CamEntry.mk.injEq]
  refine ⟨hvalid, congrArg BitVec.toNat (hctrl 2 3 (by omega)),
    congrArg BitVec.toNat (hctrl 0 2 (by omega)), ?_, hkey⟩
  dsimp only
  rw [mac_toList, h0, h1, hb2, hb3, ha0, ha1, ha2, ha3]

end add

/-! ## What reaches the table -/

section table

variable {hw : CamHw}

theorem command_bits (n : ℕ) :
    (BitVec.ofNat 32 n ||| camWriteBits) &&& camWriteBits = camWriteBits := by
  apply BitVec.eq_of_getLsbD_eq
  intro i hi
  rw [BitVec.getLsbD_and, BitVec.getLsbD_or]
  cases (BitVec.ofNat 32 n).getLsbD i <;> cases camWriteBits.getLsbD i <;> rfl

theorem command_address {n : ℕ} (hn : n < 2 ^ 16) :
    (BitVec.ofNat 32 n ||| camWriteBits).toNat % 2 ^ 16 = n := by
  have hbits : camWriteBits.toNat % 2 ^ 16 = 0 := by decide
  rw [BitVec.toNat_or, Nat.or_mod_two_pow, hbits, Nat.or_zero, BitVec.toNat_ofNat,
    Nat.mod_eq_of_lt (by omega : n < 2 ^ 32), Nat.mod_eq_of_lt hn]

/-- One word. -/
theorem write_word (v : BitVec 32) {n : ℕ} (hn : n < 2 ^ 16) :
    (hw.write ⟨CamVar.wcami.maps, v⟩).write
      ⟨CamVar.rwcam.maps, BitVec.ofNat 32 n ||| camWriteBits⟩ =
      ⟨v, Function.update hw.table n v⟩ := by
  have hne : CamVar.rwcam.maps ≠ CamVar.wcami.maps := by decide
  have hdata : hw.write ⟨CamVar.wcami.maps, v⟩ = { hw with data := v } := if_pos rfl
  rw [hdata, CamHw.write, if_neg hne, if_pos ⟨rfl, command_bits n⟩]
  dsimp only
  rw [command_address hn]

/-- Words one after the other. -/
theorem run_words (content : ℕ → BitVec 32) (base : ℕ) {n : ℕ} (hn : base + n ≤ 2 ^ 16) (a : ℕ) :
    (hw.run ((List.range n).flatMap fun i => [⟨CamVar.wcami.maps, content i⟩,
      ⟨CamVar.rwcam.maps, BitVec.ofNat 32 (i + base) ||| camWriteBits⟩])).table a =
      if base ≤ a ∧ a < base + n then content (a - base) else hw.table a := by
  induction n with
  | zero =>
    have hout : ¬ (base ≤ a ∧ a < base + 0) := by omega
    rw [if_neg hout]
    rfl
  | succ n ih =>
    have ih' := ih (by omega)
    rw [List.range_succ, List.flatMap_append, CamHw.run, List.foldl_append]
    rw [List.flatMap_singleton, List.foldl_cons, List.foldl_cons, List.foldl_nil,
      write_word _ (by omega : n + base < 2 ^ 16)]
    dsimp only
    by_cases ha : a = n + base
    · have hin : base ≤ a ∧ a < base + (n + 1) := by omega
      rw [ha, Function.update_self, if_pos (ha ▸ hin), Nat.add_sub_cancel]
    · have hiff : (base ≤ a ∧ a < base + (n + 1)) ↔ base ≤ a ∧ a < base + n := by omega
      rw [Function.update_of_ne ha, if_congr hiff rfl rfl]
      exact ih'

/-- The table behind an add. -/
theorem addOneEntry_table {mac : MacAddr} {keyId alg dk : BitVec 32} {e : ℕ} {key : ℕ → UInt8}
    (hid : keyId ≠ BitVec.ofNat 32 Sta.totalCamEntry) (he : e < 256) (a : ℕ) :
    (hw.run (rtwCamAddOneEntry mac keyId e alg dk key)).table a =
      if a / 8 = e then
        camProgramContent mac key ((usConfig keyId alg dk).setWidth 16) (a - 8 * e)
      else hw.table a := by
  have hiff : (camContentCount * e ≤ a ∧ a < camContentCount * e + camContentCount) ↔
      a / 8 = e := by
    rw [camContentCount]
    omega
  rw [rtwCamAddOneEntry, if_neg hid, rtlCamProgramEntry,
    run_words _ _ (by rw [camContentCount]; omega), if_congr hiff rfl rfl]
  rfl

/-- Other entries stay. -/
theorem addOneEntry_other {mac : MacAddr} {keyId alg dk : BitVec 32} {e : ℕ} {key : ℕ → UInt8}
    (he : e < 256) {a : ℕ} (ha : a / 8 ≠ e) :
    (hw.run (rtwCamAddOneEntry mac keyId e alg dk key)).table a = hw.table a := by
  by_cases hid : keyId = BitVec.ofNat 32 Sta.totalCamEntry
  · rw [rtwCamAddOneEntry, if_pos hid]
    rfl
  · rw [addOneEntry_table hid he, if_neg ha]

theorem addOneEntry_decode {mac : MacAddr} {keyId alg dk : BitVec 32} {e : ℕ} {key : ℕ → UInt8}
    (hid : keyId ≠ BitVec.ofNat 32 Sta.totalCamEntry) (he : e < 256) :
    camDecode (hw.run (rtwCamAddOneEntry mac keyId e alg dk key)).table e =
      ⟨(usConfig keyId alg dk).getLsbD 15, ((usConfig keyId alg dk).extractLsb' 2 3).toNat,
        ((usConfig keyId alg dk).extractLsb' 0 2).toNat, mac.toList, (List.range 16).map key⟩ := by
  have hsplit : ∀ k n, k + n ≤ 16 →
      ((usConfig keyId alg dk).setWidth 16).extractLsb' k n =
        (usConfig keyId alg dk).extractLsb' k n := by
    intro k n hkn
    apply BitVec.eq_of_getLsbD_eq
    intro i hi
    have hki : k + i < 16 := by omega
    simp only [BitVec.getLsbD_extractLsb', BitVec.getLsbD_setWidth, hki, hi, decide_true,
      Bool.true_and]
  rw [decode_words mac key ((usConfig keyId alg dk).setWidth 16) ?_,
    hsplit 2 3 (by omega), hsplit 0 2 (by omega), BitVec.getLsbD_setWidth]
  · rfl
  · intro i hi
    have hin : (camContentCount * e + i) / 8 = e := by
      rw [camContentCount]
      omega
    rw [addOneEntry_table hid he, if_pos hin, camContentCount, Nat.add_sub_cancel_left]

/-- A write to another register. -/
theorem write_other {w : RegWrite} (h : w.reg ≠ CamVar.wcami.maps) (h' : w.reg ≠ CamVar.rwcam.maps) :
    hw.write w = hw := by
  rw [CamHw.write, if_neg h, if_neg fun hc => h' hc.1]

theorem run_other {ws : List RegWrite}
    (h : ∀ w ∈ ws, w.reg ≠ CamVar.wcami.maps ∧ w.reg ≠ CamVar.rwcam.maps) : hw.run ws = hw := by
  induction ws with
  | nil => rfl
  | cons w ws ih =>
    obtain ⟨hd, hc⟩ := h w List.mem_cons_self
    rw [CamHw.run, List.foldl_cons, write_other hd hc]
    exact ih fun w' hw' => h w' (List.mem_cons_of_mem w hw')

/-- `clear_cam_entry` leaves the table as it is. -/
theorem clearCamEntry_run (entry : UInt8) : hw.run (clearCamEntry entry) = hw := by
  apply run_other
  intro w hw
  obtain ⟨j, -, hj⟩ := List.mem_flatMap.mp hw
  rw [setHwRegCamWrite, List.mem_cons, List.mem_singleton] at hj
  have hregs : w.reg = CamVar.wcami.number ∨ w.reg = CamVar.rwcam.number :=
    hj.imp (congrArg RegWrite.reg) (congrArg RegWrite.reg)
  rcases hregs with hreg | hreg
  · rw [hreg]
    decide
  · rw [hreg]
    decide

theorem run_append (ws ws' : List RegWrite) : hw.run (ws ++ ws') = (hw.run ws).run ws' :=
  List.foldl_append

end table

/-! ## The control word -/

/-- With `ul_default_key` the key id is left out. -/
theorem usConfig_default (keyId : BitVec 32) (alg : UInt8) :
    (usConfig keyId (ext32 alg) 1).getLsbD 15 = true ∧
      ((usConfig keyId (ext32 alg) 1).extractLsb' 2 3).toNat = alg.toNat % 8 ∧
      ((usConfig keyId (ext32 alg) 1).extractLsb' 0 2).toNat = 0 := by
  have halg : (usConfig keyId (ext32 alg) 1).extractLsb' 2 3 = alg.toBitVec.setWidth 3 := by
    apply BitVec.eq_of_getLsbD_eq
    intro i hi
    interval_cases i <;> simp [usConfig, cfgValid, ext32]
  have hid : (usConfig keyId (ext32 alg) 1).extractLsb' 0 2 = 0 := by
    apply BitVec.eq_of_getLsbD_eq
    intro i hi
    interval_cases i <;> simp [usConfig, cfgValid, ext32]
  refine ⟨by simp [usConfig, cfgValid, ext32], ?_, by rw [hid]; rfl⟩
  rw [halg, BitVec.toNat_setWidth]
  rfl

theorem usConfig_keyId {dk : BitVec 32} (hdk : dk ≠ 1) (id : UInt8) :
    (usConfig (ext32 id) 0 dk).getLsbD 15 = true ∧
      ((usConfig (ext32 id) 0 dk).extractLsb' 2 3).toNat = id.toNat / 4 % 8 ∧
      ((usConfig (ext32 id) 0 dk).extractLsb' 0 2).toNat = id.toNat % 4 := by
  have hcfg : usConfig (ext32 id) 0 dk = cfgValid ||| ext32 id := by
    rw [usConfig, if_neg hdk]
    simp
  have halg : (cfgValid ||| ext32 id).extractLsb' 2 3 = id.toBitVec.extractLsb' 2 3 := by
    apply BitVec.eq_of_getLsbD_eq
    intro i hi
    interval_cases i <;> simp [cfgValid, ext32]
  have hid : (cfgValid ||| ext32 id).extractLsb' 0 2 = id.toBitVec.setWidth 2 := by
    apply BitVec.eq_of_getLsbD_eq
    intro i hi
    interval_cases i <;> simp [cfgValid, ext32]
  rw [hcfg]
  refine ⟨by simp [cfgValid, ext32], ?_, ?_⟩
  · rw [halg, BitVec.extractLsb'_toNat, Nat.shiftRight_eq_div_pow]
    rfl
  · rw [hid, BitVec.toNat_setWidth]
    rfl

theorem ext32_eq_one_iff (b : UInt8) : ext32 b = 1 ↔ b = 1 := by
  refine ⟨fun h => ?_, fun h => by rw [h]; rfl⟩
  have hnat := congrArg BitVec.toNat h
  rw [ext32, BitVec.toNat_setWidth] at hnat
  have hlt := b.toNat_lt
  apply UInt8.toNat_inj.mp
  change b.toNat % 2 ^ 32 = 1 at hnat
  show b.toNat = 1
  omega

theorem ext32_eq_totalCamEntry_iff (b : UInt8) :
    ext32 b = BitVec.ofNat 32 Sta.totalCamEntry ↔ b.toNat = Sta.totalCamEntry := by
  have hlt := b.toNat_lt
  have htoNat : (ext32 b).toNat = b.toNat := by
    rw [ext32, BitVec.toNat_setWidth]
    exact Nat.mod_eq_of_lt (by omega : b.toNat < 2 ^ 32)
  rw [← BitVec.toNat_inj, htoNat]
  rfl

/-! ## What the commands are to do -/

inductive KeyCommand where
  | setkey (p : SetkeyParm)
  | setStakey (p : SetStakeyParm)

def KeyCommand.run (env : KeyEnv) (info : KeyInfo) : KeyCommand → KeyResult
  | .setkey p => setkeyHdl env info p
  | .setStakey p => setStakeyHdl env info p

/-- The entry that a command chooses, and the key that it is to hold. -/
def KeyCommand.chosen (env : KeyEnv) : KeyCommand → Option (ℕ × CamEntry)
  | .setkey p => some (p.keyid.toNat,
      ⟨true, p.algorithm.toNat, p.keyid.toNat, nullSta.toList, (List.range 16).map p.key⟩)
  | .setStakey p =>
    if p.algorithm = 0 then none
    else (stakeyCamId env p.addr).map fun camId =>
      (camId, ⟨true, p.algorithm.toNat, 0, p.addr.toList, (List.range 16).map p.key⟩)

/-- Whatever the table was, it holds the key in the entry, and is as before elsewhere. -/
def Programs (env : KeyEnv) (info : KeyInfo) (c : KeyCommand) (e : ℕ) (k : CamEntry) : Prop :=
  ∀ hw : CamHw, camDecode (hw.run (c.run env info).writes).table e = k ∧
    ∀ a, a / 8 ≠ e → (hw.run (c.run env info).writes).table a = hw.table a

/-- The addresses of the table that are written. -/
def camAddresses (ws : List RegWrite) : List ℕ :=
  ws.filterMap fun w =>
    if w.reg = CamVar.rwcam.maps ∧ w.val &&& camWriteBits = camWriteBits then
      some (w.val.toNat % 2 ^ 16)
    else none

/-- `clear_cam_entry` of the entry addresses the same words and makes it invalid. -/
def Clears (env : KeyEnv) (info : KeyInfo) (c : KeyCommand) (e : ℕ) : Prop :=
  (∀ a, a ∈ camAddresses (clearCamEntry (UInt8.ofNat e)) ↔
    a ∈ camAddresses (c.run env info).writes) ∧
  ∀ hw : CamHw, (camDecode ((hw.run (c.run env info).writes).run
    (clearCamEntry (UInt8.ofNat e))).table e).valid = false

/-- The entry that the command chooses holds its key, and can be cleared again. -/
def KeyCommandOk (env : KeyEnv) (info : KeyInfo) (c : KeyCommand) : Prop :=
  ∀ e k, c.chosen env = some (e, k) → Programs env info c e k ∧ Clears env info c e

section commands

variable {env : KeyEnv} {info : KeyInfo} {hw : CamHw}

/-- The receive register is not the table's. -/
theorem onRcrAm_run (ws : List RegWrite) : hw.run (ws ++ onRcrAm env) = hw.run ws := by
  rw [run_append]
  apply run_other
  intro w hw
  have hreg : w.reg = 0x608 := congrArg RegWrite.reg (List.mem_singleton.mp hw)
  rw [hreg]
  decide

theorem stakeyCamId_lt {addr : MacAddr} {camId : ℕ} (h : stakeyCamId env addr = some camId) :
    camId < 256 := by
  have hentry : ∀ ap macId, Sta.setStakeyEntry ap macId = some camId → camId < 256 := by
    intro ap macId hsome
    unfold Sta.setStakeyEntry at hsome
    split_ifs at hsome
    rw [← Option.some.inj hsome]
    exact Nat.mod_lt _ (by omega)
  unfold stakeyCamId at h
  split_ifs at h
  · obtain ⟨macId, -, hsome⟩ := Option.bind_eq_some_iff.mp h
    exact hentry true macId hsome
  · split at h
    · exact hentry false _ h
    · rw [← Option.some.inj h]
      omega

/-- The algorithm is the `ul_default_key` of the call. -/
theorem setkeyHdl_programs_iff (p : SetkeyParm) :
    Programs env info (.setkey p) p.keyid.toNat
        ⟨true, p.algorithm.toNat, p.keyid.toNat, nullSta.toList, (List.range 16).map p.key⟩ ↔
      p.algorithm = 0 ∧ p.keyid.toNat < 4 := by
  have hrun : ∀ hw : CamHw, hw.run ((KeyCommand.setkey p).run env info).writes =
      hw.run (rtwCamAddOneEntry nullSta (ext32 p.keyid) p.keyid.toNat 0 (ext32 p.algorithm)
        p.key) := fun hw => onRcrAm_run _
  have hlt := p.keyid.toNat_lt
  unfold Programs
  constructor
  · intro h
    obtain ⟨hdec, -⟩ := h ⟨0, fun _ => 0⟩
    rw [hrun] at hdec
    by_cases hid : p.keyid.toNat = Sta.totalCamEntry
    · -- nothing is written
      rw [rtwCamAddOneEntry, if_pos ((ext32_eq_totalCamEntry_iff _).mpr hid)] at hdec
      exact absurd (congrArg CamEntry.valid hdec) (by simp [CamHw.run, camDecode])
    · rw [addOneEntry_decode (fun hc => hid ((ext32_eq_totalCamEntry_iff _).mp hc)) hlt] at hdec
      have halg := congrArg CamEntry.alg hdec
      have hkey := congrArg CamEntry.keyId hdec
      dsimp only at halg hkey
      by_cases hone : p.algorithm = 1
      · have hzero := (usConfig_default (ext32 p.keyid) 0).2.1
        rw [(ext32_eq_one_iff _).mpr hone, hone] at halg
        exact absurd (hzero.symm.trans halg) (by decide)
      · obtain ⟨-, ha, hk⟩ := usConfig_keyId (fun hc => hone ((ext32_eq_one_iff _).mp hc)) p.keyid
        rw [ha] at halg
        rw [hk] at hkey
        have hsmall : p.keyid.toNat < 4 := by omega
        refine ⟨UInt8.toNat_inj.mp ?_, hsmall⟩
        show p.algorithm.toNat = 0
        omega
  · rintro ⟨halg, hsmall⟩ hw
    have hid : ext32 p.keyid ≠ BitVec.ofNat 32 Sta.totalCamEntry := by
      intro hc
      have heq := (ext32_eq_totalCamEntry_iff _).mp hc
      rw [Sta.totalCamEntry] at heq
      omega
    have hone : ext32 p.algorithm ≠ 1 := by
      rw [Ne, ext32_eq_one_iff, halg]
      decide
    obtain ⟨hv, ha, hk⟩ := usConfig_keyId hone p.keyid
    rw [hrun, addOneEntry_decode hid hlt, hv, ha, hk, halg]
    refine ⟨?_, fun a ha => addOneEntry_other hlt ha⟩
    rw [Nat.mod_eq_of_lt hsmall, Nat.div_eq_of_lt hsmall]
    rfl

theorem setStakeyHdl_programs_iff {p : SetStakeyParm} {camId : ℕ} (halg : p.algorithm ≠ 0)
    (hcam : stakeyCamId env p.addr = some camId) :
    Programs env info (.setStakey p) camId
        ⟨true, p.algorithm.toNat, 0, p.addr.toList, (List.range 16).map p.key⟩ ↔
      p.algorithm.toNat < 8 := by
  have hlt := stakeyCamId_lt hcam
  have hwrites : ((KeyCommand.setStakey p).run env info).writes =
      rtwCamAddOneEntry p.addr 0 camId (ext32 p.algorithm) 1 p.key := by
    show (setStakeyHdl env info p).writes = _
    rw [setStakeyHdl, if_neg halg, hcam]
  have hdec : ∀ hw : CamHw, camDecode (hw.run ((KeyCommand.setStakey p).run env info).writes).table
      camId = ⟨true, p.algorithm.toNat % 8, 0, p.addr.toList, (List.range 16).map p.key⟩ := by
    intro hw
    obtain ⟨hv, ha, hk⟩ := usConfig_default 0 p.algorithm
    rw [hwrites, addOneEntry_decode (by decide) hlt, hv, ha, hk]
  constructor
  · intro h
    have heq := congrArg CamEntry.alg ((hdec ⟨0, fun _ => 0⟩).symm.trans (h ⟨0, fun _ => 0⟩).1)
    dsimp only at heq
    omega
  · intro hsmall hw
    rw [hdec hw, Nat.mod_eq_of_lt hsmall]
    refine ⟨rfl, fun a ha => ?_⟩
    rw [hwrites]
    exact addOneEntry_other hlt ha

/-- Nothing clears an entry that holds a key. -/
theorem not_clears {c : KeyCommand} {e : ℕ} {k : CamEntry} (hk : k.valid = true)
    (hprog : Programs env info c e k) : ¬ Clears env info c e := by
  rintro ⟨-, hclear⟩
  have hinvalid := hclear ⟨0, fun _ => 0⟩
  rw [clearCamEntry_run, (hprog ⟨0, fun _ => 0⟩).1, hk] at hinvalid
  cases hinvalid

end commands

/-- A set-key command has no algorithm and one of four ids; a set-station-key command has an
    algorithm of three bits. -/
def KeyCommand.Packed : KeyCommand → Prop
  | .setkey p => p.algorithm = 0 ∧ p.keyid.toNat < 4
  | .setStakey p => p.algorithm.toNat < 8

/-- A CCMP group key. -/
def ccmpGroupKey : SetkeyParm := ⟨4, 1, 0, fun _ => 0x5a⟩

end Rtl8821au.Security.Cam
