import Rtl8821au.Security.KeyRequest

/-!
# The place of a key

What a request of `KeyRequest` stores. A request selects at most one place: a default key, a
group key or the pairwise key of a station.

* `rtwSetKey_state`, `rtwApSetKey_copies`: the commands store nothing.
* `addWep_exact`, `wpa_exact`, `wext_exact`, `hostapd_exact`: the four handlers.
* `key_request_exact`: what every request stores, for `Fit` requests.

A request that is not `Fit` goes wrong in one of these ways: the settings are changed before
something fails; a WEP key that is not 5 or 13 bytes long is read beyond its end; the index 4
passes in `rtw_set_802_11_add_wep`, and any index passes for a group key with a station's address.
-/

namespace Rtl8821au.Security.KeyRequest

open Recv (Encryption MacAddr)

/-! ## What a request selects -/

inductive Request where
  | wpa (p : IeeeParam) (paramLen : ℕ)
  | hostapd (p : IeeeParam) (paramLen : ℕ)
  | wext (flags length : UInt16) (keybuf : ℕ → UInt8)
  | addWep (keyIndex : UInt32) (keyLength : ℕ) (keyMaterial : ℕ → UInt8)

/-- The handlers. -/
def handle (e : Env) (s : State) : Request → Outcome
  | .wpa p paramLen => wpaSetEncryption e s p paramLen
  | .hostapd p paramLen => rtwSetEncryption e s p paramLen
  | .wext flags length keybuf => rtwWxSetEnc e s flags length keybuf
  | .addWep keyIndex keyLength keyMaterial =>
    let res := rtwSet80211AddWep e keyIndex keyLength keyMaterial ⟨s, []⟩
    ⟨if res.1 then .success else .fail, res.2⟩

/-- Where a key is stored. -/
inductive Place where
  | default (idx : ℕ)
  | group (idx : ℕ)
  | pairwise (psta : ℕ)
  deriving DecidableEq, Repr

namespace Place

/-- The field of the key. -/
def field : Place → KeyField
  | default idx => .dot11DefKey idx
  | group idx => .dot118021XGrpKey idx
  | pairwise psta => .dot118021xUncstKey psta

/-- The fields of the MIC keys beside it. -/
def mics : Place → List KeyField
  | default _ => []
  | group idx => [.dot118021XGrptxmickey idx, .dot118021XGrprxmickey idx]
  | pairwise psta => [.dot11tkiptxmickey psta, .dot11tkiprxmickey psta]

/-- The lengths of the default keys with a key of `len` bytes stored. -/
def keylen (old : ℕ → ℕ) (len : ℕ) : Place → ℕ → ℕ
  | default idx => Function.update old idx len
  | group _ | pairwise _ => old

/-- The algorithm that goes with the key. -/
def algrthm (s : State) : Place → Encryption
  | default _ => s.dot11PrivacyAlgrthm
  | group _ => s.dot118021XGrpPrivacy
  | pairwise psta => (s.sta psta).dot118021XPrivacy

end Place

/-- Where the MIC keys begin in a key of 32 bytes. -/
def KeyField.micFirst : KeyField → ℕ
  | dot118021XGrptxmickey _ | dot11tkiptxmickey _ => 16
  | _ => 24

namespace Request

/-- The key. -/
def key : Request → ℕ → UInt8
  | wpa p _ | hostapd p _ => p.key
  | wext _ _ keybuf => keybuf
  | addWep _ _ keyMaterial => keyMaterial

/-- Its length as the request has it. -/
def keyLen : Request → ℕ
  | wpa p _ | hostapd p _ => p.keyLen.toNat
  | wext _ length _ => length.toNat
  | addWep _ keyLength _ => keyLength

/-- How many bytes of the request there are from the key on; `KeyMaterial` has 16. -/
def room : Request → ℕ
  | wpa _ paramLen | hostapd _ paramLen => paramLen - keyOffset
  | wext _ length _ => length.toNat
  | addWep _ _ _ => 16

/-- The place that is selected; a request that turns encryption off, that only selects a default
    key, or that finds no station or the wrong mode selects none. -/
def place (e : Env) (s : State) : Request → Option Place
  | wpa p _ =>
    if algOf p.alg = .wep then some (.default p.slot)
    else if s.dot11AuthAlgrthm = .ieee8021X ∧ e.stationState then
      (e.rtwGetStainfo e.bssid).map fun psta =>
        if p.setTx = 1 then .pairwise psta else .group p.slot
    else none
  | hostapd p _ =>
    if p.isBroadcast then
      match algOf p.alg with
      | .none | .other => none
      | .wep => some (.default p.slot)
      | .tkip | .ccmp => if e.apState ∧ p.setTx = 1 then some (.group p.slot) else none
    else if s.dot11AuthAlgrthm = .ieee8021X ∧ e.apState then
      (e.rtwGetStainfo p.staAddr).bind fun psta =>
        if p.setTx = 1 then some (.pairwise psta)
        else match algOf p.alg with
          | .none | .other => none
          | .wep | .tkip | .ccmp => some (.group p.slot)
    else none
  | wext flags length _ =>
    if flags &&& iwEncodeDisabled ≠ 0 ∨ length = 0 then none
    else if (flags &&& iwEncodeIndex).toNat = 0 then some (.default s.dot11PrivacyKeyIndex)
    else some (.default ((flags &&& iwEncodeIndex).toNat - 1))
  | addWep keyIndex _ _ => some (.default (keyIndex &&& 0x3fffffff).toNat)

/-- How much of the key is stored. -/
def kept (r : Request) : Place → ℕ
  | .default _ => if r.keyLen ≤ 5 then 5 else 13
  | .group _ | .pairwise _ => if 16 < r.keyLen then 16 else r.keyLen

/-- The MIC keys that are stored with it. -/
def mics (pl : Place) : Request → List KeyField
  | wpa p _ => if algOf p.alg = .tkip ∨ p.setTx ≠ 1 then pl.mics else []
  | hostapd p _ => if algOf p.alg = .tkip then pl.mics else []
  | wext _ _ _ | addWep _ _ _ => []

/-- The algorithm that the key is for. A station has that of its association. -/
def algrthm (s : State) : Request → Place → Encryption
  | wpa _ _, .group _ => s.dot118021XGrpPrivacy
  | wpa p _, .pairwise psta => ((openPort (algOf p.alg) psta s).sta psta).dot118021XPrivacy
  | hostapd p _, .group _ | hostapd p _, .pairwise _ => p.algrthm
  | hostapd p _, .default _ =>
    if p.setTx = 0 then s.dot11PrivacyAlgrthm else wepAlgrthm (wepKeyLen p.keyLen.toNat)
  | r, pl => wepAlgrthm (r.kept pl)

/-- The stations whose port is opened. -/
def opened (e : Env) : Request → List ℕ
  | wpa _ _ => (e.rtwGetStainfo e.bssid).toList ++ e.bcmc.toList
  | hostapd p _ =>
    if !p.isBroadcast && p.setTx = 1 then (e.rtwGetStainfo p.staAddr).toList else e.bcmc.toList
  | wext _ _ _ | addWep _ _ _ => []

end Request

/-! ## What is to be stored -/

/-- A copy that reads the request, and that writes a field up to its end and a slot that is
    there. A MIC key is read from a key that has one. -/
structure Inside (r : Request) (c : Copy) : Prop where
  slot : ∀ f ∈ c.field, ∀ idx ∈ f.slot, idx < wepKeys
  len_le : c.len ≤ 16
  inside : (∀ f ∈ c.field, f.isMic = true → 32 ≤ r.keyLen) → c.first + c.len ≤ r.room

/-- The key is where it was to be stored and everything else is as it was. -/
structure Stored (e : Env) (s : State) (r : Request) (pl : Place) (s' : State) : Prop where
  key : s'.keys pl.field = copyKey (s.keys pl.field) r.key (r.kept pl)
  mic : 32 ≤ r.keyLen → ∀ f ∈ r.mics pl,
    s'.keys f = copyKey (s.keys f) (fun k => r.key (f.micFirst + k)) 8
  other : ∀ f, f ≠ pl.field → f ∉ r.mics pl → s'.keys f = s.keys f
  keylen : s'.dot11DefKeylen = pl.keylen s.dot11DefKeylen (r.kept pl)
  algrthm : pl.algrthm s' = r.algrthm s pl
  sta : ∀ a ∉ r.opened e, s'.sta a = s.sta a

/-- What a request leaves behind. -/
structure Exact (e : Env) (s : State) (r : Request) (o : Outcome) : Prop where
  copies : ∀ c ∈ o.run.copies, Inside r c
  failed : o.ret ≠ .success → o.run.st = s
  nothing : o.ret = .success → r.place e s = none →
    o.run.st.keys = s.keys ∧ o.run.st.dot11DefKeylen = s.dot11DefKeylen ∧
      ∀ a ∉ r.opened e, o.run.st.sta a = s.sta a
  stored : o.ret = .success → ∀ pl, r.place e s = some pl → Stored e s r pl o.run.st

/-- A WEP key that is as long as it is taken to be, or longer. -/
def WepFit (len : ℕ) : Prop := len = 5 ∨ 13 ≤ len

instance (len : ℕ) : Decidable (WepFit len) := inferInstanceAs (Decidable (_ ∨ _))

/-- The command for a key is taken. -/
def Env.Takes (e : Env) : Prop := e.allocOk = true ∧ e.enqueueOk = true

instance (e : Env) : Decidable e.Takes := inferInstanceAs (Decidable (_ ∧ _))

/-- The requests that are handled as they should be. -/
def Fit (e : Env) (s : State) : Request → Prop
  | .wpa p paramLen =>
    keyOffset + p.keyLen.toNat ≤ paramLen → p.isBroadcast = true → p.slot < wepKeys →
      algOf p.alg = .wep →
        WepFit p.keyLen.toNat ∧ e.mallocOk = true ∧ (p.setTx ≠ 0 → e.Takes)
  | .hostapd p paramLen => paramLen = sizeofIeeeParam + p.keyLen.toNat →
    (p.isBroadcast = true → p.slot < wepKeys → algOf p.alg = .wep → p.keyLen ≠ 0 →
        WepFit p.keyLen.toNat ∧ e.mallocOk = true) ∧
      (p.isBroadcast = false → ∀ idx, (Request.hostapd p paramLen).place e s = some (.group idx) →
        idx < wepKeys)
  | .wext flags length _ =>
    flags &&& iwEncodeDisabled = 0 → (flags &&& iwEncodeIndex).toNat ≤ wepKeys →
      if length = 0 then (flags &&& iwEncodeIndex).toNat ≠ 0
      else WepFit length.toNat ∧ e.Takes ∧
        ((flags &&& iwEncodeIndex).toNat = 0 → s.dot11PrivacyKeyIndex < wepKeys)
  | .addWep keyIndex keyLength _ =>
    (keyIndex &&& 0x3fffffff).toNat ≤ wepKeys →
      (keyIndex &&& 0x3fffffff).toNat < wepKeys ∧ (keyLength = 5 ∨ keyLength = 13) ∧ e.Takes ∧
        (s.dot11AuthAlgrthm = .ieee8021X →
          s.dot118021XGrpPrivacy ∈ [.wep40, .wep104, .tkip, .aes])

@[simp] theorem Run.set_copies (run : Run) (g : State → State) :
    (run.set g).copies = run.copies := rfl

/-! ## Commands -/

section commands

variable (e : Env) (alg : Encryption) (keyid : ℕ) (s : State) (r : Run)

/-- Only `key_mask` changes. -/
theorem markKey_state : ∃ mask, markKey alg keyid s = { s with keyMask := mask } := by
  unfold markKey
  split
  · exact ⟨_, rfl⟩
  · exact ⟨s.keyMask, rfl⟩

theorem rtwSetKey_state : ∃ mask, (rtwSetKey e keyid s).2 = { s with keyMask := mask } := by
  unfold rtwSetKey
  split
  · exact ⟨s.keyMask, rfl⟩
  · dsimp only
    split <;> exact markKey_state _ keyid s

/-- When the command is taken. -/
theorem rtwSetKey_takes (he : e.Takes)
    (halg : (if s.dot11AuthAlgrthm = .ieee8021X then s.dot118021XGrpPrivacy
      else s.dot11PrivacyAlgrthm) ∈ [Encryption.wep40, .wep104, .tkip, .aes]) :
    (rtwSetKey e keyid s).1 = true := by
  unfold rtwSetKey
  rw [he.1, if_neg (by decide)]
  dsimp only
  revert halg
  generalize (if s.dot11AuthAlgrthm = .ieee8021X then s.dot118021XGrpPrivacy
    else s.dot11PrivacyAlgrthm) = a
  intro halg
  cases a
  case wep40 | wep104 | tkip | aes => exact he.2
  case noPrivacy | reserved | cmac => exact absurd halg (by decide)

theorem rtwApSetKey_state :
    ∃ mask, (rtwApSetKey e alg keyid r).st = { r.st with keyMask := mask } := by
  unfold rtwApSetKey
  split
  · exact markKey_state alg keyid r.st
  · exact ⟨r.st.keyMask, rfl⟩

/-- A command reads at most 16 bytes, and of a WEP key its length. -/
theorem rtwApSetKey_copies {c : Copy} (hc : c ∈ (rtwApSetKey e alg keyid r).copies) :
    c ∈ r.copies ∨ c.field = none ∧ c.first = 0 ∧ c.len ≤ 16 ∧
      ∀ len, alg = wepAlgrthm len → len = 5 ∨ len = 13 → c.len = len := by
  unfold rtwApSetKey at hc
  split at hc
  case isFalse => exact Or.inl hc
  case isTrue =>
    obtain rfl | hold := List.mem_cons.mp hc
    · refine Or.inr ⟨rfl, rfl, ?_, ?_⟩
      · cases alg <;> decide
      · rintro len rfl (rfl | rfl) <;> rfl
    · exact Or.inl hold

end commands

/-! ## Requests that store nothing -/

section nothing

variable {e : Env} {s : State} (r : Request)

/-- A request that is refused. -/
theorem exact_refused {ret : Ret} (hret : ret ≠ .success) : Exact e s r ⟨ret, ⟨s, []⟩⟩ where
  copies := fun _ hc => absurd hc List.not_mem_nil
  failed := fun _ => rfl
  nothing := fun h => absurd h hret
  stored := fun h => absurd h hret

/-- A request with no place for a key. -/
theorem exact_nothing {o : Outcome} (hret : o.ret = .success) (hplace : r.place e s = none)
    (hcopies : ∀ c ∈ o.run.copies, Inside r c) (hkeys : o.run.st.keys = s.keys)
    (hlen : o.run.st.dot11DefKeylen = s.dot11DefKeylen)
    (hsta : ∀ a ∉ r.opened e, o.run.st.sta a = s.sta a) : Exact e s r o where
  copies := hcopies
  failed := fun h => absurd hret h
  nothing := fun _ _ => ⟨hkeys, hlen, hsta⟩
  stored := fun _ pl hpl => absurd (hplace ▸ hpl) (Option.some_ne_none pl).symm

/-- Such a request may turn encryption off. -/
theorem exact_noPlace {s' : State} (hplace : r.place e s = none) (hkeys : s'.keys = s.keys)
    (hlen : s'.dot11DefKeylen = s.dot11DefKeylen) (hsta : ∀ a ∉ r.opened e, s'.sta a = s.sta a) :
    Exact e s r ⟨.success, ⟨s', []⟩⟩ :=
  exact_nothing r rfl hplace (fun _ hc => absurd hc List.not_mem_nil) hkeys hlen hsta

/-- A request that stores a key. -/
theorem exact_stored {o : Outcome} {pl : Place} (hret : o.ret = .success)
    (hplace : r.place e s = some pl) (hcopies : ∀ c ∈ o.run.copies, Inside r c)
    (hstored : Stored e s r pl o.run.st) : Exact e s r o where
  copies := hcopies
  failed := fun h => absurd hret h
  nothing := fun _ h => absurd (hplace.symm.trans h) (Option.some_ne_none pl)
  stored := fun _ _ h => Option.some.inj (hplace.symm.trans h) ▸ hstored

end nothing

/-! ## Fields with a key -/

section fields

variable {e : Env} {s s' : State} {r : Request} {pl : Place}

/-- The fields when `field` has the key and `mics` have the MIC keys. -/
def withKey (keys : KeyField → Block) (key : ℕ → UInt8) (n : ℕ) (field : KeyField)
    (mics : List KeyField) (f : KeyField) : Block :=
  if f = field then copyKey (keys f) key n
  else if f ∈ mics then copyKey (keys f) (fun k => key (f.micFirst + k)) 8
  else keys f

theorem field_not_mem_mics (r : Request) (pl : Place) : pl.field ∉ r.mics pl := by
  have hpl : pl.field ∉ pl.mics := by cases pl <;> simp [Place.field, Place.mics]
  cases r <;> simp only [Request.mics]
  case wpa | hostapd =>
    split
    · exact hpl
    · exact List.not_mem_nil
  case wext | addWep => exact List.not_mem_nil

theorem stored_withKey
    (hkeys : s'.keys = withKey s.keys r.key (r.kept pl) pl.field (r.mics pl))
    (hlen : s'.dot11DefKeylen = pl.keylen s.dot11DefKeylen (r.kept pl))
    (halg : pl.algrthm s' = r.algrthm s pl) (hsta : ∀ a ∉ r.opened e, s'.sta a = s.sta a) :
    Stored e s r pl s' where
  key := by rw [hkeys, withKey, if_pos rfl]
  mic := by
    intro _ f hf
    have hne : f ≠ pl.field := by
      rintro rfl
      exact field_not_mem_mics r pl hf
    rw [hkeys, withKey, if_neg hne, if_pos hf]
  other := by
    intro f hne hf
    rw [hkeys, withKey, if_neg hne, if_neg hf]
  keylen := hlen
  algrthm := halg
  sta := hsta

theorem update_withKey (keys : KeyField → Block) (f : KeyField) (key : ℕ → UInt8) (n : ℕ) :
    Function.update keys f (copyKey (keys f) key n) = withKey keys key n f [] := by
  funext g
  dsimp only [withKey]
  rw [Function.update_apply]
  split
  case isTrue h => rw [h]
  case isFalse => rfl

end fields

/-! ## Default keys -/

section defaultKeys

variable {e : Env} {s s' : State} {r : Request} {idx : ℕ}

/-- A copy from the beginning of the key. -/
theorem memcpy_zero (r : Run) (f : KeyField) (key : ℕ → UInt8) (len : ℕ) :
    r.memcpy f key 0 len =
      { st := { r.st with keys := Function.update r.st.keys f (copyKey (r.st.keys f) key len) }
        copies := ⟨some f, 0, len⟩ :: r.copies } := by
  have hkey : (fun k => key (0 + k)) = key := by
    funext k
    rw [Nat.zero_add]
  unfold Run.memcpy
  rw [hkey]

theorem mics_default (r : Request) (idx : ℕ) : r.mics (.default idx) = [] := by
  cases r with
  | wpa p paramLen => exact ite_self _
  | hostapd p paramLen => exact ite_self _
  | wext flags length keybuf => rfl
  | addWep keyIndex keyLength keyMaterial => rfl

theorem stored_default
    (hkeys : s'.keys = Function.update s.keys (.dot11DefKey idx)
      (copyKey (s.keys (.dot11DefKey idx)) r.key (r.kept (.default idx))))
    (hlen : s'.dot11DefKeylen = Function.update s.dot11DefKeylen idx (r.kept (.default idx)))
    (halg : s'.dot11PrivacyAlgrthm = r.algrthm s (.default idx)) (hsta : s'.sta = s.sta) :
    Stored e s r (.default idx) s' := by
  refine stored_withKey ?_ hlen halg fun a _ => congrFun hsta a
  rw [hkeys, mics_default]
  exact update_withKey ..

/-- A command changes nothing of it. -/
theorem Stored.mask {pl : Place} (h : Stored e s r pl s') (mask : UInt8) :
    Stored e s r pl { s' with keyMask := mask } where
  key := h.key
  mic := h.mic
  other := h.other
  keylen := h.keylen
  algrthm := by
    rw [← h.algrthm]
    cases pl <;> rfl
  sta := h.sta

theorem Stored.rtwSetKey {pl : Place} (h : Stored e s r pl s') (keyid : ℕ) :
    Stored e s r pl (rtwSetKey e keyid s').2 := by
  obtain ⟨mask, hmask⟩ := rtwSetKey_state e keyid s'
  rw [hmask]
  exact h.mask mask

/-- A copy into a default key. -/
theorem inside_default {len : ℕ} (hidx : idx < wepKeys) (hlen : len = 5 ∨ len = 13)
    (hroom : len ≤ r.room) : Inside r ⟨some (.dot11DefKey idx), 0, len⟩ where
  slot := by
    rintro f ⟨⟩ i ⟨⟩
    exact hidx
  len_le := by
    dsimp only
    omega
  inside := by
    intro _
    dsimp only
    omega

end defaultKeys

section addWep

variable (e : Env) (keyLength : ℕ) (keyMaterial : ℕ → UInt8) (r : Run)
  {keyIndex : UInt32} {idx : ℕ}

theorem addWep_run (hk : (keyIndex &&& 0x3fffffff).toNat = idx) (hidx : idx < wepKeys) :
    (rtwSet80211AddWep e keyIndex keyLength keyMaterial r).2.copies =
        ⟨some (.dot11DefKey idx), 0, keyLength⟩ :: r.copies ∧
      ∃ mask, (rtwSet80211AddWep e keyIndex keyLength keyMaterial r).2.st =
        { r.st with
          dot11PrivacyAlgrthm := wepAlgrthm keyLength
          keys := Function.update r.st.keys (.dot11DefKey idx)
            (copyKey (r.st.keys (.dot11DefKey idx)) keyMaterial keyLength)
          dot11DefKeylen := Function.update r.st.dot11DefKeylen idx keyLength
          dot11PrivacyKeyIndex := idx
          keyMask := mask } := by
  have hfour : ¬ 4 < idx := Nat.not_lt.mpr (Nat.le_of_lt hidx)
  unfold rtwSet80211AddWep
  rw [hk]
  dsimp only
  rw [if_neg hfour, memcpy_zero]
  exact ⟨rfl, rtwSetKey_state e idx _⟩

/-- When the command is taken. -/
theorem addWep_takes (hk : (keyIndex &&& 0x3fffffff).toNat = idx) (hidx : idx < wepKeys)
    (hlen : keyLength = 5 ∨ keyLength = 13) (he : e.Takes)
    (hgrp : r.st.dot11AuthAlgrthm = .ieee8021X →
      r.st.dot118021XGrpPrivacy ∈ [Encryption.wep40, .wep104, .tkip, .aes]) :
    (rtwSet80211AddWep e keyIndex keyLength keyMaterial r).1 = true := by
  have hfour : ¬ 4 < idx := Nat.not_lt.mpr (Nat.le_of_lt hidx)
  unfold rtwSet80211AddWep
  rw [hk]
  dsimp only
  rw [if_neg hfour, memcpy_zero]
  refine rtwSetKey_takes e idx _ he ?_
  show (if r.st.dot11AuthAlgrthm = .ieee8021X then r.st.dot118021XGrpPrivacy
    else wepAlgrthm keyLength) ∈ _
  split
  case isTrue hauth => exact hgrp hauth
  case isFalse => obtain rfl | rfl := hlen <;> decide

theorem addWep_exact (s : State) (h : Fit e s (.addWep keyIndex keyLength keyMaterial)) :
    Exact e s (.addWep keyIndex keyLength keyMaterial)
      (handle e s (.addWep keyIndex keyLength keyMaterial)) := by
  by_cases hle : (keyIndex &&& 0x3fffffff).toNat ≤ wepKeys
  · obtain ⟨hidx, hlen, he, hgrp⟩ := h hle
    obtain ⟨hcopies, mask, hst⟩ := addWep_run e keyLength keyMaterial ⟨s, []⟩ rfl hidx
    have htakes := addWep_takes e keyLength keyMaterial ⟨s, []⟩ rfl hidx hlen he hgrp
    have hkept : (Request.addWep keyIndex keyLength keyMaterial).kept
        (.default (keyIndex &&& 0x3fffffff).toNat) = keyLength := by
      obtain rfl | rfl := hlen <;> rfl
    have hrun : (handle e s (.addWep keyIndex keyLength keyMaterial)).run.st = _ := hst
    refine exact_stored _ (if_pos htakes) rfl ?_ (stored_default ?_ ?_ ?_ ?_)
    · intro c hc
      have hmem : c ∈ [(⟨some (.dot11DefKey (keyIndex &&& 0x3fffffff).toNat), 0, keyLength⟩ : Copy)] :=
        hcopies ▸ hc
      rw [List.mem_singleton.mp hmem]
      exact inside_default hidx hlen (by show keyLength ≤ 16; omega)
    · rw [hrun, hkept]
      rfl
    · rw [hrun, hkept]
    · rw [hrun]
      show wepAlgrthm keyLength = wepAlgrthm (Request.kept _ _)
      rw [hkept]
    · rw [hrun]
  · have hrefused : rtwSet80211AddWep e keyIndex keyLength keyMaterial ⟨s, []⟩ =
        (false, ⟨s, []⟩) := by
      unfold rtwSet80211AddWep
      exact if_pos (Nat.lt_of_not_le hle)
    have hhandle : handle e s (.addWep keyIndex keyLength keyMaterial) = ⟨.fail, ⟨s, []⟩⟩ := by
      simp only [handle, hrefused]
      rfl
    rw [hhandle]
    exact exact_refused _ (by decide)

end addWep

/-- The index with the bit of a transmit key. -/
theorem masked_index {idx : ℕ} (h : idx < wepKeys) :
    ((UInt32.ofNat idx ||| 0x80000000) &&& 0x3fffffff).toNat = idx := by
  have hfour : idx = 0 ∨ idx = 1 ∨ idx = 2 ∨ idx = 3 := by
    have hkeys : wepKeys = 4 := rfl
    omega
  obtain rfl | rfl | rfl | rfl := hfour <;> rfl

/-- A key that is long enough is 5 or 13 bytes of the request. -/
theorem wepKeyLen_fit {len : ℕ} (h : WepFit len) :
    (wepKeyLen len = 5 ∨ wepKeyLen len = 13) ∧ wepKeyLen len ≤ len := by
  unfold wepKeyLen
  unfold WepFit at h
  split <;> omega

/-! ## `rtw_wx_set_enc` -/

section wext

variable {e : Env} {s : State} {flags length : UInt16} {keybuf : ℕ → UInt8}

@[simp] theorem setAuthMode_keys : (setAuthMode flags s).keys = s.keys := by
  unfold setAuthMode
  split <;> rfl

@[simp] theorem setAuthMode_keylen :
    (setAuthMode flags s).dot11DefKeylen = s.dot11DefKeylen := by
  unfold setAuthMode
  split <;> rfl

@[simp] theorem setAuthMode_sta : (setAuthMode flags s).sta = s.sta := by
  unfold setAuthMode
  split <;> rfl

theorem setAuthMode_auth : (setAuthMode flags s).dot11AuthAlgrthm ≠ .ieee8021X := by
  unfold setAuthMode
  split
  · exact AuthAlgrthm.noConfusion
  · exact AuthAlgrthm.noConfusion

theorem wext_exact (h : Fit e s (.wext flags length keybuf)) :
    Exact e s (.wext flags length keybuf) (handle e s (.wext flags length keybuf)) := by
  unfold handle rtwWxSetEnc
  dsimp only
  by_cases hdis : flags &&& iwEncodeDisabled = 0
  case neg =>
    rw [if_pos hdis]
    exact exact_noPlace _ (if_pos (Or.inl hdis)) rfl rfl fun _ _ => rfl
  rw [if_neg (not_not.mpr hdis)]
  by_cases hindex : wepKeys < (flags &&& iwEncodeIndex).toNat
  case pos =>
    rw [if_pos hindex]
    exact exact_refused _ (by decide)
  rw [if_neg hindex]
  have hfit := h hdis (Nat.le_of_not_lt hindex)
  generalize hkey : (if (flags &&& iwEncodeIndex).toNat = 0 then s.dot11PrivacyKeyIndex
    else (flags &&& iwEncodeIndex).toNat - 1) = key
  by_cases hlength : length = 0
  · rw [if_pos hlength] at hfit
    rw [if_pos ⟨hlength, hfit⟩]
    exact exact_noPlace _ (if_pos (Or.inr hlength)) setAuthMode_keys setAuthMode_keylen
      fun _ _ => by simp
  · rw [if_neg hlength] at hfit
    rw [if_neg fun hboth => hlength hboth.1, if_neg hlength]
    obtain ⟨hwep, he, hold⟩ := hfit
    obtain ⟨hlen, hle⟩ := wepKeyLen_fit hwep
    have hidx : key < wepKeys := by
      rw [← hkey]
      split
      case isTrue hzero => exact hold hzero
      case isFalse => omega
    have hplace : (Request.wext flags length keybuf).place e s = some (.default key) := by
      rw [Request.place, if_neg (by simp [hdis, hlength]), ← hkey]
      split <;> rfl
    obtain ⟨hcopies, mask, hst⟩ := addWep_run e (wepKeyLen length.toNat) keybuf
      ⟨setAuthMode flags s, []⟩ (masked_index hidx) hidx
    have htakes := addWep_takes e (wepKeyLen length.toNat) keybuf ⟨setAuthMode flags s, []⟩
      (masked_index hidx) hidx hlen he fun hauth => absurd hauth setAuthMode_auth
    rw [htakes, if_neg (by simp)]
    refine exact_stored _ rfl hplace ?_ (stored_default ?_ ?_ ?_ ?_)
    · intro c hc
      rw [hcopies] at hc
      rw [List.mem_singleton.mp hc]
      exact inside_default hidx hlen hle
    · rw [hst, setAuthMode_keys]
      rfl
    · rw [hst, setAuthMode_keylen]
      rfl
    · rw [hst]
      rfl
    · rw [hst]
      exact setAuthMode_sta

end wext

/-! ## Group and pairwise keys -/

section copies

variable {r : Request} {p : IeeeParam}

/-- A key and its MIC keys. -/
def copyMics (run : Run) (f tx rx : KeyField) (key : ℕ → UInt8) (n : ℕ) : Run :=
  ((run.memcpy f key 0 n).memcpy tx key 16 8).memcpy rx key 24 8

/-- A copy of the key itself. -/
theorem inside_key {f : KeyField} (hslot : ∀ i ∈ f.slot, i < wepKeys)
    (hroom : p.keyLen.toNat ≤ r.room) : Inside r ⟨some f, 0, p.keptLen⟩ where
  slot := by
    rintro f ⟨⟩
    exact hslot
  len_le := by
    dsimp only [IeeeParam.keptLen]
    split <;> omega
  inside := by
    intro _
    dsimp only [IeeeParam.keptLen]
    split <;> omega

/-- A copy of a MIC key. -/
theorem inside_mic {f : KeyField} (hslot : ∀ i ∈ f.slot, i < wepKeys) (hmic : f.isMic = true)
    {first : ℕ} (hfirst : first ≤ 24) (hroom : r.keyLen ≤ r.room) :
    Inside r ⟨some f, first, 8⟩ where
  slot := by
    rintro f ⟨⟩
    exact hslot
  len_le := by
    dsimp only
    omega
  inside := by
    intro hlong
    have hkey := hlong f rfl hmic
    dsimp only
    omega

/-- The copies of a key and its MIC keys. -/
theorem inside_copyMics {run : Run} {f tx rx : KeyField} (hf : ∀ i ∈ f.slot, i < wepKeys)
    (htx : ∀ i ∈ tx.slot, i < wepKeys) (hrx : ∀ i ∈ rx.slot, i < wepKeys)
    (htxMic : tx.isMic = true) (hrxMic : rx.isMic = true) (hlen : r.keyLen = p.keyLen.toNat)
    (hroom : p.keyLen.toNat ≤ r.room) {c : Copy}
    (hc : c ∈ (copyMics run f tx rx p.key p.keptLen).copies) : c ∈ run.copies ∨ Inside r c := by
  obtain rfl | hc := List.mem_cons.mp hc
  · exact Or.inr (inside_mic hrx hrxMic (Nat.le_refl 24) (hlen ▸ hroom))
  · obtain rfl | hc := List.mem_cons.mp hc
    · exact Or.inr (inside_mic htx htxMic (by decide) (hlen ▸ hroom))
    · obtain rfl | hc := List.mem_cons.mp hc
      · exact Or.inr (inside_key hf hroom)
      · exact Or.inl hc

end copies

/-- A key without MIC keys. -/
theorem memcpy_keys (run : Run) (f : KeyField) (key : ℕ → UInt8) (n : ℕ) :
    (run.memcpy f key 0 n).st.keys = withKey run.st.keys key n f [] := by
  rw [memcpy_zero]
  exact update_withKey run.st.keys f key n

/-- A key with MIC keys. -/
theorem copyMics_keys (run : Run) (f tx rx : KeyField) (key : ℕ → UInt8) (n : ℕ)
    (htx : tx.micFirst = 16) (hrx : rx.micFirst = 24) (hf : f.isMic = false)
    (htxMic : tx.isMic = true) (hrxMic : rx.isMic = true) :
    (copyMics run f tx rx key n).st.keys = withKey run.st.keys key n f [tx, rx] := by
  have hne : tx ≠ rx := by
    rintro rfl
    rw [htx] at hrx
    exact absurd hrx (by decide)
  have hftx : tx ≠ f := by
    rintro rfl
    rw [hf] at htxMic
    exact Bool.false_ne_true htxMic
  have hfrx : rx ≠ f := by
    rintro rfl
    rw [hf] at hrxMic
    exact Bool.false_ne_true hrxMic
  rw [copyMics, memcpy_zero]
  funext g
  simp only [Run.memcpy, withKey, List.mem_cons, List.not_mem_nil, or_false]
  by_cases hg : g = f
  · rw [hg, if_pos rfl, Function.update_of_ne hfrx.symm, Function.update_of_ne hftx.symm,
      Function.update_self]
  · rw [if_neg hg]
    by_cases hgrx : g = rx
    · rw [hgrx, if_pos (Or.inr rfl), Function.update_self, Function.update_of_ne hne.symm,
        Function.update_of_ne hfrx, hrx]
    · rw [Function.update_of_ne hgrx]
      by_cases hgtx : g = tx
      · rw [hgtx, if_pos (Or.inl rfl), Function.update_self, Function.update_of_ne hftx, htx]
      · rw [if_neg (by simp [hgtx, hgrx]), Function.update_of_ne hgtx, Function.update_of_ne hg]

/-- What an 802.1X key leaves as it is. -/
structure Beside (s s' : State) : Prop where
  auth : s'.dot11AuthAlgrthm = s.dot11AuthAlgrthm
  privacy : s'.dot11PrivacyAlgrthm = s.dot11PrivacyAlgrthm
  grpPrivacy : s'.dot118021XGrpPrivacy = s.dot118021XGrpPrivacy
  status : s'.ndisencryptstatus = s.ndisencryptstatus
  keylen : s'.dot11DefKeylen = s.dot11DefKeylen
  sta : s'.sta = s.sta

namespace Beside

theorem trans {s s' s'' : State} (h : Beside s s') (h' : Beside s' s'') : Beside s s'' where
  auth := h'.auth.trans h.auth
  privacy := h'.privacy.trans h.privacy
  grpPrivacy := h'.grpPrivacy.trans h.grpPrivacy
  status := h'.status.trans h.status
  keylen := h'.keylen.trans h.keylen
  sta := h'.sta.trans h.sta

theorem set {s : State} {run : Run} {g : State → State} (h : Beside s run.st)
    (hg : Beside run.st (g run.st)) : Beside s (run.set g).st :=
  h.trans hg

theorem memcpy (run : Run) (f : KeyField) (key : ℕ → UInt8) (first n : ℕ) :
    Beside run.st (run.memcpy f key first n).st :=
  ⟨rfl, rfl, rfl, rfl, rfl, rfl⟩

theorem copyMics (run : Run) (f tx rx : KeyField) (key : ℕ → UInt8) (n : ℕ) :
    Beside run.st (copyMics run f tx rx key n).st :=
  ⟨rfl, rfl, rfl, rfl, rfl, rfl⟩

theorem rtwSetKey (e : Env) (keyid : ℕ) (s : State) : Beside s (rtwSetKey e keyid s).2 := by
  obtain ⟨mask, h⟩ := rtwSetKey_state e keyid s
  rw [h]
  exact ⟨rfl, rfl, rfl, rfl, rfl, rfl⟩

theorem rtwSetstakeyCmd (e : Env) (s : State) : Beside s (rtwSetstakeyCmd e s) := by
  unfold KeyRequest.rtwSetstakeyCmd
  split
  · exact ⟨rfl, rfl, rfl, rfl, rfl, rfl⟩
  · exact ⟨rfl, rfl, rfl, rfl, rfl, rfl⟩

end Beside

theorem rtwSetKey_keys (e : Env) (keyid : ℕ) (s : State) : (rtwSetKey e keyid s).2.keys = s.keys := by
  obtain ⟨mask, h⟩ := rtwSetKey_state e keyid s
  rw [h]

theorem rtwSetstakeyCmd_keys (e : Env) (s : State) : (rtwSetstakeyCmd e s).keys = s.keys := by
  unfold rtwSetstakeyCmd
  split <;> rfl

/-! ## Copies with and without MIC keys -/

section copied

variable {r : Request} {p : IeeeParam} {f tx rx : KeyField}

/-- A key, for TKIP with its MIC keys; `flag` is what becomes of `busetkipkey`. -/
def copied (p : IeeeParam) (f tx rx : KeyField) (flag : Bool) (run : Run) : Run :=
  if algOf p.alg = .tkip then
    (copyMics run f tx rx p.key p.keptLen).set fun s => { s with busetkipkey := flag }
  else run.memcpy f p.key 0 p.keptLen

theorem copied_keys (flag : Bool) (run : Run) (htx : tx.micFirst = 16) (hrx : rx.micFirst = 24)
    (hf : f.isMic = false) (htxMic : tx.isMic = true) (hrxMic : rx.isMic = true) :
    (copied p f tx rx flag run).st.keys = withKey run.st.keys p.key p.keptLen f
      (if algOf p.alg = .tkip then [tx, rx] else []) := by
  unfold copied
  split
  · exact copyMics_keys run f tx rx p.key p.keptLen htx hrx hf htxMic hrxMic
  · exact memcpy_keys run f p.key p.keptLen

theorem copied_beside (flag : Bool) (run : Run) :
    Beside run.st (copied p f tx rx flag run).st := by
  unfold copied
  split
  · exact Beside.set (Beside.copyMics run ..) ⟨rfl, rfl, rfl, rfl, rfl, rfl⟩
  · exact Beside.memcpy run ..

theorem copied_copies {flag : Bool} {run : Run} (hf : ∀ i ∈ f.slot, i < wepKeys)
    (htx : ∀ i ∈ tx.slot, i < wepKeys) (hrx : ∀ i ∈ rx.slot, i < wepKeys)
    (htxMic : tx.isMic = true) (hrxMic : rx.isMic = true) (hlen : r.keyLen = p.keyLen.toNat)
    (hroom : p.keyLen.toNat ≤ r.room) {c : Copy} (hc : c ∈ (copied p f tx rx flag run).copies) :
    c ∈ run.copies ∨ Inside r c := by
  unfold copied at hc
  split at hc
  · rw [Run.set_copies] at hc
    exact inside_copyMics hf htx hrx htxMic hrxMic hlen hroom hc
  · obtain rfl | hold := List.mem_cons.mp hc
    · exact Or.inr (inside_key hf hroom)
    · exact Or.inl hold

/-- A field of a station is no slot. -/
theorem no_slot (h : f.slot = none) : ∀ i ∈ f.slot, i < wepKeys := by
  intro i hi
  rw [h] at hi
  exact absurd hi (Option.not_mem_none i)

theorem one_slot {idx : ℕ} (hidx : idx < wepKeys) (h : f.slot = some idx) :
    ∀ i ∈ f.slot, i < wepKeys := by
  intro i hi
  rw [h] at hi
  rwa [← Option.some.inj hi]

end copied

/-! ## `wpa_set_encryption` -/

section wpa

variable {e : Env} {s : State} {p : IeeeParam} {paramLen psta : ℕ}

/-- The place of an 802.1X key. -/
def wpaPlace (p : IeeeParam) (psta : ℕ) : Place :=
  if p.setTx = 1 then .pairwise psta else .group p.slot

theorem wpaSetKeys_pairwise (h : p.setTx = 1) (run : Run) :
    wpaSetKeys e p psta run =
      (copied p (.dot118021xUncstKey psta) (.dot11tkiptxmickey psta) (.dot11tkiprxmickey psta)
        false run).set (rtwSetstakeyCmd e) :=
  if_pos h

theorem wpaSetKeys_group (h : p.setTx ≠ 1) (run : Run) :
    wpaSetKeys e p psta run =
      ((copyMics run (.dot118021XGrpKey p.slot) (.dot118021XGrptxmickey p.slot)
        (.dot118021XGrprxmickey p.slot) p.key p.keptLen).set fun s =>
          { s with binstallGrpkey := true, dot118021XGrpKeyid := p.slot }).set fun s =>
          (rtwSetKey e p.slot s).2 :=
  if_neg h

theorem mics_wpa (p : IeeeParam) (paramLen : ℕ) (pl : Place) :
    (Request.wpa p paramLen).mics pl =
      if algOf p.alg = .tkip ∨ p.setTx ≠ 1 then pl.mics else [] := rfl

theorem wpaSetKeys_keys (run : Run) (paramLen : ℕ) :
    (wpaSetKeys e p psta run).st.keys = withKey run.st.keys p.key p.keptLen
      (wpaPlace p psta).field ((Request.wpa p paramLen).mics (wpaPlace p psta)) := by
  rw [mics_wpa, wpaPlace]
  by_cases htx : p.setTx = 1
  · rw [wpaSetKeys_pairwise htx, if_pos htx]
    show (rtwSetstakeyCmd e _).keys = _
    rw [rtwSetstakeyCmd_keys, copied_keys false run rfl rfl rfl rfl rfl]
    simp only [htx, ne_eq, not_true_eq_false, or_false]
    rfl
  · rw [wpaSetKeys_group htx, if_neg htx, if_pos (Or.inr htx)]
    show (rtwSetKey e p.slot _).2.keys = _
    rw [rtwSetKey_keys]
    exact copyMics_keys run (.dot118021XGrpKey p.slot) (.dot118021XGrptxmickey p.slot)
      (.dot118021XGrprxmickey p.slot) p.key p.keptLen rfl rfl rfl rfl rfl

variable (e p psta) in
theorem wpaSetKeys_beside (run : Run) : Beside run.st (wpaSetKeys e p psta run).st := by
  by_cases htx : p.setTx = 1
  · rw [wpaSetKeys_pairwise htx]
    exact Beside.set (copied_beside false run) (Beside.rtwSetstakeyCmd e _)
  · rw [wpaSetKeys_group htx]
    exact Beside.set (Beside.set (Beside.copyMics run ..) ⟨rfl, rfl, rfl, rfl, rfl, rfl⟩)
      (Beside.rtwSetKey e p.slot _)

theorem wpaSetKeys_copies {run : Run} (hslot : p.slot < wepKeys)
    (hroom : p.keyLen.toNat ≤ paramLen - keyOffset) {c : Copy}
    (hc : c ∈ (wpaSetKeys e p psta run).copies) :
    c ∈ run.copies ∨ Inside (.wpa p paramLen) c := by
  by_cases htx : p.setTx = 1
  · rw [wpaSetKeys_pairwise htx, Run.set_copies] at hc
    exact copied_copies (no_slot rfl) (no_slot rfl) (no_slot rfl) rfl rfl rfl hroom hc
  · rw [wpaSetKeys_group htx, Run.set_copies, Run.set_copies] at hc
    exact inside_copyMics (one_slot hslot rfl) (one_slot hslot rfl) (one_slot hslot rfl) rfl rfl
      rfl hroom hc

theorem openPort_sta {alg : Alg} {a b : ℕ} (hne : b ≠ a) : (openPort alg a s).sta b = s.sta b :=
  Function.update_of_ne hne ..

/-- The algorithm that a station gets. -/
theorem openPort_privacy (alg : Alg) (a b : ℕ) (s : State) :
    ((openPort alg a s).sta b).dot118021XPrivacy =
      if b = a ∧ (s.ndisencryptstatus = .encryption2Enabled ∨
        s.ndisencryptstatus = .encryption3Enabled) then s.dot11PrivacyAlgrthm
      else (s.sta b).dot118021XPrivacy := by
  by_cases hb : b = a
  · subst hb
    unfold openPort
    simp only [Function.update_self, true_and]
    split
    · rfl
    · split <;> rfl
  · rw [openPort_sta hb, if_neg fun h => hb h.1]

/-- The settings for a WEP key. -/
def wepModes (keyLength : ℕ) (s : State) : State :=
  { s with ndisencryptstatus := .encryption1Enabled, dot11PrivacyAlgrthm := wepAlgrthm keyLength
           dot118021XGrpPrivacy := wepAlgrthm keyLength }

/-- A default key with its length. -/
def storeDefault (run : Run) (idx len : ℕ) (key : ℕ → UInt8) : Run :=
  (run.memcpy (.dot11DefKey idx) key 0 len).set fun s =>
    { s with dot11DefKeylen := Function.update s.dot11DefKeylen idx len }

theorem wpaSetWep_eq (hslot : p.slot < wepKeys) (hfit : WepFit p.keyLen.toNat)
    (hmalloc : e.mallocOk = true) :
    wpaSetWep e s p =
      if p.setTx ≠ 0 then
        let res := rtwSet80211AddWep e (p.idx.toUInt32 ||| 0x80000000) (wepKeyLen p.keyLen.toNat)
          p.key ⟨wepModes (wepKeyLen p.keyLen.toNat) s, []⟩
        ⟨if res.1 then .success else .eopnotsupp, res.2⟩
      else
        ⟨.success, (storeDefault ⟨wepModes (wepKeyLen p.keyLen.toNat) s, []⟩ p.slot
          (wepKeyLen p.keyLen.toNat) p.key).set fun s => (rtwSetKey e p.slot s).2⟩ := by
  have hpos : p.keyLen ≠ 0 := by
    rintro hzero
    rw [hzero] at hfit
    exact absurd hfit (by decide)
  unfold wpaSetWep
  dsimp only
  rw [if_neg (Nat.not_lt.mpr (Nat.le_of_lt hslot)), if_neg hpos, hmalloc, if_neg (by decide),
    if_neg (Nat.not_le.mpr hslot)]
  obtain hlen | hlen := (wepKeyLen_fit hfit).1
  · rw [hlen]
    rfl
  · rw [hlen]
    rfl

theorem storeDefault_eq (run : Run) (idx len : ℕ) (key : ℕ → UInt8) :
    storeDefault run idx len key =
      { st := { run.st with
          keys := Function.update run.st.keys (.dot11DefKey idx)
            (copyKey (run.st.keys (.dot11DefKey idx)) key len)
          dot11DefKeylen := Function.update run.st.dot11DefKeylen idx len }
        copies := ⟨some (.dot11DefKey idx), 0, len⟩ :: run.copies } := by
  rw [storeDefault, memcpy_zero]
  rfl

theorem wpaSetWep_exact (hroom : keyOffset + p.keyLen.toNat ≤ paramLen) (hslot : p.slot < wepKeys)
    (halg : algOf p.alg = .wep) (hfit : WepFit p.keyLen.toNat) (hmalloc : e.mallocOk = true)
    (htakes : p.setTx ≠ 0 → e.Takes) : Exact e s (.wpa p paramLen) (wpaSetWep e s p) := by
  obtain ⟨hlen, hle⟩ := wepKeyLen_fit hfit
  have hinside : Inside (.wpa p paramLen)
      ⟨some (.dot11DefKey p.slot), 0, wepKeyLen p.keyLen.toNat⟩ :=
    inside_default hslot hlen (Nat.le_trans hle (Nat.le_sub_of_add_le' hroom))
  have hplace : (Request.wpa p paramLen).place e s = some (.default p.slot) := if_pos halg
  rw [wpaSetWep_eq hslot hfit hmalloc]
  by_cases htx : p.setTx = 0
  · rw [if_neg (not_not.mpr htx), storeDefault_eq]
    refine exact_stored _ rfl hplace ?_ (Stored.rtwSetKey ?_ p.slot)
    · intro c hc
      rw [List.mem_singleton.mp hc]
      exact hinside
    · exact stored_default rfl rfl rfl rfl
  · have hidx : ((p.idx.toUInt32 ||| 0x80000000) &&& 0x3fffffff).toNat = p.slot := by
      rw [← UInt32.ofNat_uInt8ToNat]
      exact masked_index hslot
    obtain ⟨hcopies, mask, hst⟩ := addWep_run e (wepKeyLen p.keyLen.toNat) p.key
      ⟨wepModes (wepKeyLen p.keyLen.toNat) s, []⟩ hidx hslot
    have hdone := addWep_takes e (wepKeyLen p.keyLen.toNat) p.key
      ⟨wepModes (wepKeyLen p.keyLen.toNat) s, []⟩ hidx hslot hlen (htakes htx) fun _ => by
        obtain hfive | hthirteen := hlen
        · simp [wepModes, hfive, wepAlgrthm]
        · simp [wepModes, hthirteen, wepAlgrthm]
    rw [if_pos htx]
    refine exact_stored _ (if_pos hdone) hplace ?_ ?_
    · intro c hc
      rw [hcopies] at hc
      rw [List.mem_singleton.mp hc]
      exact hinside
    · rw [hst]
      exact stored_default rfl rfl rfl rfl

/-- Opening the port of the broadcast station changes nothing of a key. -/
theorem Stored.openPort_bcmc {pl : Place} {s' : State}
    (h : Stored e s (.wpa p paramLen) pl s') (hpl : pl = wpaPlace p psta)
    (hstatus : s'.ndisencryptstatus = s.ndisencryptstatus)
    (hprivacy : s'.dot11PrivacyAlgrthm = s.dot11PrivacyAlgrthm) {a : ℕ} (ha : e.bcmc = some a) :
    Stored e s (.wpa p paramLen) pl (openPort (algOf p.alg) a s') where
  key := h.key
  mic := h.mic
  other := h.other
  keylen := h.keylen
  algrthm := by
    have hold := h.algrthm
    rw [hpl] at hold ⊢
    unfold wpaPlace at hold ⊢
    by_cases htx : p.setTx = 1
    · rw [if_pos htx] at hold ⊢
      simp only [Place.algrthm, Request.algrthm] at hold ⊢
      rw [openPort_privacy, hold, openPort_privacy, hstatus, hprivacy]
      split
      case isTrue hboth => rw [if_pos ⟨rfl, hboth.2⟩]
      case isFalse => rfl
    · rw [if_neg htx] at hold ⊢
      exact hold
  sta := by
    intro b hb
    have hne : b ≠ a := by
      rintro rfl
      exact hb (List.mem_append_right _ (by rw [ha]; exact List.mem_singleton_self b))
    rw [openPort_sta hne]
    exact h.sta b hb

/-- The key of the access point. -/
theorem wpaSetKeys_stored (hsta : e.rtwGetStainfo e.bssid = some psta) :
    Stored e s (.wpa p paramLen) (wpaPlace p psta)
      (wpaSetKeys e p psta ⟨openPort (algOf p.alg) psta s, []⟩).st := by
  have hbeside := wpaSetKeys_beside e p psta
    ⟨openPort (algOf p.alg) psta s, []⟩
  have hkept : (Request.wpa p paramLen).kept (wpaPlace p psta) = p.keptLen := by
    unfold wpaPlace
    split <;> rfl
  refine stored_withKey ?_ ?_ ?_ ?_
  · rw [wpaSetKeys_keys _ paramLen, hkept]
    rfl
  · rw [hbeside.keylen]
    unfold wpaPlace
    split <;> rfl
  · unfold wpaPlace
    split
    · show ((wpaSetKeys e p psta _).st.sta psta).dot118021XPrivacy = _
      rw [hbeside.sta]
      rfl
    · exact hbeside.grpPrivacy
  · intro a ha
    have hne : a ≠ psta := by
      rintro rfl
      exact ha (List.mem_append_left _ (by rw [hsta]; exact List.mem_singleton_self a))
    rw [hbeside.sta]
    exact openPort_sta hne

theorem wpa_exact (h : Fit e s (.wpa p paramLen)) :
    Exact e s (.wpa p paramLen) (handle e s (.wpa p paramLen)) := by
  unfold handle wpaSetEncryption
  dsimp only
  by_cases hlen : paramLen < keyOffset + p.keyLen.toNat
  case pos =>
    rw [if_pos hlen]
    exact exact_refused _ (by decide)
  rw [if_neg hlen]
  cases hbc : p.isBroadcast
  case false => exact exact_refused _ (by decide)
  rw [if_neg (by simp)]
  by_cases hslot : wepKeys ≤ p.slot
  case pos =>
    rw [if_pos hslot]
    exact exact_refused _ (by decide)
  rw [if_neg hslot]
  have hroom := Nat.le_of_not_lt hlen
  have hidx := Nat.lt_of_not_le hslot
  by_cases halg : algOf p.alg = .wep
  case pos =>
    obtain ⟨hfit, hmalloc, htakes⟩ := h hroom hbc hidx halg
    rw [if_pos halg]
    exact wpaSetWep_exact hroom hidx halg hfit hmalloc htakes
  rw [if_neg halg]
  by_cases hmode : s.dot11AuthAlgrthm = .ieee8021X ∧ e.stationState = true
  case neg =>
    rw [if_neg hmode]
    refine exact_noPlace _ ?_ rfl rfl fun _ _ => rfl
    rw [Request.place, if_neg halg, if_neg hmode]
  rw [if_pos hmode]
  have hplace : (Request.wpa p paramLen).place e s =
      (e.rtwGetStainfo e.bssid).map (wpaPlace p) := by
    rw [Request.place, if_neg halg, if_pos hmode]
    rfl
  have hmem : ∀ {a b}, e.bcmc = some b → a ∉ (Request.wpa p paramLen).opened e → a ≠ b := by
    rintro a b hb ha rfl
    exact ha (List.mem_append_right _ (by rw [hb]; exact List.mem_singleton_self a))
  cases hsta : e.rtwGetStainfo e.bssid with
  | none =>
    rw [hsta] at hplace
    cases hbcmc : e.bcmc with
    | none => exact exact_noPlace _ hplace rfl rfl fun _ _ => rfl
    | some pbcmc => exact exact_noPlace _ hplace rfl rfl fun _ ha => openPort_sta (hmem hbcmc ha)
  | some psta =>
    rw [hsta] at hplace
    have hstored : Stored e s (.wpa p paramLen) (wpaPlace p psta)
        (wpaSetKeys e p psta ⟨openPort (algOf p.alg) psta s, []⟩).st := wpaSetKeys_stored hsta
    have hbeside := wpaSetKeys_beside e p psta
      ⟨openPort (algOf p.alg) psta s, []⟩
    have hcopies : ∀ c ∈ (wpaSetKeys e p psta ⟨openPort (algOf p.alg) psta s, []⟩).copies,
        Inside (.wpa p paramLen) c := by
      intro c hc
      obtain hold | hinside := wpaSetKeys_copies hidx (Nat.le_sub_of_add_le' hroom) hc
      · exact absurd hold List.not_mem_nil
      · exact hinside
    cases hbcmc : e.bcmc with
    | none => exact exact_stored _ rfl hplace hcopies hstored
    | some pbcmc =>
      exact exact_stored _ rfl hplace hcopies
        (hstored.openPort_bcmc rfl hbeside.status hbeside.privacy hbcmc)

end wpa

/-! ## `rtw_set_encryption` -/

section hostapd

variable {e : Env} {s : State} {p : IeeeParam} {paramLen psta : ℕ} {r : Request}

/-- The copy into a command. -/
theorem inside_command {c : Copy} (hfield : c.field = none) (hfirst : c.first = 0)
    (hlen : c.len ≤ 16) (hroom : c.len ≤ r.room) : Inside r c where
  slot := by
    intro f hf
    rw [hfield] at hf
    exact absurd hf (Option.not_mem_none f)
  len_le := hlen
  inside := by
    intro _
    omega

/-- The copies of a group key. -/
def groupCopied (p : IeeeParam) (run : Run) : Run :=
  if algOf p.alg = .none ∨ algOf p.alg = .other then run
  else copied p (.dot118021XGrpKey p.slot) (.dot118021XGrptxmickey p.slot)
    (.dot118021XGrprxmickey p.slot) true run

theorem groupCopied_beside (run : Run) : Beside run.st (groupCopied p run).st := by
  unfold groupCopied
  split
  · exact ⟨rfl, rfl, rfl, rfl, rfl, rfl⟩
  · exact copied_beside true run

/-- The settings for a group key. -/
def groupSettings (p : IeeeParam) (s : State) : State :=
  { s with dot118021XGrpPrivacy := p.algrthm, dot118021XGrpKeyid := p.slot
           binstallGrpkey := true, dot11PrivacyAlgrthm := p.algrthm }

/-- A group key before the port is opened. -/
def groupSent (e : Env) (p : IeeeParam) (run : Run) : Run :=
  rtwApSetKey e p.algrthm p.slot ((groupCopied p run).set (groupSettings p))

theorem setGroupKey_eq (run : Run) :
    setGroupKey e p run = match e.bcmc with
      | none => groupSent e p run
      | some pbcmc => (groupSent e p run).set fun s =>
          { s with sta := Function.update s.sta pbcmc ⟨false, p.algrthm⟩ } := by
  unfold setGroupKey groupSent groupCopied copied
  cases algOf p.alg <;> rfl

theorem groupSent_copies {run : Run} {c : Copy} (hc : c ∈ (groupSent e p run).copies) :
    c ∈ (groupCopied p run).copies ∨ c.field = none ∧ c.first = 0 ∧ c.len ≤ 16 := by
  obtain hold | ⟨hfield, hfirst, hlen, -⟩ := rtwApSetKey_copies e p.algrthm p.slot _ hc
  · exact Or.inl hold
  · exact Or.inr ⟨hfield, hfirst, hlen⟩

theorem setGroupKey_copies {run : Run} :
    (setGroupKey e p run).copies = (groupSent e p run).copies := by
  rw [setGroupKey_eq]
  split <;> rfl

/-- A group key beside its copies. -/
theorem setGroupKey_frame (run : Run) :
    (setGroupKey e p run).st.keys = (groupCopied p run).st.keys ∧
      (setGroupKey e p run).st.dot11DefKeylen = run.st.dot11DefKeylen ∧
      (setGroupKey e p run).st.dot118021XGrpPrivacy = p.algrthm ∧
      ∀ a ∉ e.bcmc.toList, (setGroupKey e p run).st.sta a = run.st.sta a := by
  have hbeside := groupCopied_beside (p := p) run
  obtain ⟨mask, hmask⟩ :=
    rtwApSetKey_state e p.algrthm p.slot ((groupCopied p run).set (groupSettings p))
  have hsent : (groupSent e p run).st =
      { groupSettings p (groupCopied p run).st with keyMask := mask } := hmask
  rw [setGroupKey_eq]
  cases hbcmc : e.bcmc with
  | none =>
    dsimp only
    rw [hsent]
    refine ⟨rfl, hbeside.keylen, rfl, fun a _ => ?_⟩
    exact congrFun hbeside.sta a
  | some pbcmc =>
    dsimp only [Run.set]
    rw [hsent]
    refine ⟨rfl, hbeside.keylen, rfl, fun a ha => ?_⟩
    have hne : a ≠ pbcmc := fun h => ha (List.mem_singleton.mpr h)
    exact (Function.update_of_ne hne ..).trans (congrFun hbeside.sta a)

/-- A group key, with or without a station's address. -/
theorem setGroupKey_exact (hroom : paramLen = sizeofIeeeParam + p.keyLen.toNat)
    (hopened : e.bcmc.toList = (Request.hostapd p paramLen).opened e)
    (hslot : (Request.hostapd p paramLen).place e s = some (.group p.slot) → p.slot < wepKeys)
    (hplace : (Request.hostapd p paramLen).place e s =
      if algOf p.alg = .none ∨ algOf p.alg = .other then none else some (.group p.slot)) :
    Exact e s (.hostapd p paramLen) ⟨.success, setGroupKey e p ⟨s, []⟩⟩ := by
  obtain ⟨hkeys, hkeylen, hgrp, hsta⟩ := setGroupKey_frame (e := e) (p := p) ⟨s, []⟩
  rw [hopened] at hsta
  have hsizes : sizeofIeeeParam = 64 ∧ keyOffset = 48 := ⟨rfl, rfl⟩
  have hkey : p.keyLen.toNat ≤ (Request.hostapd p paramLen).room := by
    show _ ≤ paramLen - keyOffset
    omega
  have hcopies : (∀ c ∈ (groupCopied p ⟨s, []⟩).copies, Inside (.hostapd p paramLen) c) →
      ∀ c ∈ (setGroupKey e p ⟨s, []⟩).copies, Inside (.hostapd p paramLen) c := by
    intro hcopied c hc
    rw [setGroupKey_copies] at hc
    obtain hold | ⟨hfield, hfirst, hlen⟩ := groupSent_copies hc
    · exact hcopied c hold
    · refine inside_command hfield hfirst hlen ?_
      show c.len ≤ paramLen - keyOffset
      omega
  unfold groupCopied at hkeys hcopies
  by_cases halg : algOf p.alg = .none ∨ algOf p.alg = .other
  · rw [if_pos halg] at hplace hkeys hcopies
    exact exact_nothing _ rfl hplace (hcopies fun _ hc => absurd hc List.not_mem_nil) hkeys
      hkeylen hsta
  · rw [if_neg halg] at hplace hkeys hcopies
    have hidx := hslot hplace
    rw [copied_keys true _ rfl rfl rfl rfl rfl] at hkeys
    refine exact_stored _ rfl hplace (hcopies fun c hc => ?_)
      (stored_withKey hkeys hkeylen hgrp hsta)
    obtain hnil | hinside := copied_copies (one_slot hidx rfl) (one_slot hidx rfl)
      (one_slot hidx rfl) rfl rfl rfl hkey hc
    · exact absurd hnil List.not_mem_nil
    · exact hinside

/-- A pairwise key. -/
theorem setPairwiseKey_exact (hroom : paramLen = sizeofIeeeParam + p.keyLen.toNat)
    (hopened : psta ∈ (Request.hostapd p paramLen).opened e)
    (hplace : (Request.hostapd p paramLen).place e s = some (.pairwise psta)) :
    Exact e s (.hostapd p paramLen) ⟨.success, setPairwiseKey p psta ⟨s, []⟩⟩ := by
  have hsizes : sizeofIeeeParam = 64 ∧ keyOffset = 48 := ⟨rfl, rfl⟩
  have hkey : p.keyLen.toNat ≤ (Request.hostapd p paramLen).room := by
    show _ ≤ paramLen - keyOffset
    omega
  have hrun : setPairwiseKey p psta ⟨s, []⟩ =
      (copied p (.dot118021xUncstKey psta) (.dot11tkiptxmickey psta) (.dot11tkiprxmickey psta)
        true ⟨s, []⟩).set fun s =>
          { s with sta := Function.update s.sta psta ⟨false, p.algrthm⟩ } := rfl
  rw [hrun]
  refine exact_stored _ rfl hplace ?_ (stored_withKey ?_ ?_ ?_ ?_)
  · intro c hc
    rw [Run.set_copies] at hc
    obtain hnil | hinside :=
      copied_copies (no_slot rfl) (no_slot rfl) (no_slot rfl) rfl rfl rfl hkey hc
    · exact absurd hnil List.not_mem_nil
    · exact hinside
  · exact copied_keys true _ rfl rfl rfl rfl rfl
  · exact (copied_beside true _).keylen
  · show (Function.update (copied p _ _ _ true ⟨s, []⟩).st.sta psta
      ⟨false, p.algrthm⟩ psta).dot118021XPrivacy = p.algrthm
    rw [Function.update_self]
  · intro a ha
    have hne : a ≠ psta := by
      rintro rfl
      exact ha hopened
    exact (Function.update_of_ne hne ..).trans (congrFun (copied_beside true _).sta a)

/-- A WEP key for everybody. -/
theorem setWepKey_exact (hroom : paramLen = sizeofIeeeParam + p.keyLen.toNat)
    (hslot : p.slot < wepKeys)
    (hplace : (Request.hostapd p paramLen).place e s = some (.default p.slot))
    (hfit : p.keyLen ≠ 0 → WepFit p.keyLen.toNat ∧ e.mallocOk = true) :
    Exact e s (.hostapd p paramLen) (setWepKey e s p) := by
  have hsizes : sizeofIeeeParam = 64 ∧ keyOffset = 48 := ⟨rfl, rfl⟩
  unfold setWepKey
  by_cases hzero : p.keyLen = 0
  · rw [if_pos (Or.inr hzero)]
    exact exact_refused _ (by decide)
  obtain ⟨hwep, hmalloc⟩ := hfit hzero
  obtain ⟨hlen, hle⟩ := wepKeyLen_fit hwep
  have hkey : wepKeyLen p.keyLen.toNat ≤ paramLen - keyOffset := by omega
  rw [if_neg (by simp only [Nat.not_le.mpr hslot, hzero, or_self, not_false_eq_true]), hmalloc,
    if_neg (by decide)]
  have hinside : Inside (.hostapd p paramLen)
      ⟨some (.dot11DefKey p.slot), 0, wepKeyLen p.keyLen.toNat⟩ :=
    inside_default hslot hlen hkey
  have hcopies : ∀ run : Run, run.copies = [] → ∀ c ∈ (rtwApSetKey e
      (wepAlgrthm (wepKeyLen p.keyLen.toNat)) p.slot (storeDefault run p.slot
        (wepKeyLen p.keyLen.toNat) p.key)).copies, Inside (.hostapd p paramLen) c := by
    intro run hrun c hc
    obtain hold | ⟨hfield, hfirst, hmax, hsame⟩ := rtwApSetKey_copies e _ p.slot _ hc
    · rw [storeDefault_eq, hrun] at hold
      rw [List.mem_singleton.mp hold]
      exact hinside
    · refine inside_command hfield hfirst hmax ?_
      rw [hsame _ rfl hlen]
      exact hkey
  have hst := fun run : Run => rtwApSetKey_state e (wepAlgrthm (wepKeyLen p.keyLen.toNat)) p.slot
    (storeDefault run p.slot (wepKeyLen p.keyLen.toNat) p.key)
  by_cases htx : p.setTx = 0
  · have halg : (Request.hostapd p paramLen).algrthm s (.default p.slot) =
        s.dot11PrivacyAlgrthm := if_pos htx
    dsimp only
    rw [if_neg (not_not.mpr htx)]
    obtain ⟨mask, hmask⟩ := hst ⟨s, []⟩
    refine exact_stored _ rfl hplace (hcopies ⟨s, []⟩ rfl) ?_
    show Stored _ _ _ _ (rtwApSetKey e _ p.slot (storeDefault ⟨s, []⟩ p.slot _ p.key)).st
    rw [hmask, storeDefault_eq]
    refine Stored.mask ?_ mask
    exact stored_default rfl rfl halg.symm rfl
  · have halg : (Request.hostapd p paramLen).algrthm s (.default p.slot) =
        wepAlgrthm (wepKeyLen p.keyLen.toNat) := if_neg htx
    dsimp only
    rw [if_pos htx]
    obtain ⟨mask, hmask⟩ := hst (Run.set ⟨s, []⟩ fun s =>
        { s with dot11AuthAlgrthm := .auto, ndisencryptstatus := .encryption1Enabled
                 dot11PrivacyAlgrthm := wepAlgrthm (wepKeyLen p.keyLen.toNat)
                 dot118021XGrpPrivacy := wepAlgrthm (wepKeyLen p.keyLen.toNat)
                 dot11PrivacyKeyIndex := p.slot })
    refine exact_stored _ rfl hplace (hcopies (Run.set ⟨s, []⟩ _) rfl) ?_
    show Stored _ _ _ _ (rtwApSetKey e _ p.slot (storeDefault (Run.set ⟨s, []⟩ _) p.slot _ p.key)).st
    rw [hmask, storeDefault_eq]
    refine Stored.mask ?_ mask
    exact stored_default rfl rfl halg.symm rfl

theorem hostapd_exact (h : Fit e s (.hostapd p paramLen)) :
    Exact e s (.hostapd p paramLen) (handle e s (.hostapd p paramLen)) := by
  unfold handle rtwSetEncryption
  dsimp only
  by_cases hlen : paramLen = sizeofIeeeParam + p.keyLen.toNat
  case neg =>
    rw [if_pos hlen]
    exact exact_refused _ (by decide)
  rw [if_neg (not_not.mpr hlen)]
  obtain ⟨hwep, hgroup⟩ := h hlen
  cases hbc : p.isBroadcast
  case true =>
    rw [if_pos rfl]
    by_cases hslot : wepKeys ≤ p.slot
    case pos =>
      rw [if_pos hslot]
      exact exact_refused _ (by decide)
    rw [if_neg hslot]
    have hidx := Nat.lt_of_not_le hslot
    have hopened : (Request.hostapd p paramLen).opened e = e.bcmc.toList := by
      simp only [Request.opened, hbc]
      rfl
    have hgroupKey : ∀ halg : algOf p.alg = .tkip ∨ algOf p.alg = .ccmp ∨ algOf p.alg = .other,
        Exact e s (.hostapd p paramLen)
          ⟨.success, if e.apState ∧ p.setTx = 1 then setGroupKey e p ⟨s, []⟩ else ⟨s, []⟩⟩ := by
      intro halg
      by_cases hmode : e.apState = true ∧ p.setTx = 1
      · rw [if_pos hmode]
        refine setGroupKey_exact hlen hopened.symm (fun _ => hidx) ?_
        obtain halg | halg | halg := halg <;>
          simp [Request.place, hbc, halg, hmode]
      · rw [if_neg hmode]
        refine exact_noPlace _ ?_ rfl rfl fun _ _ => rfl
        obtain halg | halg | halg := halg <;>
          simp [Request.place, hbc, halg, hmode]
    cases halg : algOf p.alg with
    | none =>
      refine exact_noPlace _ ?_ rfl rfl fun _ _ => rfl
      simp [Request.place, hbc, halg]
    | wep =>
      refine setWepKey_exact hlen hidx ?_ (hwep hbc hidx halg)
      simp [Request.place, hbc, halg]
    | tkip => exact hgroupKey (Or.inl halg)
    | ccmp => exact hgroupKey (Or.inr (Or.inl halg))
    | other => exact hgroupKey (Or.inr (Or.inr halg))
  case false =>
    rw [if_neg Bool.false_ne_true]
    cases hsta : e.rtwGetStainfo p.staAddr with
    | none =>
      refine exact_noPlace _ ?_ rfl rfl fun _ _ => rfl
      simp [Request.place, hbc, hsta]
    | some psta =>
      dsimp only
      by_cases hmode : s.dot11AuthAlgrthm = .ieee8021X ∧ e.apState = true
      case neg =>
        rw [if_neg hmode]
        refine exact_noPlace _ ?_ rfl rfl fun _ _ => rfl
        rw [Request.place, hbc, if_neg Bool.false_ne_true, if_neg hmode]
      rw [if_pos hmode]
      have hplace : (Request.hostapd p paramLen).place e s =
          if p.setTx = 1 then some (.pairwise psta)
          else if algOf p.alg = .none ∨ algOf p.alg = .other then none
          else some (.group p.slot) := by
        rw [Request.place, hbc, if_neg Bool.false_ne_true, if_pos hmode, hsta]
        cases algOf p.alg <;> rfl
      by_cases htx : p.setTx = 1
      · rw [if_pos htx] at hplace ⊢
        refine setPairwiseKey_exact hlen ?_ hplace
        simp [Request.opened, hbc, htx, hsta]
      · rw [if_neg htx] at hplace ⊢
        refine setGroupKey_exact hlen ?_ (hgroup hbc p.slot) hplace
        simp [Request.opened, htx]

end hostapd

/-! ## Every request -/

/-- What a request leaves behind. -/
theorem key_request_exact (e : Env) (s : State) (r : Request) (h : Fit e s r) :
    Exact e s r (handle e s r) := by
  cases r with
  | wpa p paramLen => exact wpa_exact h
  | hostapd p paramLen => exact hostapd_exact h
  | wext flags length keybuf => exact wext_exact h
  | addWep keyIndex keyLength keyMaterial => exact addWep_exact e keyLength keyMaterial s h

/-- A station with the access point 1 and the broadcast station 0, whose ports are closed. -/
def closedState : State :=
  { dot11AuthAlgrthm := .ieee8021X, dot11PrivacyAlgrthm := .aes, dot11PrivacyKeyIndex := 0
    dot11DefKeylen := fun _ => 0, dot118021XGrpPrivacy := .aes, dot118021XGrpKeyid := 0
    binstallGrpkey := false, busetkipkey := false, ndisauthtype := .wpaPsk
    ndisencryptstatus := .encryption3Enabled, keys := fun _ => Vector.replicate 16 0
    sta := fun _ => ⟨true, .noPrivacy⟩, keyMask := 0 }

def station : Env :=
  { stationState := true, apState := false, lookup := fun _ => some 1, bcmc := some 0
    bssid := Vector.replicate 6 2, rfOn := true, mallocOk := true, allocOk := true
    enqueueOk := true }

/-- A key for everybody with the index 2. -/
def broadcastKey (alg : List UInt8) (keyLen : UInt16) : IeeeParam :=
  { staAddr := Vector.replicate 6 0xff, alg, setTx := 1, idx := 2, keyLen
    key := fun k => UInt8.ofNat (k + 1) }

/-- "WEP" and "CCMP". -/
def wepName : List UInt8 := [0x57, 0x45, 0x50, 0]
def ccmpName : List UInt8 := [0x43, 0x43, 0x4d, 0x50, 0]

theorem key_request_exact_wep :
    (handle station closedState (.wpa (broadcastKey wepName 5) 64)).ret = .success ∧
      (Request.wpa (broadcastKey wepName 5) 64).place station closedState = some (.default 2) ∧
      Exact station closedState (.wpa (broadcastKey wepName 5) 64)
        (handle station closedState (.wpa (broadcastKey wepName 5) 64)) :=
  ⟨by decide, by decide, key_request_exact _ _ _ fun _ _ _ _ =>
    ⟨Or.inl rfl, rfl, fun _ => ⟨rfl, rfl⟩⟩⟩

/-- With the pairwise key of the access point the port of the broadcast station is opened too. -/
theorem pairwise_opens_broadcast :
    (handle station closedState (.wpa (broadcastKey ccmpName 16) 64)).ret = .success ∧
      (Request.wpa (broadcastKey ccmpName 16) 64).place station closedState =
        some (.pairwise 1) ∧
      (handle station closedState (.wpa (broadcastKey ccmpName 16) 64)).run.st.sta 0 =
        ⟨false, .aes⟩ ∧
      closedState.sta 0 = ⟨true, .noPrivacy⟩ := by
  decide

end Rtl8821au.Security.KeyRequest
