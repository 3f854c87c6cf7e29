import Rtl8821au.Recv.Decrypt
import Rtl8821au.Sta.Depart

/-!
# What an authentication rests on

`OnAuth` (`rtw_mlme_ext.c`, lines 831–1056) sets `WIFI_FW_AUTH_SUCCESS` after an
open-system frame, or after a third frame that repeats the challenge text. Of the third
frame it compares 128 bytes behind an element header: that the frame was encrypted, that
its ICV is right and that the element is as long as that it does not ask.

The run of the access point is watched: what `issue_auth` (lines 3029–3168) sends is kept
beside the station table. A frame buffer for the answer may be missing, so each event
carries the outcome of `alloc_mgtxmitframe`, and the settings that are in force.

Results:
* `onAuth_answered`, `apStep_inherits`: which events make a record trusted.
* `WatchInv.step`: what the table holds is explained by the history.
* `authenticated_of_run`: every trusted record was authenticated since it was created, in a
  run that meets `AuthOk`.
-/

namespace Rtl8821au.Sta

open Recv Places Run
open Security (rtwWepDecrypt frameOf)

/-! ## Model of the C code -/

/-- The station and its record when `OnAuth` answers with success (lines 1035–1037). -/
def authAnswer (priv : RtlPriv) (cfg : ApConfig) (s : StaPriv) (f : RecvFrame) :
    Option (ℕ × StaInfo) :=
  if authAllowed priv cfg f then
    match authRecord s (getAddr2 f) with
    | (_, none) => none
    | (s, some pstat) =>
      (authExchange (effectiveAuthMode priv) (parseAuth priv f)
        ((s.listAuth pstat).sta pstat)).map (pstat, ·)
  else none

/-- `issue_auth` adds the challenge text to the answer (lines 3075–3102). The number of the
    algorithm is in the record since the first frame. -/
def issuesChallenge (a : AuthFrame) (pstat : StaInfo) : Bool :=
  a.seq + 1 == 2 && pstat.state.authState && a.algorithm != 0

/-- `chg_txt` (line 992). -/
def challengeText : Bytes := List.replicate 128 78

/-- An event, the settings in force, and whether `alloc_mgtxmitframe` finds a frame. -/
structure ApInput where
  priv : RtlPriv
  cfg : ApConfig
  mgtFrame : Bool := true
  event : ApEvent

/-- The stations, and those whose last first frame was answered with the challenge text. -/
structure ApWatch where
  sta : StaPriv
  challenged : ℕ → Bool := fun _ => false

/-- The challenge that an event sends. -/
def challengedBy (w : ApWatch) (i : ApInput) : ℕ → Bool :=
  match i.event with
  | .auth f =>
    let a := parseAuth i.priv f
    match authAnswer i.priv i.cfg w.sta f with
    | some (pstat, info) =>
      if a.seq = 1 then
        Function.update w.challenged pstat (i.mgtFrame && issuesChallenge a info)
      else w.challenged
    | none => w.challenged
  | _ => w.challenged

def watchStep (w : ApWatch) (i : ApInput) : ApWatch :=
  { sta := apStep i.priv i.cfg w.sta i.event, challenged := challengedBy w i }

def watchInit : ApWatch := { sta := rtwInitAp }

/-! ## The property -/

/-- The frame as `OnAuth` reads it (lines 858–874). -/
def decryptedAuth (priv : RtlPriv) (f : RecvFrame) : RecvFrame :=
  if getPrivacy f then
    rtwWepDecrypt priv (f.setAttrib { f.attrib with
      hdrlen := 24, encrypt := .wep40, keyIndex := (f.byteAt (24 + 3)).toNat / 64
      ivLen := 4, icvLen := 4 })
  else f

/-- The mode lets open system in, and the frame is its first. -/
def OpenAuth (priv : RtlPriv) (f : RecvFrame) : Prop :=
  (parseAuth priv f).algorithm = 0 ∧ (parseAuth priv f).seq = 1 ∧
    (effectiveAuthMode priv = 0 ∨ effectiveAuthMode priv = 2 ∨ effectiveAuthMode priv = 3)

/-- The frame holds an element with the text, in front of the ICV. -/
def CarriesChallenge (f : RecvFrame) (text : Bytes) : Prop :=
  ∃ p ieLen, rtwGetIe f 16 (f.len - 24 - 6 - 4) (f.len - 24 - 6 - 4) (24 + 4 + 6) 0 =
      some (p, ieLen) ∧
    128 ≤ ieLen ∧ p + 2 + ieLen + 4 ≤ f.len ∧ f.bytesAt (p + 2) 128 = text

/-- The third frame of shared key: encrypted with the default key, unharmed, with the whole
    challenge text. -/
structure SharedAuth (priv : RtlPriv) (f : RecvFrame) : Prop where
  algorithm : (parseAuth priv f).algorithm = 1
  seq : (parseAuth priv f).seq = 3
  privacy : getPrivacy f = true
  icv : IcvRight (decryptedAuth priv f)
  challenge : CarriesChallenge (decryptedAuth priv f) challengeText

section history

variable (r : List ApInput)

/-- The access point after `n` events. -/
def watchAt (n : ℕ) : ApWatch := run watchStep watchInit (r.take n)

/-- The record is in the table from `m` to `n`, so that it was created before `m`. -/
def Kept (x m n : ℕ) : Prop := ∀ k, m ≤ k → k ≤ n → Placed (watchAt r k).sta.staHash x

/-- Event `j` is a first frame of the station, answered with the challenge text. -/
def ChallengeSent (j x : ℕ) : Prop :=
  ∃ i f info, r[j]? = some i ∧ i.event = .auth f ∧ i.mgtFrame = true ∧
    authAnswer i.priv i.cfg (watchAt r j).sta f = some (x, info) ∧
      issuesChallenge (parseAuth i.priv f) info = true

/-- Event `m` is a frame from address `a` that authenticates the record `x`. -/
def Authenticates (m x : ℕ) (a : MacAddr) : Prop :=
  ∃ i f, r[m]? = some i ∧ i.event = .auth f ∧ getAddr2 f = a ∧ i.cfg.accessCtrl a = true ∧
    (OpenAuth i.priv f ∨
      SharedAuth i.priv f ∧ ∃ j < m, ChallengeSent r j x ∧ Kept r x (j + 1) m)

/-- The record was authenticated since it was created. -/
def Authenticated (n x : ℕ) : Prop :=
  ∃ m < n, Kept r x (m + 1) n ∧ Authenticates r m x ((watchAt r n).sta.sta x).hwaddr

end history

/-! ## The condition -/

/-- The frame goes on with shared key. -/
def SharedBranch (priv : RtlPriv) (f : RecvFrame) : Prop :=
  ¬((parseAuth priv f).algorithm = 0 ∧
    (effectiveAuthMode priv = 0 ∨ effectiveAuthMode priv = 2 ∨ effectiveAuthMode priv = 3))

/-- What the compare of the third frame leaves out. -/
structure ThirdOk (w : ApWatch) (i : ApInput) (f : RecvFrame) (x : ℕ) : Prop where
  sender : isMulticast (getAddr2 f) = false
  challenged : w.challenged x = true
  algorithm : (parseAuth i.priv f).algorithm = 1
  privacy : getPrivacy f = true
  icv : IcvRight (decryptedAuth i.priv f)
  element : ∀ p ieLen, rtwGetIe (decryptedAuth i.priv f) 16
      ((decryptedAuth i.priv f).len - 24 - 6 - 4) ((decryptedAuth i.priv f).len - 24 - 6 - 4)
      (24 + 4 + 6) 0 = some (p, ieLen) →
    128 ≤ ieLen ∧ p + 2 + ieLen + 4 ≤ (decryptedAuth i.priv f).len

/-- The condition on an event: a frame that opens is not from a group address, and a third
    frame whose 128 bytes agree is what the compare takes it for. -/
def AuthOk (w : ApWatch) (i : ApInput) : Prop :=
  ∀ f, i.event = .auth f → authAllowed i.priv i.cfg f = true →
    (OpenAuth i.priv f → isMulticast (getAddr2 f) = false) ∧
      ∀ x, w.sta.rtwGetStainfo (getAddr2 f) = some x → (w.sta.sta x).authSeq = 2 →
        (parseAuth i.priv f).seq = 3 → SharedBranch i.priv f →
          (parseAuth i.priv f).challenge = some (w.sta.sta x).chgTxt → ThirdOk w i f x

/-! ## One frame -/

theorem parseAuth_challenge {priv : RtlPriv} {f : RecvFrame} {text : Bytes}
    (h : (parseAuth priv f).challenge = some text) :
    ∃ p ieLen, rtwGetIe (decryptedAuth priv f) 16 ((decryptedAuth priv f).len - 24 - 6 - 4)
        ((decryptedAuth priv f).len - 24 - 6 - 4) (24 + 4 + 6) 0 = some (p, ieLen) ∧
      (decryptedAuth priv f).bytesAt (p + 2) 128 = text := by
  cases hfound : rtwGetIe (decryptedAuth priv f) 16 ((decryptedAuth priv f).len - 24 - 6 - 4)
      ((decryptedAuth priv f).len - 24 - 6 - 4) (24 + 4 + 6) 0 with
  | none =>
    unfold parseAuth at h
    unfold decryptedAuth at hfound
    cases hpriv : getPrivacy f <;>
    · simp only [hpriv, if_true, Bool.false_eq_true, if_false] at h hfound
      rw [hfound] at h
      cases h
  | some e =>
    unfold parseAuth at h
    unfold decryptedAuth at hfound ⊢
    cases hpriv : getPrivacy f <;>
    · simp only [hpriv, if_true, Bool.false_eq_true, if_false] at h hfound ⊢
      rw [hfound] at h
      dsimp only at h
      split_ifs at h
      exact ⟨e.1, e.2, rfl, Option.some.inj h⟩

/-- The three ways to get through the exchange. -/
theorem authExchange_cases {priv : RtlPriv} {f : RecvFrame} {i j : StaInfo}
    (h : authExchange (effectiveAuthMode priv) (parseAuth priv f) i = some j) :
    j.hwaddr = i.hwaddr ∧
    ((OpenAuth priv f ∧ i.authSeq = 0 ∧ j.authSeq = 0 ∧ j.chgTxt = i.chgTxt) ∨
      (SharedBranch priv f ∧ (parseAuth priv f).seq = 1 ∧ i.authSeq = 0 ∧
        j.chgTxt = challengeText ∧ j.state.authState = true ∧
        j.state.authSuccess = i.state.authSuccess ∧
        j.state.assocSuccess = i.state.assocSuccess) ∨
      (SharedBranch priv f ∧ (parseAuth priv f).seq = 3 ∧ i.authSeq = 2 ∧ j.authSeq = 0 ∧
        (parseAuth priv f).challenge = some i.chgTxt)) := by
  have haddr := (authExchange_keeps h).1
  refine ⟨haddr, ?_⟩
  unfold authExchange at h
  dsimp only at h
  -- the timer does not matter
  obtain ⟨p, hp, hseq, htxt, hstate⟩ : ∃ p : StaInfo,
      (if i.authSeq = 0 then { i with expireTo := authTo } else i) = p ∧
        p.authSeq = i.authSeq ∧ p.chgTxt = i.chgTxt ∧ p.state = i.state := by
    refine ⟨_, rfl, ?_, ?_, ?_⟩ <;> split_ifs <;> rfl
  rw [hp, hseq] at h
  obtain ⟨k, hk, rfl⟩ := Option.map_eq_some_iff.mp h
  by_cases hout : i.authSeq + 1 ≠ (parseAuth priv f).seq
  · rw [if_pos hout] at hk
    cases hk
  rw [if_neg hout] at hk
  rw [not_not] at hout
  by_cases hopen : (parseAuth priv f).algorithm = 0 ∧
      (effectiveAuthMode priv = 0 ∨ effectiveAuthMode priv = 2 ∨ effectiveAuthMode priv = 3)
  · rw [if_pos hopen] at hk
    split_ifs at hk with h1
    obtain rfl := Option.some.inj hk
    exact .inl ⟨⟨hopen.1, h1, hopen.2⟩, by omega, rfl, htxt⟩
  rw [if_neg hopen] at hk
  by_cases h1 : (parseAuth priv f).seq = 1
  · rw [if_pos h1] at hk
    obtain rfl := Option.some.inj hk
    exact .inr (.inl ⟨hopen, h1, by omega, rfl, rfl, by simp [hstate], by simp [hstate]⟩)
  rw [if_neg h1] at hk
  split_ifs at hk with h3 hchallenge
  obtain rfl := Option.some.inj hk
  exact .inr (.inr ⟨hopen, h3, by omega, rfl, htxt ▸ hchallenge⟩)

/-! ## One event -/

/-- The record can become associated. -/
def Trusted (s : StaPriv) (x : ℕ) : Prop :=
  (s.sta x).state.authSuccess = true ∨ (s.sta x).state.assocSuccess = true ∨ x ∈ s.asocList

/-- A record of the table after an operation was there before, with the same exchange; if it
    is trusted it was trusted before, or `P`. -/
def Inherits (P : Prop) (s s' : StaPriv) (x : ℕ) : Prop :=
  Placed s'.staHash x → Placed s.staHash x ∧ (Trusted s' x → P ∨ Trusted s x) ∧
    (s'.sta x).authSeq = (s.sta x).authSeq ∧ (s'.sta x).chgTxt = (s.sta x).chgTxt ∧
    (s'.sta x).hwaddr = (s.sta x).hwaddr

section inherits

variable {P : Prop} {s s' s'' : StaPriv} {x y : ℕ}

theorem Inherits.refl : Inherits P s s x := fun hp => ⟨hp, .inr, rfl, rfl, rfl⟩

theorem Inherits.trans (h : Inherits P s s' x) (h' : Inherits P s' s'' x) :
    Inherits P s s'' x := by
  intro hp
  obtain ⟨hp', htrust', hseq', htxt', haddr'⟩ := h' hp
  obtain ⟨hp0, htrust, hseq, htxt, haddr⟩ := h hp'
  exact ⟨hp0, fun ht => (htrust' ht).elim .inl htrust, hseq'.trans hseq, htxt'.trans htxt,
    haddr'.trans haddr⟩

/-- The record is the same. -/
theorem Inherits.of_sta (hplaced : Placed s'.staHash x → Placed s.staHash x)
    (hsta : s'.sta x = s.sta x)
    (hasoc : x ∈ s'.asocList → P ∨ x ∈ s.asocList) : Inherits P s s' x := by
  intro hp
  refine ⟨hplaced hp, ?_, by rw [hsta], by rw [hsta], by rw [hsta]⟩
  rintro (hauth | hassoc | hmem)
  · exact .inr (.inl (hsta ▸ hauth))
  · exact .inr (.inr (.inl (hsta ▸ hassoc)))
  · exact (hasoc hmem).imp_right fun hmem => .inr (.inr hmem)

/-- A change of a record that keeps the exchange. -/
theorem Inherits.setSta (f : StaInfo → StaInfo)
    (hkeep : (f (s.sta y)).authSeq = (s.sta y).authSeq ∧
      (f (s.sta y)).chgTxt = (s.sta y).chgTxt ∧ (f (s.sta y)).hwaddr = (s.sta y).hwaddr)
    (htrust : x = y → ((f (s.sta y)).state.authSuccess = true ∨
      (f (s.sta y)).state.assocSuccess = true) →
        P ∨ (s.sta y).state.authSuccess = true ∨ (s.sta y).state.assocSuccess = true) :
    Inherits P s (s.setSta y f) x := by
  by_cases hxy : x = y
  · subst hxy
    intro hp
    unfold Trusted
    rw [StaPriv.setSta_self]
    refine ⟨hp, ?_, hkeep⟩
    rintro (hauth | hassoc | hmem)
    · exact (htrust rfl (.inl hauth)).imp_right fun h => h.imp_right .inl
    · exact (htrust rfl (.inr hassoc)).imp_right fun h => h.imp_right .inl
    · exact .inr (.inr (.inr hmem))
  · exact .of_sta id (StaPriv.setSta_of_ne s y f hxy) .inr

theorem Inherits.unlistAuth : Inherits P s (s.unlistAuth y) x := by
  rw [StaPriv.unlistAuth_eq]
  exact .of_sta id rfl .inr

theorem Inherits.listAuth : Inherits P s (s.listAuth y) x := by
  unfold StaPriv.listAuth
  split_ifs
  · exact .refl
  · exact .of_sta id rfl .inr

theorem Inherits.unlistAsoc : Inherits P s (s.unlistAsoc y) x := by
  unfold StaPriv.unlistAsoc
  split_ifs
  · exact .of_sta id rfl fun hmem => .inr (List.mem_of_mem_erase hmem)
  · exact .refl

theorem Inherits.listAsoc (hP : x = y → P) : Inherits P s (s.listAsoc y) x := by
  unfold StaPriv.listAsoc
  split_ifs
  · exact .refl
  · refine .of_sta id rfl fun hmem => ?_
    rcases List.mem_append.mp hmem with hmem | hmem
    · exact .inr hmem
    · exact .inl (hP (List.mem_singleton.mp hmem))

theorem Inherits.free (hhash : Exclusive s.staHash) :
    Inherits P s (s.rtwFreeStainfo (some y)) x := by
  intro hp
  have r := s.rtwFreeStainfo_released y
  have hp' := hp
  rw [r.staHash, placed_del hhash] at hp'
  exact Inherits.of_sta (fun _ => hp'.2) (r.sta x hp'.1) (fun hmem => .inr (r.asocList ▸ hmem)) hp

/-! ### The handlers -/

variable {priv : RtlPriv} {cfg : ApConfig} {f : RecvFrame}

/-- A change of the record of the station that the handler works on. -/
theorem Inherits.setOwn (g : StaInfo → StaInfo) (hseq : (g (s.sta y)).authSeq = (s.sta y).authSeq)
    (htxt : (g (s.sta y)).chgTxt = (s.sta y).chgTxt)
    (haddr : (g (s.sta y)).hwaddr = (s.sta y).hwaddr) : Inherits (x = y) s (s.setSta y g) x :=
  .setSta g ⟨hseq, htxt, haddr⟩ fun hx _ => .inl hx

theorem Inherits.assignAid (h : s.assignAid y = some s') : Inherits (x = y) s s' x := by
  unfold StaPriv.assignAid at h
  split_ifs at h
  · obtain rfl := Option.some.inj h
    exact .refl
  · obtain rfl := Option.some.inj h
    have hentry : Inherits (x = y) s
        { s with staAid := Function.update s.staAid (s.firstAid - 1) (some y) } x :=
      .of_sta id rfl .inr
    exact hentry.trans (.setOwn _ rfl rfl rfl)

theorem Inherits.assocAccept {e : AssocElems} :
    Inherits (x = y) s (assocAccept priv e s y) x := by
  let t := (s.setSta y fun i =>
    { i with state := { i.state with assocState := false, assocSuccess := true } }).unlistAuth y
  have ht : Inherits (x = y) s t x := Inherits.trans (.setOwn _ rfl rfl rfl) .unlistAuth
  let u := if y ∈ t.asocList then t else t.setSta y fun i => { i with expireTo := expireTo }
  have hu : Inherits (x = y) t u x := by
    show Inherits (x = y) t (if _ then _ else _) x
    split_ifs
    · exact .refl
    · exact .setOwn _ rfl rfl rfl
  have hv : Inherits (x = y) u (u.listAsoc y) x := .listAsoc id
  have hw : Inherits (x = y) (u.listAsoc y) (Sta.assocAccept priv e s y) x := .setOwn _ rfl rfl rfl
  exact ((ht.trans hu).trans hv).trans hw

theorem Inherits.onAssocReq : Inherits False s (onAssocReq priv cfg s f).1 x := by
  unfold Sta.onAssocReq
  by_cases hlen : f.len < 24 + ieOffset f
  · rw [if_pos hlen]
    exact .refl
  rw [if_neg hlen]
  cases hfound : s.rtwGetStainfo (getAddr2 f) with
  | none => exact .refl
  | some pstat =>
    dsimp only
    by_cases hst : !(s.sta pstat).state.authSuccess ∧ !(s.sta pstat).state.assocSuccess
    · rw [if_pos hst]
      exact .refl
    rw [if_neg hst]
    -- the station of the request was trusted when it came
    have htrusted : x = pstat → Trusted s x := by
      rintro rfl
      cases hauth : (s.sta x).state.authSuccess with
      | true => exact .inl hauth
      | false =>
        cases hassoc : (s.sta x).state.assocSuccess with
        | true => exact .inr (.inl hassoc)
        | false => exact absurd (by simp [hauth, hassoc]) hst
    have hdone : ∀ {s'}, Inherits (x = pstat) s s' x → Inherits False s s' x := by
      intro s' h hp
      obtain ⟨hp0, htrust, hrest⟩ := h hp
      exact ⟨hp0, fun ht => .inr ((htrust ht).elim htrusted id), hrest⟩
    apply hdone
    have henter : Inherits (x = pstat) s
        (s.setSta pstat fun i => { i with state := assocEnter i.state }) x := .setOwn _ rfl rfl rfl
    by_cases hstatus : assocStatus priv cfg (cfg.parse f) ≠ 0
    · rw [if_pos hstatus]
      exact henter.trans (.setOwn _ rfl rfl rfl)
    rw [if_neg hstatus]
    cases hassign : (s.setSta pstat fun i => { i with state := assocEnter i.state }).assignAid
        pstat with
    | none => exact henter.trans (.setOwn _ rfl rfl rfl)
    | some s2 => exact (henter.trans (.assignAid hassign)).trans .assocAccept

/-- An associated station leaves. -/
theorem Inherits.leave (hhash : Exclusive s.staHash) :
    Inherits P s ((s.unlistAsoc y).rtwFreeStainfo (some y)) x := by
  refine Inherits.unlistAsoc.trans (.free ?_)
  rw [(unlistAsoc_keeps s y).1]
  exact hhash

theorem Inherits.onDeAuth (hhash : Exclusive s.staHash) :
    Inherits P s (onDeAuth priv s f) x := by
  unfold Sta.onDeAuth
  split_ifs
  · exact .refl
  · cases s.rtwGetStainfo (getAddr2 f) with
    | none => exact .refl
    | some psta =>
      dsimp only
      split_ifs
      · exact .leave hhash
      · exact .refl

/-- A walk whose steps release records. -/
theorem Inherits.foldl {g : StaPriv → ℕ → StaPriv}
    (hg : ∀ t y, Exclusive t.staHash → Exclusive (g t y).staHash ∧ Inherits P t (g t y) x)
    (l : List ℕ) (hhash : Exclusive s.staHash) :
    Exclusive (l.foldl g s).staHash ∧ Inherits P s (l.foldl g s) x := by
  induction l generalizing s with
  | nil => exact ⟨hhash, .refl⟩
  | cons y l ih =>
    obtain ⟨hhead, hinherits⟩ := hg s y hhash
    obtain ⟨htail, hrest⟩ := ih hhead
    exact ⟨htail, hinherits.trans hrest⟩

theorem free_exclusive (hhash : Exclusive s.staHash) (y : ℕ) :
    Exclusive (s.rtwFreeStainfo (some y)).staHash := by
  rw [(s.rtwFreeStainfo_released y).staHash]
  exact hhash.del y

theorem Inherits.expireTimeoutChk (alive : ℕ → Bool) (hhash : Exclusive s.staHash) :
    Inherits P s (expireTimeoutChk alive s) x := by
  have hauth : ∀ t y, Exclusive t.staHash →
      Exclusive (expireAuth t y).staHash ∧ Inherits P t (expireAuth t y) x := by
    intro t y ht
    unfold expireAuth
    dsimp only
    have hset : Inherits P t (t.setSta y fun i => { i with expireTo := i.expireTo - 1 }) x :=
      .setSta _ ⟨rfl, rfl, rfl⟩ fun _ => .inr
    split_ifs
    · have hout : Exclusive
          ((t.setSta y fun i => { i with expireTo := i.expireTo - 1 }).unlistAuth y).staHash := by
        rw [StaPriv.unlistAuth_eq]
        exact ht
      exact ⟨free_exclusive hout y, (hset.trans .unlistAuth).trans (.free hout)⟩
    · exact ⟨ht, hset⟩
    · exact ⟨ht, .refl⟩
  have hasoc : ∀ t y, Exclusive t.staHash →
      Exclusive (expireAsoc alive t y).staHash ∧ Inherits P t (expireAsoc alive t y) x := by
    intro t y ht
    have hage : (ageAsoc (alive y) (t.sta y)).authSeq = (t.sta y).authSeq ∧
        (ageAsoc (alive y) (t.sta y)).chgTxt = (t.sta y).chgTxt ∧
        (ageAsoc (alive y) (t.sta y)).hwaddr = (t.sta y).hwaddr ∧
        (ageAsoc (alive y) (t.sta y)).state = (t.sta y).state := by
      unfold ageAsoc
      dsimp only
      split_ifs <;> exact ⟨rfl, rfl, rfl, rfl⟩
    have hset : Inherits P t (t.setSta y (ageAsoc (alive y))) x :=
      .setSta _ ⟨hage.1, hage.2.1, hage.2.2.1⟩ fun _ htrust => .inr (hage.2.2.2 ▸ htrust)
    unfold expireAsoc
    dsimp only
    split_ifs
    · refine ⟨?_, hset.trans (.leave ht)⟩
      refine free_exclusive ?_ y
      rw [(unlistAsoc_keeps _ y).1]
      exact ht
    · exact ⟨ht, hset⟩
  unfold Sta.expireTimeoutChk
  obtain ⟨hhash', hfirst⟩ := Inherits.foldl hauth s.authList hhash
  exact hfirst.trans (Inherits.foldl hasoc _ hhash').2

/-- The record on which `OnAuth` works; the others stay. -/
theorem authRecord_cases {sa : MacAddr} (h : authRecord s sa = (s', some y)) :
    (x ≠ y → Inherits False s s' x) ∧
      (s.rtwGetStainfo sa = some y ∧ s'.sta y = s.sta y ∨
        s.rtwGetStainfo sa = none ∧
          s'.sta y = { hwaddr := sa, state := { authNull := true } }) := by
  unfold Sta.authRecord at h
  cases hfound : s.rtwGetStainfo sa with
  | some pstat =>
    rw [hfound] at h
    obtain ⟨rfl, hy⟩ := Prod.mk.inj h
    obtain rfl := Option.some.inj hy
    refine ⟨fun _ => .unlistAsoc, .inl ⟨rfl, ?_⟩⟩
    unfold StaPriv.unlistAsoc
    split_ifs <;> rfl
  | none =>
    rw [hfound] at h
    unfold StaPriv.rtwAllocStainfo at h
    cases hfree : s.freeStaQueue with
    | nil =>
      rw [hfree] at h
      cases h
    | cons pstat rest =>
      rw [hfree] at h
      obtain ⟨rfl, hy⟩ := Prod.mk.inj h
      obtain rfl := Option.some.inj hy
      refine ⟨fun hne => .of_sta (fun hp => (placed_put.mp hp).resolve_left hne) ?_ .inr,
        .inr ⟨rfl, ?_⟩⟩
      · rw [StaPriv.setSta_of_ne _ _ _ hne]
        exact Function.update_of_ne hne ..
      · rw [StaPriv.setSta_self]
        show ({ Function.update s.sta pstat { hwaddr := sa } pstat with
          state := { authNull := true }, authSeq := 0 } : StaInfo) = _
        rw [Function.update_self]

/-- An authentication frame that is not answered with success, or on another record. -/
theorem Inherits.onAuth (h : ApTable s) (hx : ∀ i, authAnswer priv cfg s f ≠ some (x, i)) :
    Inherits False s (onAuth priv cfg s f).1 x := by
  unfold Sta.onAuth
  unfold authAnswer at hx
  split_ifs at hx ⊢ with hallowed
  · cases hrec : authRecord s (getAddr2 f) with
    | mk s1 oy =>
      rw [hrec] at hx
      cases oy with
      | none =>
        rw [authRecord_none hrec]
        exact .refl
      | some y =>
        obtain ⟨hpass, -, -, -⟩ := authRecord_passed h hallowed hrec
        have hhash : Exclusive (s1.listAuth y).staHash := by
          rw [(listAuth_keeps s1 y).2.1]
          exact hpass.table.hash
        obtain ⟨hother, -⟩ := authRecord_cases (x := x) hrec
        dsimp only at hx ⊢
        cases hex : authExchange (effectiveAuthMode priv) (parseAuth priv f)
            ((s1.listAuth y).sta y) with
        | none =>
          -- the record is released
          by_cases hxy : x = y
          · subst hxy
            intro hp
            rw [(StaPriv.rtwFreeStainfo_released _ x).staHash] at hp
            exact absurd hp (not_placed_del hhash)
          · exact ((hother hxy).trans .listAuth).trans (.free hhash)
        | some i =>
          have hxy : x ≠ y := by
            rintro rfl
            exact hx i (by rw [hex]; rfl)
          show Inherits False s ((s1.listAuth y).setSta y fun _ => i) x
          exact ((hother hxy).trans .listAuth).trans
            (.of_sta id (StaPriv.setSta_of_ne _ y _ hxy) .inr)
  · exact .refl

/-- An authentication frame that is answered with success. -/
theorem onAuth_answered (h : ApTable s) {i : StaInfo}
    (ha : authAnswer priv cfg s f = some (x, i)) :
    (onAuth priv cfg s f).1.sta x = i ∧ x ∉ (onAuth priv cfg s f).1.asocList ∧
      authAllowed priv cfg f = true ∧ ∃ i₀,
        authExchange (effectiveAuthMode priv) (parseAuth priv f) i₀ = some i ∧
        (s.rtwGetStainfo (getAddr2 f) = some x ∧ i₀ = s.sta x ∨
          s.rtwGetStainfo (getAddr2 f) = none ∧
            i₀ = { hwaddr := getAddr2 f, state := { authNull := true } }) := by
  unfold Sta.onAuth
  unfold authAnswer at ha
  split_ifs at ha ⊢ with hallowed
  cases hrec : authRecord s (getAddr2 f) with
  | mk s1 oy =>
    rw [hrec] at ha
    cases oy with
    | none => cases ha
    | some y =>
      dsimp only at ha ⊢
      obtain ⟨j, hex, hpair⟩ := Option.map_eq_some_iff.mp ha
      obtain ⟨rfl, rfl⟩ := Prod.mk.inj hpair
      obtain ⟨-, -, hout, -⟩ := authRecord_passed h hallowed hrec
      obtain ⟨hsta, -, hasoc⟩ := listAuth_keeps s1 y
      rw [hex]
      dsimp only
      refine ⟨StaPriv.setSta_self _ _ _, ?_, hallowed, (s1.listAuth y).sta y, hex, ?_⟩
      · show y ∉ (s1.listAuth y).asocList
        rw [hasoc]
        exact hout
      · rw [hsta]
        exact (authRecord_cases (x := y) hrec).2

end inherits

/-- Every other event leaves a record what it was, or releases it. -/
theorem apStep_inherits {priv : RtlPriv} {cfg : ApConfig} {s : StaPriv} {x : ℕ} (h : ApTable s)
    (e : ApEvent) (hx : ∀ f i, e = .auth f → authAnswer priv cfg s f ≠ some (x, i)) :
    Inherits False s (apStep priv cfg s e) x := by
  cases e with
  | auth f => exact .onAuth h fun i => hx f i rfl
  | assocReq f => exact .onAssocReq
  | deauth f => exact .onDeAuth h.hash
  | disassoc f => exact .onDeAuth h.hash
  | tick alive => exact .expireTimeoutChk alive h.hash

/-! ## Runs -/

section run

variable {r : List ApInput} {n x : ℕ} {i : ApInput}

theorem watchAt_succ (h : r[n]? = some i) : watchAt r (n + 1) = watchStep (watchAt r n) i :=
  run_take_succ h

theorem Kept.succ {m : ℕ} (h : Kept r x m n) (hp : Placed (watchAt r (n + 1)).sta.staHash x) :
    Kept r x m (n + 1) := by
  intro k hm hk
  rcases Nat.lt_or_ge n k with hlt | hle
  · obtain rfl : k = n + 1 := by omega
    exact hp
  · exact h k hm hle

theorem Kept.self (hp : Placed (watchAt r n).sta.staHash x) : Kept r x n n := by
  intro k hm hk
  obtain rfl : k = n := by omega
  exact hp

theorem Authenticated.succ (h : Authenticated r n x)
    (hp : Placed (watchAt r (n + 1)).sta.staHash x)
    (haddr : ((watchAt r (n + 1)).sta.sta x).hwaddr = ((watchAt r n).sta.sta x).hwaddr) :
    Authenticated r (n + 1) x := by
  obtain ⟨m, hm, hkept, hauth⟩ := h
  exact ⟨m, Nat.lt_succ_of_lt hm, hkept.succ hp, haddr ▸ hauth⟩

/-- What holds after `n` events. -/
structure WatchInv (r : List ApInput) (n : ℕ) : Prop where
  table : ApTable (watchAt r n).sta
  trusted : ∀ x, Placed (watchAt r n).sta.staHash x → Trusted (watchAt r n).sta x →
    Authenticated r n x
  text : ∀ x, Placed (watchAt r n).sta.staHash x → ((watchAt r n).sta.sta x).authSeq = 2 →
    ((watchAt r n).sta.sta x).chgTxt = challengeText
  challenged : ∀ x, Placed (watchAt r n).sta.staHash x → (watchAt r n).challenged x = true →
    ∃ j < n, ChallengeSent r j x ∧ Kept r x (j + 1) n

theorem watchInv_init (r : List ApInput) : WatchInv r 0 where
  table := apTable_initAp
  trusted x hp ht := by
    have hone : x = 0 := (placed_put.mp hp).resolve_right fun ⟨_, hmem⟩ => List.not_mem_nil hmem
    subst hone
    rcases ht with h | h | h
    · exact absurd (show (rtwInitAp.sta 0).state.authSuccess = true from h) (by decide)
    · exact absurd (show (rtwInitAp.sta 0).state.assocSuccess = true from h) (by decide)
    · exact absurd h List.not_mem_nil
  text x hp h := by
    have hone : x = 0 := (placed_put.mp hp).resolve_right fun ⟨_, hmem⟩ => List.not_mem_nil hmem
    subst hone
    exact absurd (show (rtwInitAp.sta 0).authSeq = 2 from h) (by decide)
  challenged x _ h := absurd h Bool.false_ne_true

theorem challengedBy_of_ne {w : ApWatch}
    (hx : ∀ f info, i.event = .auth f → authAnswer i.priv i.cfg w.sta f ≠ some (x, info)) :
    challengedBy w i x = w.challenged x := by
  unfold challengedBy
  cases hev : i.event with
  | auth f =>
    dsimp only
    cases hans : authAnswer i.priv i.cfg w.sta f with
    | none => rfl
    | some ans =>
      obtain ⟨y, info⟩ := ans
      dsimp only
      split_ifs
      · refine Function.update_of_ne ?_ ..
        rintro rfl
        exact hx f info hev hans
      · rfl
  | _ => rfl

/-- What is kept of a record that the event does not authenticate. -/
theorem WatchInv.inherit (h : WatchInv r n) (hi : r[n]? = some i)
    (hx : ∀ f info, i.event = .auth f →
      authAnswer i.priv i.cfg (watchAt r n).sta f ≠ some (x, info))
    (hp : Placed (watchAt r (n + 1)).sta.staHash x) :
    (Trusted (watchAt r (n + 1)).sta x → Authenticated r (n + 1) x) ∧
      (((watchAt r (n + 1)).sta.sta x).authSeq = 2 →
        ((watchAt r (n + 1)).sta.sta x).chgTxt = challengeText) ∧
      ((watchAt r (n + 1)).challenged x = true →
        ∃ j < n + 1, ChallengeSent r j x ∧ Kept r x (j + 1) (n + 1)) := by
  have hkept : ∀ m, Kept r x m n → Kept r x m (n + 1) := fun _ hk => hk.succ hp
  have hsucc : ∀ ha : Authenticated r n x, _ → Authenticated r (n + 1) x := fun ha => ha.succ hp
  rw [watchAt_succ hi] at hp hsucc ⊢
  obtain ⟨hp0, htrust, hseq, htxt, haddr⟩ := apStep_inherits h.table i.event hx hp
  refine ⟨fun ht => ?_, fun h2 => ?_, fun hc => ?_⟩
  · exact hsucc (h.trusted x hp0 ((htrust ht).resolve_left id)) haddr
  · exact htxt.trans (h.text x hp0 (hseq ▸ h2))
  · obtain ⟨j, hj, hsent, hk⟩ := h.challenged x hp0 ((challengedBy_of_ne hx) ▸ hc)
    exact ⟨j, Nat.lt_succ_of_lt hj, hsent, hkept _ hk⟩

theorem authAllowed_accessCtrl {priv : RtlPriv} {cfg : ApConfig} {f : RecvFrame}
    (h : authAllowed priv cfg f = true) : cfg.accessCtrl (getAddr2 f) = true := by
  unfold authAllowed at h
  exact ((Bool.and_eq_true _ _).mp h).2

theorem challengedBy_answered {w : ApWatch} {f : RecvFrame} {info : StaInfo}
    (hev : i.event = .auth f) (hans : authAnswer i.priv i.cfg w.sta f = some (x, info)) :
    challengedBy w i x =
      if (parseAuth i.priv f).seq = 1 then
        i.mgtFrame && issuesChallenge (parseAuth i.priv f) info
      else w.challenged x := by
  unfold challengedBy
  rw [hev]
  dsimp only
  rw [hans]
  dsimp only
  split_ifs
  · exact Function.update_self ..
  · rfl

theorem trusted_outside {s : StaPriv} (h : x ∉ s.asocList) :
    Trusted s x ↔ (s.sta x).state.authSuccess = true ∨ (s.sta x).state.assocSuccess = true :=
  or_congr_right (or_iff_left h)

/-- What the answer to an authentication frame makes of the record. -/
theorem WatchInv.answer (h : WatchInv r n) (hi : r[n]? = some i) {f : RecvFrame}
    {info : StaInfo} (hev : i.event = .auth f)
    (hans : authAnswer i.priv i.cfg (watchAt r n).sta f = some (x, info))
    (hok : AuthOk (watchAt r n) i) (hp : Placed (watchAt r (n + 1)).sta.staHash x) :
    (Trusted (watchAt r (n + 1)).sta x → Authenticated r (n + 1) x) ∧
      (((watchAt r (n + 1)).sta.sta x).authSeq = 2 →
        ((watchAt r (n + 1)).sta.sta x).chgTxt = challengeText) ∧
      ((watchAt r (n + 1)).challenged x = true →
        ∃ j < n + 1, ChallengeSent r j x ∧ Kept r x (j + 1) (n + 1)) := by
  obtain ⟨hsta, hout, hallowed, i₀, hex, hrec⟩ := onAuth_answered h.table hans
  obtain ⟨hopens, hthird⟩ := hok f hev hallowed
  obtain ⟨haddr, hcases⟩ := authExchange_cases hex
  have hnow : (watchAt r (n + 1)).sta.sta x = info ∧ x ∉ (watchAt r (n + 1)).sta.asocList := by
    rw [watchAt_succ hi]
    show (apStep i.priv i.cfg _ i.event).sta x = info ∧ x ∉ (apStep i.priv i.cfg _ i.event).asocList
    rw [hev]
    exact ⟨hsta, hout⟩
  have hchallenged : (watchAt r (n + 1)).challenged x =
      if (parseAuth i.priv f).seq = 1 then
        i.mgtFrame && issuesChallenge (parseAuth i.priv f) info
      else (watchAt r n).challenged x := by
    rw [watchAt_succ hi]
    exact challengedBy_answered hev hans
  have haccess := authAllowed_accessCtrl hallowed
  -- the record has the address of the sender
  have hsender : isMulticast (getAddr2 f) = false → getAddr2 f = info.hwaddr := by
    intro hm
    rw [haddr]
    rcases hrec with ⟨hfound, rfl⟩ | ⟨-, rfl⟩
    · rw [(h.table.found hfound).2, StaPriv.lookupAddr, hm, if_neg Bool.false_ne_true]
    · rfl
  -- a record in the middle of an exchange is an old one
  have hold : i₀.authSeq = 2 ∨ i₀.state.authSuccess = true ∨ i₀.state.assocSuccess = true →
      (watchAt r n).sta.rtwGetStainfo (getAddr2 f) = some x ∧ i₀ = (watchAt r n).sta.sta x := by
    intro hmid
    refine hrec.resolve_right ?_
    rintro ⟨-, rfl⟩
    rcases hmid with h2 | ht | ht
    · cases h2
    · cases ht
    · cases ht
  rw [hchallenged, trusted_outside hnow.2, hnow.1]
  rcases hcases with ⟨hopen, -, hseq, -⟩ | ⟨hshared, hseq1, -, htxt, -, hauth, hassoc⟩ |
    ⟨hshared, hseq3, h2, hseq, hcompare⟩
  · -- open system
    refine ⟨fun _ => ⟨n, Nat.lt_succ_self n, .self hp, i, f, hi, hev, ?_⟩, fun hbad => ?_, ?_⟩
    · rw [hnow.1, ← hsender (hopens hopen)]
      exact ⟨rfl, haccess, .inl hopen⟩
    · rw [hseq] at hbad
      cases hbad
    · rw [if_pos hopen.2.1]
      intro hc
      simp [issuesChallenge, hopen.1] at hc
  · -- the first frame of shared key
    rw [hauth, hassoc]
    refine ⟨fun ht => ?_, fun _ => htxt, ?_⟩
    · obtain ⟨hfound, rfl⟩ := hold (.inr ht)
      refine (h.trusted x (h.table.found hfound).1 (ht.imp_right .inl)).succ hp ?_
      rw [hnow.1, haddr]
    · rw [if_pos hseq1]
      intro hc
      obtain ⟨hframe, hissued⟩ := (Bool.and_eq_true _ _).mp hc
      exact ⟨n, Nat.lt_succ_self n, ⟨i, f, info, hi, hev, hframe, hans, hissued⟩, .self hp⟩
  · -- the third frame
    obtain ⟨hfound, rfl⟩ := hold (.inl h2)
    have hp0 := (h.table.found hfound).1
    have hthird := hthird x hfound h2 hseq3 hshared hcompare
    obtain ⟨j, hj, hsent, hkept⟩ := h.challenged x hp0 hthird.challenged
    refine ⟨fun _ => ⟨n, Nat.lt_succ_self n, .self hp, i, f, hi, hev, ?_⟩, fun hbad => ?_,
      fun _ => ⟨j, Nat.lt_succ_of_lt hj, hsent, hkept.succ hp⟩⟩
    · rw [hnow.1, ← hsender hthird.sender]
      refine ⟨rfl, haccess, .inr ⟨⟨hthird.algorithm, hseq3, hthird.privacy, hthird.icv, ?_⟩,
        j, hj, hsent, hkept⟩⟩
      rw [h.text x hp0 h2] at hcompare
      obtain ⟨p, ieLen, hie, hbytes⟩ := parseAuth_challenge hcompare
      obtain ⟨hlen, hinside⟩ := hthird.element p ieLen hie
      exact ⟨p, ieLen, hie, hlen, hinside, hbytes⟩
    · rw [hseq] at hbad
      cases hbad

theorem WatchInv.step (h : WatchInv r n) (hi : r[n]? = some i) (hok : AuthOk (watchAt r n) i) :
    WatchInv r (n + 1) := by
  have hall : ∀ x, Placed (watchAt r (n + 1)).sta.staHash x →
      (Trusted (watchAt r (n + 1)).sta x → Authenticated r (n + 1) x) ∧
      (((watchAt r (n + 1)).sta.sta x).authSeq = 2 →
        ((watchAt r (n + 1)).sta.sta x).chgTxt = challengeText) ∧
      ((watchAt r (n + 1)).challenged x = true →
        ∃ j < n + 1, ChallengeSent r j x ∧ Kept r x (j + 1) (n + 1)) := by
    intro x hp
    by_cases hx : ∃ f info, i.event = .auth f ∧
        authAnswer i.priv i.cfg (watchAt r n).sta f = some (x, info)
    · obtain ⟨f, info, hev, hans⟩ := hx
      exact h.answer hi hev hans hok hp
    · exact h.inherit hi (fun f info hev hans => hx ⟨f, info, hev, hans⟩) hp
  refine ⟨?_, fun x hp => (hall x hp).1, fun x hp => (hall x hp).2.1, fun x hp => (hall x hp).2.2⟩
  rw [watchAt_succ hi]
  exact (apStep_passed i.priv i.cfg i.event h.table).table

/-- Along a run that meets the condition every station that is authenticated, or on the
    association list, was authenticated since its record was created. -/
theorem authenticated_of_run (r : List ApInput) (h : Guarded watchStep AuthOk watchInit r)
    (n : ℕ) (hn : n ≤ r.length) (x : ℕ) (hp : Placed (watchAt r n).sta.staHash x)
    (hx : ((watchAt r n).sta.sta x).state.authSuccess = true ∨
      x ∈ (watchAt r n).sta.asocList) : Authenticated r n x := by
  have hinv : WatchInv r n :=
    h.take_induction (watchInv_init r) (fun k i hi hok hk => hk.step hi hok) n hn
  exact hinv.trusted x hp (hx.imp_right .inr)

end run

/-! ### Open system, and shared key without WEP -/

/-- A station authenticates with open system. -/
def openVisit : List ApInput := [{ priv := {}, cfg := openAp, event := .auth authRequest }]

theorem authenticated_of_openVisit : Authenticated openVisit 1 1 := by
  have hguard : Guarded watchStep AuthOk watchInit openVisit := by
    refine ⟨fun f hf _ => ?_, trivial⟩
    obtain rfl : authRequest = f := ApEvent.auth.inj hf
    refine ⟨fun _ => by decide, fun x hx => ?_⟩
    have hnone : watchInit.sta.rtwGetStainfo (getAddr2 authRequest) = none := by decide
    rw [hnone] at hx
    cases hx
  have hplaced : 1 ∈ (watchAt openVisit 1).sta.staHash 0 := by decide +kernel
  exact authenticated_of_run openVisit hguard 1 (by decide) 1 ⟨0, hplaced⟩
    (.inl (by decide +kernel))

/-- An access point that demands shared key. -/
def sharedKey : RtlPriv := { dot11AuthAlgrthm := .shared }

/-- The first frame, and a third one that is not encrypted: four bytes in the place of an IV,
    then the challenge text, which is the same for every station. -/
def forgedVisit : List ApInput :=
  [{ priv := sharedKey, cfg := openAp, event := .auth (mgtFrame 0xb0 [1, 0, 1, 0, 0, 0]) },
    { priv := sharedKey, cfg := openAp
      event := .auth (mgtFrame 0xb0
        ([1, 0, 3, 0, 0, 0] ++ [0, 0, 0, 0] ++ [16, 128] ++ challengeText)) }]

/-- A station that does not know the key authenticates. -/
theorem forged_authenticates : ¬ ∀ (r : List ApInput) (n x : ℕ), n ≤ r.length →
    Placed (watchAt r n).sta.staHash x →
    ((watchAt r n).sta.sta x).state.authSuccess = true ∨ x ∈ (watchAt r n).sta.asocList →
      Authenticated r n x := by
  intro h
  have hsuccess : ((watchAt forgedVisit 2).sta.sta 1).state.authSuccess = true := by
    decide +kernel
  have hplaced : 1 ∈ (watchAt forgedVisit 2).sta.staHash 0 := by decide +kernel
  obtain ⟨m, hm, -, i, f, hi, hev, -, -, hauth⟩ :=
    h forgedVisit 2 1 (by decide) ⟨0, hplaced⟩ (.inl hsuccess)
  obtain rfl | rfl : m = 0 ∨ m = 1 := by omega
  · obtain rfl := Option.some.inj hi
    obtain rfl := ApEvent.auth.inj hev
    rcases hauth with ⟨halg, -⟩ | ⟨hshared, -⟩
    · exact absurd halg (by decide)
    · exact absurd hshared.seq (by decide)
  · obtain rfl := Option.some.inj hi
    obtain rfl := ApEvent.auth.inj hev
    rcases hauth with ⟨halg, -⟩ | ⟨hshared, -⟩
    · exact absurd halg (by decide +kernel)
    · exact absurd hshared.privacy (by decide +kernel)

end Rtl8821au.Sta
