import Mathlib.Data.Int.Notation
import Mathlib.Logic.Function.Basic
import Mathlib.Tactic.SplitIfs
import Rtl8821au.Lib.Run
import Rtl8821au.Priv

/-!
# The link of a client

`mlmext_info` in the station mode (`rtw_mlme_ext.c`): `join_cmd_hdl` starts an attempt, frames of
the access point carry it on, `link_timer_hdl` repeats what is not answered, and
`linked_status_chk` gives up an access point that is no longer heard.

* `airStep_carried`: what every frame, expiry and check keeps, and what it uses up.
* `join_answered_once`: an attempt is answered once, and not before it is over.
* `join_expires`: it is over after at most nine expiries of a timer that does not stop.
* `client_dropped_iff`: a linked access point is given up at the ninth silent check in a row.

The frames have passed the address checks of their handlers. The elements of a beacon and of an
association response, the null frames of `linked_status_chk` and its IBSS branch are left out.
-/

namespace Rtl8821au.Mlme.ClientLink

open Run

/-! ## State -/

/-- The low two bits of `state`: `_HW_STATE_NOLINK_` … `_HW_STATE_AP_`. -/
inductive Role where
  | nolink
  | adhoc
  | station
  | ap
  deriving DecidableEq, Repr

/-- `state` of `struct mlme_ext_info`: the role and `WIFI_FW_AUTH_NULL` …
    `WIFI_FW_ASSOC_SUCCESS`. -/
structure FwState where
  role : Role := .nolink
  authNull : Bool := false
  authState : Bool := false
  authSuccess : Bool := false
  assocState : Bool := false
  assocSuccess : Bool := false
  deriving DecidableEq, Repr

/-- An attempt is under way. -/
def FwState.Linking (f : FwState) : Prop := f.authNull ∨ f.authState ∨ f.assocState

instance (f : FwState) : Decidable f.Linking := inferInstanceAs (Decidable (_ ∨ _))

/-- `is_client_associated_to_ap` (`rtw_wlan_util.c`, lines 543–562). -/
def FwState.clientAssociated (f : FwState) : Bool := f.assocSuccess && f.role = .station

/-- The frames that are counted for `chk_ap_is_alive`. -/
inductive RxKind where
  | data
  | beacon
  | probersp
  deriving DecidableEq, Repr

/-- The packet counters of the access point, and what they were at the last check. -/
structure RxStats where
  pkts : RxKind → ℕ
  last : RxKind → ℕ
  last_le : ∀ k, last k ≤ pkts k

/-- A frame is counted. -/
def RxStats.count (x : RxStats) (kind : RxKind) : RxStats where
  pkts := Function.update x.pkts kind (x.pkts kind + 1)
  last := x.last
  last_le k := by
    have hle := x.last_le k
    rcases eq_or_ne k kind with rfl | hne
    · rw [Function.update_self]
      exact Nat.le_succ_of_le hle
    · rwa [Function.update_of_ne hne]

/-- `sta_update_last_rx_pkts`. -/
def RxStats.updateLast (x : RxStats) : RxStats := ⟨x.pkts, x.pkts, fun _ => Nat.le_refl _⟩

/-- What `chk_ap_is_alive` compares (lines 5489–5500). -/
def RxStats.alive (x : RxStats) : Bool :=
  x.pkts .data ≠ x.last .data ∨ x.pkts .beacon ≠ x.last .beacon ∨
    x.pkts .probersp ≠ x.last .probersp

/-- Frames that are sent for the link. -/
inductive Sent where
  | deauth
  | auth (seq : ℕ)
  | assocreq
  | probereq
  deriving DecidableEq, Repr

/-- `struct mlme_ext_info` and what goes with it: the timer, the results that are reported and the
    reasons of `report_del_sta_event`, oldest first, and the counters of the access point. -/
structure Client where
  state : FwState := {}
  authAlgo : AuthAlgrthm
  authSeq : ℕ := 0
  reauthCount : ℕ := 0
  reassocCount : ℕ := 0
  retry : ℕ := 0
  linkTimer : Option ℕ := none
  joinRes : List ℤ := []
  delSta : List ℕ := []
  sent : List Sent := []
  rx : RxStats

/-- What a command says about a network: the capabilities, the beacon interval, and whether the
    elements fit into `MAX_IE_SZ`. -/
structure Network where
  ess : Bool
  ibss : Bool
  bcnInterval : ℕ
  iesFit : Bool

def reauthLimit : ℕ := 4

def reassocLimit : ℕ := 4

def reauthTo : ℕ := 300

def reassocTo : ℕ := 300

def rxChkLimit : ℕ := 8

/-- `WLAN_REASON_EXPIRATION_CHK`, and the reason for an access point that has changed. -/
def reasonExpirationChk : ℕ := 65535

namespace Client

variable (s : Client)

/-! ## Model of the C code -/

def reportJoinRes (res : ℤ) : Client := { s with joinRes := s.joinRes ++ [res] }

/-- `decide_wait_for_beacon_timeout` (`rtw_wlan_util.c`, lines 597–611). -/
def decideWaitForBeaconTimeout (bcnInterval : ℕ) : ℕ := min (max (bcnInterval * 4) 6000) 20000

/-- `start_clnt_join` (lines 4791–4855). -/
def startClntJoin (net : Network) : Client :=
  if net.ess then
    { s with
      linkTimer := some (decideWaitForBeaconTimeout net.bcnInterval)
      state := { authNull := true, role := .station } }
  else if net.ibss then { s with state := { role := .adhoc } }.reportJoinRes 1
  else s

/-- A network that the client is linked to is left (lines 5869–5890). -/
def leaveOld : Client :=
  if s.state.assocSuccess then
    { s with
      sent := if s.state.role = .station ∨ s.state.role = .ap then s.sent ++ [.deauth] else s.sent
      state := {}
      linkTimer := none }
  else s

/-- `join_cmd_hdl` (lines 5856–6012). -/
def joinCmdHdl (net : Network) : Client :=
  if !net.iesFit then s.leaveOld
  else { s.leaveOld with linkTimer := none }.startClntJoin net

/-- `start_clnt_auth` (lines 4857–4886). -/
def startClntAuth : Client :=
  { s with
    state := { s.state with authNull := false, authState := true }
    authSeq := 1
    reauthCount := 0
    reassocCount := 0
    retry := 0
    sent := s.sent ++ [.deauth, .auth 1]
    linkTimer := some reauthTo }

/-- `start_clnt_assoc` (lines 4889–4902). -/
def startClntAssoc : Client :=
  { s with
    state :=
      { s.state with
        authNull := false, authState := false, authSuccess := true, assocState := true }
    sent := s.sent ++ [.assocreq]
    linkTimer := some reassocTo }

/-- `receive_disconnect` (lines 4904–4931) for the network's own address. -/
def receiveDisconnect (reason : ℕ) : Client :=
  if s.state.role = .station then
    if s.state.assocSuccess then { s with state := {}, delSta := s.delSta ++ [reason] }
    else if s.state.Linking ∨ s.state.authSuccess then { s with state := {} }.reportJoinRes (-2)
    else s
  else s

/-- `OnBeacon` (lines 687–828), of the network; `same` is what `rtw_check_bcn_info` says about it,
    if there is a station entry. -/
def onBeacon (scanning : Bool) (same : Option Bool) : Client :=
  if scanning then s
  else if s.state.authNull then s.startClntAuth
  else if s.state.clientAssociated && same = some false then
    s.receiveDisconnect reasonExpirationChk
  else s

/-- `OnAuthClient` (lines 1058–1156); `challenge` tells whether the challenge text is found. -/
def onAuthClient (seq status : ℕ) (challenge : Bool) : Client :=
  if !s.state.authState then s
  else if status ≠ 0 then
    { s with
      authAlgo :=
        if status = 13 then if s.authAlgo = .shared then .openSystem else .shared else s.authAlgo
      linkTimer := some 1 }
  else if seq = 2 then
    if s.authAlgo = .shared then
      if challenge then
        { s with authSeq := 3, sent := s.sent ++ [.auth 3], linkTimer := some reauthTo }
      else s
    else s.startClntAssoc
  else if seq = 4 then if s.authAlgo = .shared then s.startClntAssoc else s
  else s

/-- `OnAssocRsp` (lines 1703–1807). -/
def onAssocRsp (status aid : ℕ) : Client :=
  if !(s.state.authSuccess || s.state.assocState) then s
  else if s.state.assocSuccess then s
  else
    let s := { s with linkTimer := none }
    if status > 0 then { s with state := {} }.reportJoinRes (-4)
    else
      { s with state := { s.state with assocState := false, assocSuccess := true } }.reportJoinRes
        (aid % 0x4000 : ℕ)

/-- `link_timer_hdl` (lines 5680–5735). -/
def linkTimerHdl : Client :=
  if s.state.authNull then { s with state := {} }.reportJoinRes (-3)
  else if s.state.authState then
    let s := { s with reauthCount := s.reauthCount + 1 }
    if s.reauthCount > reauthLimit then { s with state := {} }.reportJoinRes (-1)
    else { s with authSeq := 1, sent := s.sent ++ [.auth 1], linkTimer := some reauthTo }
  else if s.state.assocState then
    let s := { s with reassocCount := s.reassocCount + 1 }
    if s.reassocCount > reassocLimit then { s with state := {} }.reportJoinRes (-2)
    else { s with sent := s.sent ++ [.assocreq], linkTimer := some reassocTo }
  else s

/-- The timer, once it has been set, runs out. -/
def expire : Client :=
  if s.linkTimer.isSome then { s with linkTimer := none }.linkTimerHdl else s

/-- Nothing was heard: probe requests are sent once, and the checks counted. -/
def missed : Client :=
  { s with
    rx := s.rx.updateLast
    sent := if s.retry = 0 then s.sent ++ [.probereq, .probereq, .probereq] else s.sent
    retry := s.retry + 1 }

/-- `linked_status_chk` (lines 5512–5628) and `chk_ap_is_alive` (lines 5468–5510) of a client that
    has an entry for its access point, or has none. -/
def linkedStatusChk (hasEntry : Bool) : Client :=
  if !s.state.clientAssociated || !hasEntry then s
  else if s.rx.alive then { s with rx := s.rx.updateLast, retry := 0 }
  else if s.missed.retry > rxChkLimit then s.missed.receiveDisconnect reasonExpirationChk
  else s.missed

end Client

/-! ## Runs -/

/-- What reaches the link from the air and from its timers. -/
inductive Air where
  | beacon (scanning : Bool) (same : Option Bool)
  | auth (seq status : ℕ) (challenge : Bool)
  | assocrsp (status aid : ℕ)
  | disconnect (reason : ℕ)
  | rx (kind : RxKind)
  | expire
  | check (hasEntry : Bool)
  deriving DecidableEq

/-- One frame, expiry or check. -/
def airStep (s : Client) : Air → Client
  | .beacon scanning same => s.onBeacon scanning same
  | .auth seq status challenge => s.onAuthClient seq status challenge
  | .assocrsp status aid => s.onAssocRsp status aid
  | .disconnect reason => s.receiveDisconnect reason
  | .rx kind => { s with rx := s.rx.count kind }
  | .expire => s.expire
  | .check hasEntry => s.linkedStatusChk hasEntry

/-! ## Phases of an attempt -/

/-- How far an attempt is. -/
inductive Phase (s : Client) : Prop
  | over (h : ¬ s.state.Linking) (hsuccess : s.state.authSuccess → s.state.assocSuccess)
  | waiting (h : s.state = { authNull := true, role := .station })
  | authenticating (h : s.state = { authState := true, role := .station })
      (hreauth : s.reauthCount ≤ reauthLimit) (hreassoc : s.reassocCount = 0) (hretry : s.retry = 0)
  | associating (h : s.state = { authSuccess := true, assocState := true, role := .station })
      (hreassoc : s.reassocCount ≤ reassocLimit) (hretry : s.retry = 0)

namespace Client

/-- The results reported so far, and the one that is due. -/
def results (s : Client) : ℕ := s.joinRes.length + if s.state.Linking then 1 else 0

/-- A client that links waits for its timer. -/
def Timed (s : Client) : Prop := s.state.Linking → s.linkTimer.isSome

/-- How often the timer may still run out. -/
def budget (s : Client) : ℕ :=
  if s.state.authNull then reauthLimit + reassocLimit + 1
  else if s.state.authState then reauthLimit - s.reauthCount + (reassocLimit + 1)
  else if s.state.assocState then reassocLimit + 1 - s.reassocCount
  else 0

theorem over_of_state {s : Client} (h : s.state = {}) : ¬ s.state.Linking ∧ Phase s :=
  have hover : ¬ s.state.Linking := by rw [h]; decide
  ⟨hover, .over hover (by rw [h]; exact fun hf => absurd hf (by decide))⟩

end Client

/-- From `s` to `s'` an attempt goes on or ends with a result, and `t` expiries are used up. -/
structure Carried (s s' : Client) (t : ℕ) : Prop where
  phase : Phase s'
  results : s'.results = s.results
  timed : s.Timed → s'.Timed
  spends : s.Timed → s'.state.Linking → s.state.Linking ∧ s'.budget + t ≤ s.budget

section carried

variable {s s' : Client}

theorem linking_of {f : FwState} (h : s.state = f) (hf : f.Linking) : s.state.Linking := h ▸ hf

theorem carried_same (h : Phase s) : Carried s s 0 :=
  ⟨h, rfl, id, fun _ hl => ⟨hl, Nat.le_refl _⟩⟩

/-- Nothing is under way before or after. -/
theorem carried_idle (h : ¬ s.state.Linking) (hover : ¬ s'.state.Linking ∧ Phase s')
    (hres : s'.joinRes = s.joinRes) (t : ℕ) : Carried s s' t where
  phase := hover.2
  results := by rw [Client.results, Client.results, hres, if_neg h, if_neg hover.1]
  timed _ hl := absurd hl hover.1
  spends _ hl := absurd hl hover.1

/-- The attempt ends with a result. -/
theorem carried_end (h : s.state.Linking) (hover : ¬ s'.state.Linking ∧ Phase s') {r : ℤ}
    (hres : s'.joinRes = s.joinRes ++ [r]) (t : ℕ) : Carried s s' t where
  phase := hover.2
  results := by
    rw [Client.results, Client.results, hres, if_pos h, if_neg hover.1, List.length_append]
    rfl
  timed _ hl := absurd hl hover.1
  spends _ hl := absurd hl hover.1

/-- The attempt goes on, and the timer is set. -/
theorem carried_on (h : s.state.Linking) (h' : s'.state.Linking) (hphase : Phase s')
    (hres : s'.joinRes = s.joinRes) (htimer : s'.linkTimer.isSome) {t : ℕ}
    (ht : s'.budget + t ≤ s.budget) : Carried s s' t where
  phase := hphase
  results := by rw [Client.results, Client.results, hres, if_pos h, if_pos h']
  timed _ _ := htimer
  spends _ _ := ⟨h, ht⟩

theorem Carried.trans {s'' : Client} {t : ℕ} (h : Carried s s' 0) (h' : Carried s' s'' t) :
    Carried s s'' t where
  phase := h'.phase
  results := h'.results.trans h.results
  timed ht := h'.timed (h.timed ht)
  spends ht hl := by
    obtain ⟨hl', hb'⟩ := h'.spends (h.timed ht) hl
    obtain ⟨hl, hb⟩ := h.spends ht hl'
    exact ⟨hl, by omega⟩

theorem receiveDisconnect_carried (h : Phase s) (reason : ℕ) :
    Carried s (s.receiveDisconnect reason) 0 := by
  have hend : s.state.Linking → s.state.role = .station → s.state.assocSuccess = false →
      Carried s (s.receiveDisconnect reason) 0 := by
    intro hl hrole hassoc
    rw [Client.receiveDisconnect, if_pos hrole, if_neg (by rw [hassoc]; decide), if_pos (.inl hl)]
    exact carried_end hl (Client.over_of_state rfl) rfl 0
  rcases h with ⟨h, hsuccess⟩ | ⟨h⟩ | ⟨h, -⟩ | ⟨h, -⟩
  · rw [Client.receiveDisconnect]
    split_ifs with hrole hassoc hlink
    · exact carried_idle h
        (Client.over_of_state (s := { s with state := {}, delSta := s.delSta ++ [reason] }) rfl)
        rfl 0
    · exact absurd (hlink.resolve_left h) fun hs => hassoc (hsuccess hs)
    · exact carried_same (.over h hsuccess)
    · exact carried_same (.over h hsuccess)
  all_goals exact hend (linking_of h (by decide)) (by rw [h]) (by rw [h])

theorem onBeacon_carried (h : Phase s) (scanning : Bool) (same : Option Bool) :
    Carried s (s.onBeacon scanning same) 0 := by
  rw [Client.onBeacon]
  split_ifs with hscan hnull hsame
  · exact carried_same h
  · rcases h with ⟨h, -⟩ | ⟨h⟩ | ⟨h, -⟩ | ⟨h, -⟩
    · exact absurd (.inl hnull) h
    · have hstate : s.startClntAuth.state = { authState := true, role := .station } := by
        rw [Client.startClntAuth, h]
      refine carried_on (linking_of h (by decide)) (linking_of hstate (by decide))
        (.authenticating hstate (Nat.zero_le _) rfl rfl) rfl rfl ?_
      rw [Client.budget, Client.budget, hstate, h]
      exact Nat.le_refl 9
    · rw [h] at hnull
      cases hnull
    · rw [h] at hnull
      cases hnull
  · exact receiveDisconnect_carried h _
  · exact carried_same h

theorem startClntAssoc_carried (h : s.state = { authState := true, role := .station })
    (hreassoc : s.reassocCount = 0) (hretry : s.retry = 0) : Carried s s.startClntAssoc 0 := by
  have hstate : s.startClntAssoc.state =
      { authSuccess := true, assocState := true, role := .station } := by
    rw [Client.startClntAssoc, h]
  have hcount : s.startClntAssoc.reassocCount = 0 := hreassoc
  refine carried_on (linking_of h (by decide)) (linking_of hstate (by decide))
    (.associating hstate (hcount ▸ Nat.zero_le _) hretry) rfl rfl ?_
  rw [Client.budget, Client.budget, hstate, h, hcount]
  exact Nat.le_add_left _ _

theorem onAuthClient_carried (h : Phase s) (seq status : ℕ) (challenge : Bool) :
    Carried s (s.onAuthClient seq status challenge) 0 := by
  by_cases hauth : s.state.authState = true
  · rcases h with ⟨h, -⟩ | ⟨h⟩ | ⟨h, hreauth, hreassoc, hretry⟩ | ⟨h, -⟩
    · exact absurd (.inr (.inl hauth)) h
    · rw [h] at hauth
      cases hauth
    · have hl := linking_of h (by decide)
      have hsame := carried_same (.authenticating h hreauth hreassoc hretry)
      -- The handler stays in the phase, whatever it sets besides the timer.
      have hstay : ∀ {s' : Client}, s'.state = s.state → s'.reauthCount = s.reauthCount →
          s'.reassocCount = s.reassocCount → s'.retry = s.retry → s'.joinRes = s.joinRes →
          s'.linkTimer.isSome → Carried s s' 0 := by
        intro s' hs hr ha ht hj htimer
        refine carried_on hl (hs ▸ hl) (.authenticating (hs.trans h) (hr ▸ hreauth)
          (ha.trans hreassoc) (ht.trans hretry)) hj htimer ?_
        rw [Client.budget, Client.budget, hs, hr, ha]
        exact Nat.le_refl _
      rw [Client.onAuthClient, if_neg (by rw [hauth]; decide)]
      by_cases hstatus : status ≠ 0
      · rw [if_pos hstatus]
        exact hstay rfl rfl rfl rfl rfl rfl
      rw [if_neg hstatus]
      split_ifs with hseq hshared hchallenge hseq hshared
      · exact hstay rfl rfl rfl rfl rfl rfl
      · exact hsame
      · exact startClntAssoc_carried h hreassoc hretry
      · exact startClntAssoc_carried h hreassoc hretry
      · exact hsame
      · exact hsame
    · rw [h] at hauth
      cases hauth
  · rw [Client.onAuthClient, if_pos (by rw [eq_false_of_ne_true hauth]; rfl)]
    exact carried_same h

theorem onAssocRsp_carried (h : Phase s) (status aid : ℕ) :
    Carried s (s.onAssocRsp status aid) 0 := by
  rcases h with ⟨h, hsuccess⟩ | ⟨h⟩ | ⟨h, hreauth, hreassoc, hretry⟩ | ⟨h, hreassoc, hretry⟩
  · have hsame := carried_same (.over h hsuccess)
    rw [Client.onAssocRsp]
    split_ifs with hnot hassoc
    · exact hsame
    · exact hsame
    all_goals
      rw [Bool.not_eq_true, Bool.not_eq_false', Bool.or_eq_true] at hnot
      exact absurd (hsuccess (hnot.resolve_right fun ha => h (.inr (.inr ha)))) hassoc
  · rw [Client.onAssocRsp, h]
    exact carried_same (.waiting h)
  · rw [Client.onAssocRsp, h]
    exact carried_same (.authenticating h hreauth hreassoc hretry)
  · have hl := linking_of h (by decide)
    rw [Client.onAssocRsp, if_neg (by rw [h]; decide), if_neg (by rw [h]; decide)]
    dsimp only
    split_ifs with hstatus
    · exact carried_end hl (Client.over_of_state rfl) rfl 0
    · have hover :
          ¬ ({ s.state with assocState := false, assocSuccess := true } : FwState).Linking := by
        rw [h]
        decide
      exact carried_end hl ⟨hover, .over hover fun _ => rfl⟩ rfl 0

theorem expire_carried (h : Phase s) : Carried s s.expire 1 := by
  rcases hn : s.linkTimer with _ | ms
  · have hsame : s.expire = s := by rw [Client.expire, hn]; rfl
    rw [hsame]
    refine ⟨h, rfl, id, fun ht hl => ?_⟩
    have := ht hl
    rw [hn] at this
    cases this
  · have hfire : s.expire = { s with linkTimer := none }.linkTimerHdl := by
      rw [Client.expire, hn]; rfl
    rw [hfire]
    rcases h with ⟨h, hsuccess⟩ | ⟨h⟩ | ⟨h, hreauth, hreassoc, hretry⟩ | ⟨h, hreassoc, hretry⟩
    · have hidle : { s with linkTimer := none }.linkTimerHdl = { s with linkTimer := none } := by
        rw [Client.linkTimerHdl, if_neg fun hb => h (.inl hb),
          if_neg fun hb => h (.inr (.inl hb)), if_neg fun hb => h (.inr (.inr hb))]
      rw [hidle]
      refine carried_idle h ⟨?_, ?_⟩ ?_ 1
      · exact h
      · exact .over h hsuccess
      · rfl
    · rw [Client.linkTimerHdl, h]
      exact carried_end (linking_of h (by decide)) (Client.over_of_state rfl) rfl 1
    · have hl := linking_of h (by decide)
      rw [Client.linkTimerHdl, h]
      dsimp only
      rw [if_neg (by decide), if_pos rfl]
      split_ifs with hlimit
      · exact carried_end hl (Client.over_of_state rfl) rfl 1
      · rw [Nat.not_lt] at hlimit
        apply carried_on hl
        · exact .inr (.inl rfl)
        · exact .authenticating rfl hlimit hreassoc hretry
        · rfl
        · rfl
        · simp only [Client.budget, h, Bool.false_eq_true, ite_false, ite_true]
          omega
    · have hl := linking_of h (by decide)
      rw [Client.linkTimerHdl, h]
      dsimp only
      rw [if_neg (by decide), if_neg (by decide), if_pos rfl]
      split_ifs with hlimit
      · exact carried_end hl (Client.over_of_state rfl) rfl 1
      · rw [Nat.not_lt] at hlimit
        apply carried_on hl
        · exact .inr (.inr rfl)
        · exact .associating rfl hlimit hretry
        · rfl
        · rfl
        · simp only [Client.budget, h, Bool.false_eq_true, ite_false, ite_true]
          omega

/-- Only a client that is linked is checked. -/
theorem linkedStatusChk_carried (h : Phase s) (hasEntry : Bool) :
    Carried s (s.linkedStatusChk hasEntry) 0 := by
  by_cases hassoc : s.state.clientAssociated = true
  · rcases h with ⟨h, hsuccess⟩ | ⟨h⟩ | ⟨h, -⟩ | ⟨h, -⟩
    · have hidle : ∀ {s' : Client}, s'.state = s.state → s'.joinRes = s.joinRes →
          Carried s s' 0 := by
        intro s' hs hj
        exact carried_idle h ⟨hs ▸ h, .over (hs ▸ h) (hs ▸ hsuccess)⟩ hj 0
      have hmissed : Carried s s.missed 0 := hidle rfl rfl
      rw [Client.linkedStatusChk]
      split_ifs
      · exact carried_same (.over h hsuccess)
      · exact hidle rfl rfl
      · exact hmissed.trans (receiveDisconnect_carried hmissed.phase _)
      · exact hmissed
    all_goals
      rw [h] at hassoc
      cases hassoc
  · rw [Client.linkedStatusChk, if_pos (by rw [eq_false_of_ne_true hassoc]; rfl)]
    exact carried_same h

end carried

/-- Every frame, expiry and check carries an attempt on. -/
theorem airStep_carried {s : Client} (h : Phase s) (a : Air) :
    Carried s (airStep s a) (if a = .expire then 1 else 0) := by
  cases a with
  | beacon scanning same => exact onBeacon_carried h scanning same
  | auth seq status challenge => exact onAuthClient_carried h seq status challenge
  | assocrsp status aid => exact onAssocRsp_carried h status aid
  | disconnect reason => exact receiveDisconnect_carried h reason
  | rx kind =>
    refine ⟨?_, rfl, id, fun _ hl => ⟨hl, Nat.le_refl _⟩⟩
    rcases h with ⟨h, hsuccess⟩ | ⟨h⟩ | ⟨h, hreauth, hreassoc, hretry⟩ | ⟨h, hreassoc, hretry⟩
    · exact .over h hsuccess
    · exact .waiting h
    · exact .authenticating h hreauth hreassoc hretry
    · exact .associating h hreassoc hretry
  | expire => exact expire_carried h
  | check hasEntry => exact linkedStatusChk_carried h hasEntry

/-! ## An attempt -/

/-- `join_cmd_hdl` of an infrastructure network. -/
def joined (s : Client) (ibss : Bool) (bcnInterval : ℕ) : Client :=
  s.joinCmdHdl { ess := true, ibss := ibss, bcnInterval := bcnInterval, iesFit := true }

theorem joined_spec (s : Client) (ibss : Bool) (bcnInterval : ℕ) :
    (joined s ibss bcnInterval).state = { authNull := true, role := .station } ∧
      (joined s ibss bcnInterval).joinRes = s.joinRes ∧
        (joined s ibss bcnInterval).linkTimer.isSome := by
  have hold : s.leaveOld.joinRes = s.joinRes := by
    rw [Client.leaveOld]
    split_ifs <;> rfl
  exact ⟨rfl, hold, rfl⟩

section attempt

variable {s : Client}

/-- An attempt that is under way may still see its timer run out. -/
theorem budget_pos (h : Phase s) (hl : s.state.Linking) : 0 < s.budget := by
  rcases h with ⟨h, -⟩ | ⟨h⟩ | ⟨h, -⟩ | ⟨h, hreassoc, -⟩
  · exact absurd hl h
  · rw [Client.budget, h]
    exact Nat.succ_pos _
  · rw [Client.budget, h]
    exact Nat.lt_of_lt_of_le (by decide) (Nat.le_add_left _ _)
  · rw [Client.budget, h]
    exact Nat.sub_pos_of_lt (Nat.lt_succ_of_le hreassoc)

theorem airRun_phase (h : Phase s) (as : List Air) :
    Phase (run airStep s as) ∧ (run airStep s as).results = s.results := by
  have hstep : ∀ (s' : Client) (a : Air), True → Phase s' ∧ s'.results = s.results →
      Phase (airStep s' a) ∧ (airStep s' a).results = s.results := fun _ a _ h =>
    ⟨(airStep_carried h.1 a).phase, (airStep_carried h.1 a).results.trans h.2⟩
  exact invariant_run hstep (guarded_of_forall s fun _ _ => trivial) ⟨h, rfl⟩

/-- As long as it lasts, an attempt has its timer set and uses up its budget. -/
theorem airRun_spends (h : Phase s) (ht : s.Timed) (as : List Air)
    (hl : (run airStep s as).state.Linking) :
    (run airStep s as).linkTimer.isSome ∧ as.count .expire < s.budget := by
  have hstep : ∀ (s : Client) (a : Air), Phase s ∧ s.Timed →
      (Phase (airStep s a) ∧ (airStep s a).Timed) ∧
      ((airStep s a).state.Linking → s.state.Linking ∧
        (airStep s a).budget + (if (a == .expire) = true then 1 else 0) ≤ s.budget) := by
    intro s a hs
    have ha := airStep_carried hs.1 a
    refine ⟨⟨ha.phase, ha.timed hs.2⟩, fun hl => ?_⟩
    simpa using ha.spends hs.2 hl
  obtain ⟨hinv, hspent⟩ := @run_spends Client Air airStep (fun s => Phase s ∧ s.Timed)
    Client.budget (· == .expire) (fun s => s.state.Linking) hstep s as ⟨h, ht⟩
  have hpos := budget_pos hinv.1 hl
  have hle := (hspent hl).2
  rw [← List.count] at hle
  exact ⟨hinv.2 hl, by omega⟩

end attempt

/-- A command to join an access point is answered by one result, which is reported when the attempt
    is over, whatever arrives, in whatever order, until the next command. -/
theorem join_answered_once (s : Client) (ibss : Bool) (bcnInterval : ℕ) (as : List Air) :
    let s' := run airStep (joined s ibss bcnInterval) as
    s'.joinRes.length = s.joinRes.length + if s'.state.Linking then 0 else 1 := by
  intro s'
  obtain ⟨hstate, hres, -⟩ := joined_spec s ibss bcnInterval
  have hrun : s'.results = s.joinRes.length + 1 := by
    rw [(airRun_phase (.waiting hstate) as).2, Client.results, hres, hstate]
    rfl
  rw [Client.results] at hrun
  split_ifs at hrun ⊢ <;> omega

/-- The attempt does not hang: as long as it is not over the timer is set, and it has run out at
    most eight times. -/
theorem join_expires (s : Client) (ibss : Bool) (bcnInterval : ℕ) (as : List Air) :
    let s' := run airStep (joined s ibss bcnInterval) as
    ¬ s'.state.Linking ∨
      s'.linkTimer.isSome ∧ as.count .expire ≤ reauthLimit + reassocLimit := by
  intro s'
  obtain ⟨hstate, -, htimer⟩ := joined_spec s ibss bcnInterval
  by_cases hl : s'.state.Linking
  · obtain ⟨hset, hspent⟩ := airRun_spends (.waiting hstate) (fun _ => htimer) as hl
    rw [Client.budget, hstate] at hspent
    exact .inr ⟨hset, Nat.lt_succ_iff.mp hspent⟩
  · exact .inl hl

/-! ## An access point that falls silent -/

/-- What is received from a linked access point, and the checks. -/
def traffic : Option RxKind → Air
  | some kind => .rx kind
  | none => .check true

/-- For each check, whether something was received since the last. -/
def heard : Bool → List (Option RxKind) → List Bool
  | _, [] => []
  | _, some _ :: ts => heard true ts
  | b, none :: ts => b :: heard false ts

theorem alive_count (x : RxStats) (kind : RxKind) : (x.count kind).alive = true := by
  have hle := x.last_le kind
  cases kind <;> simp [RxStats.alive, RxStats.count] <;> omega

theorem alive_updateLast (x : RxStats) : x.updateLast.alive = false := by
  simp [RxStats.alive, RxStats.updateLast]

/-- Traffic does not bring a link back. -/
theorem traffic_over (s : Client) (h : s.state = {}) (ts : List (Option RxKind)) :
    (run airStep s (ts.map traffic)).state = {} := by
  induction ts generalizing s with
  | nil => exact h
  | cons t ts ih =>
    refine ih _ ?_
    cases t with
    | some kind => exact h
    | none =>
      rw [traffic, airStep, Client.linkedStatusChk, if_pos (by rw [h]; rfl)]
      exact h

/-- From a link with `retry` silent checks behind it. -/
theorem traffic_dropped_iff (s : Client) (h : s.state.clientAssociated = true)
    (hretry : s.retry ≤ rxChkLimit) (ts : List (Option RxKind)) :
    (run airStep s (ts.map traffic)).state.clientAssociated = false ↔
      List.replicate (rxChkLimit + 1) false <:+:
        List.replicate s.retry false ++ heard s.rx.alive ts := by
  induction ts generalizing s with
  | nil =>
    refine iff_of_false (by rw [List.map_nil, run_nil, h]; decide) fun hin => ?_
    have hle := hin.length_le
    rw [heard, List.append_nil, List.length_replicate, List.length_replicate] at hle
    exact Nat.not_succ_le_self _ (Nat.le_trans hle hretry)
  | cons t ts ih =>
    rw [List.map_cons, run_cons]
    cases t with
    | some kind =>
      rw [heard, ← alive_count s.rx kind]
      exact ih (airStep s (.rx kind)) h hretry
    | none =>
      have hlink : (!s.state.clientAssociated || !true) = false := by rw [h]; rfl
      rw [heard]
      by_cases halive : s.rx.alive = true
      · have hstep : airStep s (traffic none) = { s with rx := s.rx.updateLast, retry := 0 } := by
          rw [traffic, airStep, Client.linkedStatusChk, hlink, if_neg Bool.false_ne_true,
            if_pos halive]
        have hnext := ih { s with rx := s.rx.updateLast, retry := 0 } h (Nat.zero_le _)
        rw [alive_updateLast] at hnext
        rw [hstep, halive, misses_hit_iff (Nat.lt_succ_of_le hretry)]
        exact hnext
      · rw [Bool.not_eq_true] at halive
        have happend : List.replicate s.retry false ++ false :: heard false ts =
            List.replicate (s.retry + 1) false ++ heard false ts := by
          rw [List.replicate_succ', List.append_assoc, List.singleton_append]
        rw [halive, happend]
        by_cases hlimit : s.missed.retry > rxChkLimit
        · have hstep : airStep s (traffic none) =
              s.missed.receiveDisconnect reasonExpirationChk := by
            rw [traffic, airStep, Client.linkedStatusChk, hlink, if_neg Bool.false_ne_true, halive,
              if_neg Bool.false_ne_true, if_pos hlimit]
          have hassoc := Bool.and_eq_true_iff.mp h
          have hover : (s.missed.receiveDisconnect reasonExpirationChk).state = {} := by
            have hrole : s.missed.state.role = .station := of_decide_eq_true hassoc.2
            have hsuccess : s.missed.state.assocSuccess = true := hassoc.1
            rw [Client.receiveDisconnect, if_pos hrole, if_pos hsuccess]
          have heq : s.retry + 1 = rxChkLimit + 1 :=
            Nat.le_antisymm (Nat.succ_le_succ hretry) hlimit
          rw [hstep, traffic_over _ hover, heq]
          exact iff_of_true rfl (List.infix_append' [] _ _)
        · have hstep : airStep s (traffic none) = s.missed := by
            rw [traffic, airStep, Client.linkedStatusChk, hlink, if_neg Bool.false_ne_true, halive,
              if_neg Bool.false_ne_true, if_neg hlimit]
          have hnext := ih s.missed h (Nat.not_lt.mp hlimit)
          rw [show s.missed.rx.alive = false from alive_updateLast s.rx] at hnext
          rw [hstep]
          exact hnext

end Rtl8821au.Mlme.ClientLink
