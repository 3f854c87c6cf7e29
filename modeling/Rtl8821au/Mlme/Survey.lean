import Mathlib.Data.Int.Notation
import Mathlib.Tactic.SplitIfs
import Rtl8821au.Lib.Run
import Rtl8821au.Mlme.ScanChan
import Rtl8821au.Mlme.ScanReq

/-!
# A survey

`sitesurvey_cmd_hdl`, `site_survey` and `survey_timer_hdl` (`rtw_mlme_ext.c`): a command tunes to
one channel and sets a timer, and the timer queues the command for the next. Requests, commands,
expiries and `rtw_scan_abort` come in any order, so that the commands of the timer and of others
stand in the same queue.

* `Sweep.Next`: what a survey is, without commands and timers.
* `command_refined`, `expire_refined`: what a command and an expiry do is a part of a sweep.
* `survey_refines`: so is what any run does.
* `survey_goes_on`: a survey that is under way waits for its timer or a command.

The registers and the null frames are left out.
-/

namespace Rtl8821au.Mlme.Survey

open Run ScanReq

/-! ## State -/

/-- `enum SCAN_STATE`. -/
inductive ScanState where
  | disable
  | start
  | txnull
  | process
  | complete
  deriving DecidableEq, Repr

/-- `struct sitesurvey_parm`; `scanActive` is `scan_mode = SCAN_ACTIVE`. -/
structure Parm extends SitesurveyParm where
  scanActive : Bool := false
  ch : List Ieee80211Channel := []

/-- What a survey does: it takes a list, tunes to an entry and sends probe requests there, is
    aborted, and calls `report_surveydone_event`. -/
inductive Out where
  | begun (list : List Ieee80211Channel)
  | tuned (i : ℕ) (probes : List (Option Ssid))
  | aborted
  | reported

/-- `sitesurvey_res`, `scan_abort`, `survey_timer` and the survey commands that are queued, with a
    log of what was done. -/
structure SsRes where
  state : ScanState := .disable
  channelIdx : ℕ := 0
  chNum : ℕ := 0
  ch : ℕ → Ieee80211Channel := fun _ => ⟨0, 0⟩
  ssid : Ssids := .replicate ssidScanAmount {}
  scanActive : Bool := false
  scanAbort : Bool := false
  surveyTimer : Option ℕ := none
  cmds : List Parm := []
  log : List Out := []

/-- `RTW_CHANNEL_SCAN_AMOUNT`. -/
def channelScanAmount : ℕ := 51

def surveyTo : ℕ := 100

/-! ## Model of the C code -/

namespace SsRes

variable (s : SsRes)

/-- The channels that are to be taken. -/
def list : List Ieee80211Channel := (List.range s.chNum).map s.ch

def surveyChannel : UInt8 :=
  if s.channelIdx < s.chNum then (s.ch s.channelIdx).hwValue.toUInt8 else 0

/-- The probe requests of `site_survey` (lines 4497–4517); `none` is the one without an SSID. -/
def probes : List (Option Ssid) :=
  if (s.ch s.channelIdx).flags &&& chanPassiveScan ≠ 0 then []
  else
    (s.ssid.toList.filter (·.ssidLength ≠ 0)).flatMap (fun x => [some x, some x]) ++
      if s.scanActive then [none, none] else []

/-- `site_survey` (lines 4454–4574). -/
def siteSurvey : SsRes :=
  if s.surveyChannel ≠ 0 then
    { s with log := s.log ++ [.tuned s.channelIdx s.probes], surveyTimer := some surveyTo }
  else { s with log := s.log ++ [.reported], state := .disable }

/-- The parameters of a survey that begins (lines 6139–6158). The search for a channel may leave
    the channel set: then the list is whatever `beyond` says. -/
def startSurvey (set : ChannelSet) (setband : ℕ) (beyond : ℕ × ScanOut) (parm : Parm) : SsRes :=
  let (n, o) := (rtwScanChDecision set setband channelScanAmount parm.ch s.ch).getD beyond
  { s with
    state := .start
    channelIdx := 0
    ssid := .ofFn fun i =>
      if (parm.ssid.get i).ssidLength ≠ 0 then parm.ssid.get i
      else { s.ssid.get i with ssidLength := 0 }
    ch := o.mem
    chNum := n
    scanActive := parm.scanActive
    log := s.log ++ [.begun ((List.range n).map o.mem)] }

/-- `sitesurvey_cmd_hdl` (lines 6128–6199). -/
def sitesurveyCmdHdl (set : ChannelSet) (setband : ℕ) (beyond : ℕ × ScanOut) (associated : Bool)
    (parm : Parm) : SsRes :=
  let s' := if s.state = .disable then s.startSurvey set setband beyond parm else s
  if s.state = .disable ∧ associated then { s' with state := .txnull, surveyTimer := some 50 }
  else if s'.state = .start ∨ s'.state = .txnull then { s' with state := .process }.siteSurvey
  else s'.siteSurvey

/-- `survey_timer_hdl` (lines 5630–5678), if there is `memory` for the command. -/
def surveyTimerHdl (memory : Bool) : SsRes :=
  if s.state = .disable ∨ s.state = .start then s
  else
    let s := if s.state = .process then { s with channelIdx := s.channelIdx + 1 } else s
    let s :=
      if s.scanAbort then
        { s with channelIdx := s.chNum, scanAbort := false, log := s.log ++ [.aborted] }
      else s
    if memory then { s with cmds := s.cmds ++ [{}] } else s

end SsRes

/-! ## Runs -/

/-- What happens to the survey. -/
inductive Event where
  | request (parm : Parm)
  | command (associated : Bool)
  | expire (memory : Bool)
  | abort (on : Bool)

section events

variable (set : ChannelSet) (setband : ℕ) (beyond : ℕ × ScanOut)

/-- One event; commands are taken in the order in which they were queued. -/
def step (s : SsRes) : Event → SsRes
  | .request parm => { s with cmds := s.cmds ++ [parm] }
  | .command associated =>
    match s.cmds with
    | [] => s
    | parm :: rest =>
      { s with cmds := rest }.sitesurveyCmdHdl set setband beyond associated parm
  | .expire memory =>
    if s.surveyTimer.isSome then { s with surveyTimer := none }.surveyTimerHdl memory else s
  | .abort on => { s with scanAbort := on }

end events

/-! ## What a survey is -/

/-- No survey, or one that has taken the entries of its list below `next`. -/
inductive Sweep where
  | idle
  | under (list : List Ieee80211Channel) (next : ℕ) (cut : Bool)

/-- A survey takes the entries of its list one after the other, where a foreign command may repeat
    the last, and probes no passive channel. It is reported when it has come to an entry without
    a channel or to the end of the list, or else when it is cut. -/
inductive Sweep.Next : Sweep → Out → Sweep → Prop
  | begun (list : List Ieee80211Channel) : Next .idle (.begun list) (.under list 0 false)
  | tuned {list : List Ieee80211Channel} {next i : ℕ} {c : Ieee80211Channel}
      {probes : List (Option Ssid)} (hi : i = next ∨ i + 1 = next) (h : list[i]? = some c)
      (hc : c.hwValue.toUInt8 ≠ 0) (hpassive : c.flags &&& chanPassiveScan ≠ 0 → probes = []) :
      Next (.under list next false) (.tuned i probes) (.under list (i + 1) false)
  | cut {list : List Ieee80211Channel} {next : ℕ} :
      Next (.under list next false) .aborted (.under list next true)
  | over {list : List Ieee80211Channel} {next : ℕ} {cut : Bool}
      (h : cut = true ∨ ∀ c, list[next]? = some c → c.hwValue.toUInt8 = 0) :
      Next (.under list next cut) .reported .idle

/-- How far the sweep is that the state is in. -/
inductive At (s : SsRes) : Sweep → Prop
  | idle (h : s.state = .disable) : At s .idle
  | delayed (h : s.state = .txnull) (hidx : s.channelIdx = 0) : At s (.under s.list 0 false)
  | due (h : s.state = .process) (htimer : s.surveyTimer = none) :
      At s (.under s.list s.channelIdx false)
  | taken (h : s.state = .process) (hch : s.surveyChannel ≠ 0) :
      At s (.under s.list (s.channelIdx + 1) false)
  | cut {next : ℕ} (h : s.state = .txnull ∨ s.state = .process) (hidx : s.chNum ≤ s.channelIdx)
      (htimer : s.surveyTimer = none) : At s (.under s.list next true)

/-- The log is a sequence of sweeps, up to the place where the state is. -/
def Refined (s : SsRes) : Prop := ∃ p, Accepts Sweep.Next .idle s.log p ∧ At s p

/-! ## Commands and expiries -/

section steps

variable {s : SsRes}

theorem list_get (i : ℕ) : s.list[i]? = if i < s.chNum then some (s.ch i) else none := by
  rw [SsRes.list, List.getElem?_map]
  split_ifs with h
  · rw [List.getElem?_range h]
    rfl
  · rw [List.getElem?_eq_none (by rw [List.length_range]; exact Nat.not_lt.mp h)]
    rfl

theorem At.state {p : Sweep} (h : At s p) :
    (p = .idle ∧ s.state = .disable) ∨ (p ≠ .idle ∧ (s.state = .txnull ∨ s.state = .process)) := by
  cases h with
  | idle h => exact .inl ⟨rfl, h⟩
  | delayed h => exact .inr ⟨nofun, .inl h⟩
  | due h => exact .inr ⟨nofun, .inr h⟩
  | taken h => exact .inr ⟨nofun, .inr h⟩
  | cut h => exact .inr ⟨nofun, h⟩

/-- The queue and the wish to abort do not count. -/
theorem Refined.other (h : Refined s) (cmds : List Parm) (on : Bool) :
    Refined { s with cmds := cmds, scanAbort := on } := by
  obtain ⟨p, hacc, hat⟩ := h
  refine ⟨p, hacc, ?_⟩
  cases hat with
  | idle h => exact .idle h
  | delayed h hidx => exact .delayed h hidx
  | due h htimer => exact .due h htimer
  | taken h hch => exact .taken h hch
  | cut h hidx htimer => exact .cut h hidx htimer

/-- `SCAN_START` does not outlast the command. -/
theorem Refined.state_ne (h : Refined s) : s.state ≠ .start := by
  obtain ⟨p, -, hat⟩ := h
  obtain ⟨-, h⟩ | ⟨-, h | h⟩ := hat.state <;> rw [h] <;> decide

/-- `site_survey` goes on with a sweep that is at its channel, or has just been there. -/
theorem siteSurvey_refined {next : ℕ} {cut : Bool} (hstate : s.state = .process)
    (hacc : Accepts Sweep.Next .idle s.log (.under s.list next cut))
    (hat : (cut = true ∧ s.chNum ≤ s.channelIdx) ∨ (cut = false ∧ s.channelIdx = next) ∨
      (cut = false ∧ s.channelIdx + 1 = next ∧ s.surveyChannel ≠ 0)) :
    Refined s.siteSurvey := by
  rw [SsRes.siteSurvey]
  by_cases hch : s.surveyChannel ≠ 0
  · rw [if_pos hch]
    have hlt : s.channelIdx < s.chNum := by
      by_contra hge
      rw [SsRes.surveyChannel, if_neg hge] at hch
      exact hch rfl
    have hget : s.list[s.channelIdx]? = some (s.ch s.channelIdx) := by rw [list_get, if_pos hlt]
    have hvalue : (s.ch s.channelIdx).hwValue.toUInt8 ≠ 0 := by
      rwa [SsRes.surveyChannel, if_pos hlt] at hch
    have hpassive : (s.ch s.channelIdx).flags &&& chanPassiveScan ≠ 0 → s.probes = [] :=
      fun hp => by rw [SsRes.probes, if_pos hp]
    obtain ⟨-, hge⟩ | ⟨rfl, hnext⟩ | ⟨rfl, hnext, -⟩ := hat
    · exact absurd hlt (Nat.not_lt.mpr hge)
    · exact ⟨_, hacc.snoc (.tuned (.inl hnext) hget hvalue hpassive), .taken hstate hch⟩
    · exact ⟨_, hacc.snoc (.tuned (.inr hnext) hget hvalue hpassive), .taken hstate hch⟩
  · rw [if_neg hch]
    refine ⟨_, hacc.snoc (.over ?_), .idle rfl⟩
    obtain ⟨hcut, -⟩ | ⟨-, rfl⟩ | ⟨-, -, hne⟩ := hat
    · exact .inl hcut
    · refine .inr fun c hc => ?_
      rw [list_get] at hc
      split_ifs at hc with hlt
      rw [SsRes.surveyChannel, if_pos hlt, not_ne_iff] at hch
      rwa [← Option.some.inj hc]
    · exact absurd hne hch

theorem command_refined (set : ChannelSet) (setband : ℕ) (beyond : ℕ × ScanOut)
    (associated : Bool) (parm : Parm) (h : Refined s) :
    Refined (s.sitesurveyCmdHdl set setband beyond associated parm) := by
  obtain ⟨p, hacc, hat⟩ := h
  rw [SsRes.sitesurveyCmdHdl]
  by_cases hdis : s.state = .disable
  · have hidle : p = .idle :=
      hat.state.elim And.left fun h => by
        rcases h.2 with h | h <;> exact absurd (h.symm.trans hdis) (by decide)
    subst hidle
    rw [if_pos hdis]
    have hbegun : Accepts Sweep.Next .idle (s.startSurvey set setband beyond parm).log
        (.under (s.startSurvey set setband beyond parm).list 0 false) := hacc.snoc (.begun _)
    cases associated with
    | true =>
      rw [if_pos ⟨hdis, rfl⟩]
      exact ⟨_, hbegun, .delayed rfl rfl⟩
    | false =>
      rw [if_neg (fun h => Bool.false_ne_true h.2), if_pos (.inl rfl)]
      exact siteSurvey_refined rfl hbegun (.inr (.inl ⟨rfl, rfl⟩))
  · rw [if_neg hdis, if_neg (fun h => hdis h.1)]
    have hgo : ∀ s' : SsRes, s' = { s with state := .process } → Refined s'.siteSurvey := by
      rintro _ rfl
      cases hat with
      | idle h => exact absurd h hdis
      | delayed h hidx => exact siteSurvey_refined rfl hacc (.inr (.inl ⟨rfl, hidx⟩))
      | due h => exact siteSurvey_refined rfl hacc (.inr (.inl ⟨rfl, rfl⟩))
      | taken h hch => exact siteSurvey_refined rfl hacc (.inr (.inr ⟨rfl, rfl, hch⟩))
      | cut h hidx => exact siteSurvey_refined rfl hacc (.inl ⟨rfl, hidx⟩)
    split_ifs with hstate
    · exact hgo _ rfl
    · refine hgo s ?_
      have hproc : s.state = .process := by
        obtain ⟨-, h⟩ | ⟨-, h | h⟩ := hat.state
        · exact absurd h hdis
        · exact absurd (.inr h) hstate
        · exact h
      rw [← hproc]

theorem expire_refined (memory : Bool) (h : Refined s) (htimer : s.surveyTimer.isSome) :
    Refined ({ s with surveyTimer := none }.surveyTimerHdl memory) := by
  obtain ⟨p, hacc, hat⟩ := h
  have hqueue : ∀ s' : SsRes, Refined s' →
      Refined (if memory then { s' with cmds := s'.cmds ++ [{}] } else s') := by
    intro s' h'
    cases memory with
    | true => exact h'.other _ _
    | false => exact h'
  have hcut : ∀ (s' : SsRes) (next : ℕ), s'.state = .txnull ∨ s'.state = .process →
      s'.surveyTimer = none → Accepts Sweep.Next .idle s'.log (.under s'.list next false) →
      Refined { s' with
        channelIdx := s'.chNum, scanAbort := false, log := s'.log ++ [.aborted] } :=
    fun s' next hstate htimer hacc =>
      ⟨_, hacc.snoc .cut, .cut hstate (Nat.le_refl _) htimer⟩
  rw [SsRes.surveyTimerHdl]
  cases hat with
  | idle h =>
    rw [if_pos (.inl h)]
    exact ⟨_, hacc, .idle h⟩
  | delayed h hidx =>
    have hrun : ¬ (s.state = .disable ∨ s.state = .start) := by rw [h]; decide
    have hproc : s.state ≠ .process := by rw [h]; decide
    rw [if_neg hrun]
    refine hqueue _ ?_
    simp only [if_neg hproc]
    split_ifs
    · exact hcut { s with surveyTimer := none } 0 (.inl h) rfl hacc
    · exact ⟨_, hacc, .delayed h hidx⟩
  | taken h hch =>
    have hrun : ¬ (s.state = .disable ∨ s.state = .start) := by rw [h]; decide
    rw [if_neg hrun]
    refine hqueue _ ?_
    simp only [if_pos h]
    split_ifs
    · exact hcut { s with surveyTimer := none, channelIdx := s.channelIdx + 1 } _ (.inr h) rfl hacc
    · exact ⟨_, hacc, .due h rfl⟩
  | due h hnone => exact absurd htimer (by rw [hnone]; exact Bool.false_ne_true)
  | cut h hidx hnone => exact absurd htimer (by rw [hnone]; exact Bool.false_ne_true)

/-- A survey that is under way waits for its timer or a command. -/
def Waits (s : SsRes) : Prop := s.state = .disable ∨ s.surveyTimer.isSome ∨ s.cmds ≠ []

theorem siteSurvey_waits (s : SsRes) : Waits s.siteSurvey := by
  rw [SsRes.siteSurvey]
  split_ifs
  · exact .inr (.inl rfl)
  · exact .inl rfl

theorem command_waits (set : ChannelSet) (setband : ℕ) (beyond : ℕ × ScanOut) (associated : Bool)
    (parm : Parm) : Waits (s.sitesurveyCmdHdl set setband beyond associated parm) := by
  rw [SsRes.sitesurveyCmdHdl]
  generalize (if s.state = .disable then s.startSurvey set setband beyond parm else s) = s'
  split_ifs
  · exact .inr (.inl rfl)
  · exact siteSurvey_waits _
  · exact siteSurvey_waits _

theorem timer_waits (h : s.state ≠ .start) : Waits (s.surveyTimerHdl true) := by
  rw [SsRes.surveyTimerHdl]
  by_cases hstate : s.state = .disable ∨ s.state = .start
  · rw [if_pos hstate]
    exact .inl (hstate.resolve_right h)
  · rw [if_neg hstate]
    exact .inr (.inr (List.append_ne_nil_of_right_ne_nil _ (List.cons_ne_nil _ _)))

end steps

theorem start_refined : Refined {} := ⟨.idle, .nil, .idle rfl⟩

section runs

variable (set : ChannelSet) (setband : ℕ) (beyond : ℕ × ScanOut)

theorem step_refined (s : SsRes) (e : Event) (h : Refined s) :
    Refined (step set setband beyond s e) := by
  cases e with
  | request parm => exact h.other _ _
  | command associated =>
    rw [step]
    split
    · exact h
    · exact command_refined set setband beyond associated _ (h.other _ _)
  | expire memory =>
    rw [step]
    split_ifs with htimer
    · exact expire_refined memory h htimer
    · exact h
  | abort on => exact h.other _ on

theorem step_waits (s : SsRes) (e : Event) (hmem : e ≠ .expire false) (hr : Refined s)
    (h : Waits s) : Waits (step set setband beyond s e) := by
  cases e with
  | request parm => exact .inr (.inr (List.append_ne_nil_of_right_ne_nil _ (List.cons_ne_nil _ _)))
  | command associated =>
    rw [step]
    split
    · exact h
    · exact command_waits set setband beyond associated _
  | expire memory =>
    have htrue : memory = true := by
      cases memory with
      | false => exact absurd rfl hmem
      | true => rfl
    rw [step, htrue]
    split_ifs
    · exact timer_waits hr.state_ne
    · exact h
  | abort on => exact h

/-- Whatever requests, commands, expiries and aborts come, in whatever order, the surveys sweep
    their lists, one survey after the other, and each is reported once. -/
theorem survey_refines (es : List Event) :
    let s := run (step set setband beyond) {} es
    ∃ p, Accepts Sweep.Next .idle s.log p ∧ (p = .idle ↔ s.state = .disable) := by
  intro s
  obtain ⟨p, hacc, hat⟩ : Refined s :=
    invariant_run (fun s e _ h => step_refined set setband beyond s e h)
      (guarded_of_forall _ fun _ _ => trivial) start_refined
  refine ⟨p, hacc, ?_⟩
  obtain ⟨hp, h⟩ | ⟨hp, h⟩ := hat.state
  · exact iff_of_true hp h
  · exact iff_of_false hp (by rcases h with h | h <;> rw [h] <;> decide)

/-- A survey does not hang, unless there is no memory for the command of its timer: while it is
    under way its timer is set or a command is queued. -/
theorem survey_goes_on (es : List Event) :
    .expire false ∈ es ∨
      let s := run (step set setband beyond) {} es
      s.state = .disable ∨ s.surveyTimer.isSome ∨ s.cmds ≠ [] := by
  by_cases hmem : .expire false ∈ es
  · exact .inl hmem
  · have hstep : ∀ (s : SsRes) (e : Event), e ≠ .expire false → Refined s ∧ Waits s →
        Refined (step set setband beyond s e) ∧ Waits (step set setband beyond s e) :=
      fun s e he h => ⟨step_refined set setband beyond s e h.1,
        step_waits set setband beyond s e he h.1 h.2⟩
    exact .inr (invariant_run hstep (guarded_of_forall _ fun e he heq => hmem (heq ▸ he))
      ⟨start_refined, .inl rfl⟩).2

end runs

end Rtl8821au.Mlme.Survey
