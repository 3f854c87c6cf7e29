import Mathlib.Tactic.SplitIfs
import Mathlib.Data.List.Basic
import Mathlib.Data.List.Range
import Mathlib.Data.List.TakeWhile

/-!
# The channels of a survey

`rtw_scan_ch_decision` (`rtw_mlme_ext.c`) fills `out` in place: first the requested channels that
`rtw_ch_set_search_ch` finds in the channel set, or the whole set if there is none, then one pass
for the band.

* `searchOk_iff`: when the search returns the index of every channel of the set and of no other.
* `acquire_eq`, `useChannelSet_eq`: what the first pass writes.
* `filter24_eq`, `filter50_spec`: what the pass for the band leaves.
* `scan_channels_iff`: when the list is the requested one.

`flags &= RTW_IEEE80211_CHAN_PASSIVE_SCAN` sets no bit, the 2.4 GHz pass leaves holes, and a full
channel set has no terminator.
-/

namespace Rtl8821au.Mlme

/-! ## Channel set -/

/-- `RT_SCAN_TYPE`. -/
inductive RtScanType where
  | scanPassive
  | scanActive
  deriving DecidableEq, Repr

/-- `RT_CHANNEL_INFO` (`rtw_mlme_ext.h`, lines 383–390). -/
structure RtChannelInfo where
  channelNum : UInt8
  scanType : RtScanType
  deriving DecidableEq, Repr

/-- `MAX_CHANNEL_NUM`. -/
def channelNumMax : ℕ := 38

/-- `channel_set` and its `max_chan_nums` entries. -/
structure ChannelSet where
  chans : List RtChannelInfo
  length_le : chans.length ≤ channelNumMax
  channelNum_ne : ∀ c ∈ chans, c.channelNum ≠ 0

/-- The array: `init_channel_set` clears it first. -/
def ChannelSet.mem (set : ChannelSet) : List RtChannelInfo :=
  set.chans ++ List.replicate (channelNumMax - set.chans.length) ⟨0, .scanPassive⟩

/-- The loop of `rtw_ch_set_search_ch`: where it stops, or `none` behind the array. -/
def searchLoop (ch : ℕ) : List RtChannelInfo → ℕ → Option ℕ
  | [], _ => none
  | c :: rest, i =>
    if c.channelNum = 0 then some i
    else if ch = c.channelNum.toNat then some i
    else searchLoop ch rest (i + 1)

/-- `rtw_ch_set_search_ch` (`rtw_mlme_ext.c`, lines 157–168). -/
def rtwChSetSearchCh (set : ChannelSet) (ch : ℕ) : Option ℤ :=
  match searchLoop ch set.mem 0 with
  | none => none
  | some i =>
    if i ≥ ((set.mem.map fun c => c.channelNum.toNat).getD i 0) then some (-1) else some i

/-! ## Channels of a survey -/

/-- `struct rtw_ieee80211_channel` (`ieee80211.h`, lines 1016–1028). -/
structure Ieee80211Channel where
  hwValue : UInt16
  flags : UInt32
  deriving DecidableEq, Repr

/-- `RTW_IEEE80211_CHAN_DISABLED` and `RTW_IEEE80211_CHAN_PASSIVE_SCAN`. -/
def chanDisabled : UInt32 := 1

def chanPassiveScan : UInt32 := 2

/-- The array `out` and the entries that are written. -/
structure ScanOut where
  mem : ℕ → Ieee80211Channel
  writes : List ℕ

def ScanOut.write (o : ScanOut) (i : ℕ) (c : Ieee80211Channel) : ScanOut where
  mem := Function.update o.mem i c
  writes := i :: o.writes

/-- "acquire channels from in" (lines 6075–6095): `none` if the search leaves the set. -/
def acquire (set : ChannelSet) (outNum : ℕ) :
    List Ieee80211Channel → ℕ → ScanOut → Option (ℕ × ScanOut)
  | [], j, o => some (j, o)
  | c :: rest, j, o =>
    match
      if c.hwValue ≠ 0 ∧ c.flags &&& chanDisabled = 0 then rtwChSetSearchCh set c.hwValue.toNat
      else some (-1) with
    | none => none
    | some setIdx =>
      let (j, o) :=
        if setIdx ≥ 0 then
          let passive := (set.mem[setIdx.toNat]?.map RtChannelInfo.scanType) = some .scanPassive
          (j + 1,
            o.write j (if passive then { c with flags := c.flags &&& chanPassiveScan } else c))
        else (j, o)
      if j ≥ outNum then some (j, o) else acquire set outNum rest j o

/-- "if out is empty, use channel_set as default" (lines 6097–6107). -/
def useChannelSet : List RtChannelInfo → ℕ → ScanOut → ScanOut
  | [], _, o => o
  | c :: rest, i, o =>
    let flags := (o.mem i).flags
    useChannelSet rest (i + 1)
      (o.write i
        { hwValue := c.channelNum.toUInt16
          flags := if c.scanType = .scanPassive then flags &&& chanPassiveScan else flags })

/-- The 2.4 GHz pass (lines 6110–6116). -/
def filter24 (o : ScanOut) (j : ℕ) : ℕ × ScanOut :=
  (List.range j).foldl
    (fun (scanChNum, o) i =>
      if (o.mem i).hwValue > 35 then (scanChNum, o.write i ⟨0, 0⟩) else (scanChNum + 1, o))
    (0, o)

/-- The 5 GHz pass (lines 6118–6123). -/
def filter50 (o : ScanOut) (j : ℕ) : ℕ × ScanOut :=
  (List.range j).foldl
    (fun (scanChNum, o) i =>
      if (o.mem i).hwValue > 35 then (scanChNum + 1, o.write scanChNum (o.mem i))
      else (scanChNum, o))
    (0, o)

/-- `GHZ_50` and `GHZ_24` (`rtw_mlme.h`, lines 111–113). -/
def ghz50 : ℕ := 1

def ghz24 : ℕ := 2

/-- The pass for the band, if one is selected (lines 6109–6125). -/
def bandPass (setband j : ℕ) (o : ScanOut) : ℕ × ScanOut :=
  if setband = ghz24 then filter24 o j
  else if setband = ghz50 then filter50 o j
  else (j, o)

/-- "clear out first"; `mem0` is what `out` and the memory behind it hold. -/
def clearOut (outNum : ℕ) (mem0 : ℕ → Ieee80211Channel) : ScanOut where
  mem i := if i < outNum then ⟨0, 0⟩ else mem0 i
  writes := []

/-- `rtw_scan_ch_decision` (lines 6064–6126). -/
def rtwScanChDecision (set : ChannelSet) (setband outNum : ℕ) (inn : List Ieee80211Channel)
    (mem0 : ℕ → Ieee80211Channel) : Option (ℕ × ScanOut) :=
  match acquire set outNum inn 0 (clearOut outNum mem0) with
  | none => none
  | some (j, o) =>
    if j = 0 then some (bandPass setband set.chans.length (useChannelSet set.chans 0 o))
    else some (bandPass setband j o)

/-- `RTW_ChannelPlan2G` and `RTW_ChannelPlan5G` (lines 140–149). -/
def rtwChannelPlan2G : List UInt8 := [1, 2, 3, 4, 5, 6, 7, 8, 9, 10, 11, 12, 13, 14]

def rtwChannelPlan5G : List UInt8 :=
  [36, 40, 44, 48, 52, 56, 60, 64, 100, 104, 108, 112, 116, 120, 124, 128, 132, 136, 140, 149,
    153, 157, 161, 165]

/-- `RT_CHANNEL_DOMAIN_WORLD_WIDE_5G`, `RT_CHANNEL_DOMAIN_MAX` and
    `RT_CHANNEL_DOMAIN_REALTEK_DEFINE`. -/
def worldWide5G : ℕ := 0x13

def channelDomainMax : ℕ := 0x42

def realtekDefine : ℕ := 0x7f

/-- Both `RT_CHANNEL_DOMAIN_GLOBAL_DOAMIN`s and `RT_CHANNEL_DOMAIN_2G_WORLD`, which `Index2G`
    always is, make the same of a channel. -/
def scanType2G (ch : UInt8) : RtScanType := if ch ≤ 11 then .scanActive else .scanPassive

/-- With `CONFIG_DFS`; the other branch does not fit `RTW_ChannelPlan5G`. -/
def scanType5G (channelPlan : ℕ) (ch : UInt8) : RtScanType :=
  if ch ≤ 48 ∨ ch ≥ 149 then
    if channelPlan = worldWide5G then .scanPassive else .scanActive
  else .scanPassive

/-- `init_channel_set` (lines 309–389). -/
def initChannelSet (channelPlan : ℕ) : List RtChannelInfo :=
  if channelPlan ≥ channelDomainMax ∧ channelPlan ≠ realtekDefine then []
  else
    rtwChannelPlan2G.map (fun ch => ⟨ch, scanType2G ch⟩) ++
      rtwChannelPlan5G.map (fun ch => ⟨ch, scanType5G channelPlan ch⟩)

/-- Both plans together fill the array. -/
theorem initChannelSet_spec (channelPlan : ℕ) :
    (initChannelSet channelPlan).length ≤ channelNumMax ∧
      ∀ c ∈ initChannelSet channelPlan, c.channelNum ≠ 0 := by
  unfold initChannelSet
  split_ifs
  · exact ⟨Nat.zero_le _, fun _ hc => absurd hc List.not_mem_nil⟩
  · refine ⟨by simp only [List.length_append, List.length_map]; decide, fun c hc => ?_⟩
    have hplan : c.channelNum ∈ rtwChannelPlan2G ++ rtwChannelPlan5G := by
      rw [List.mem_append] at hc ⊢
      refine hc.imp (fun hc => ?_) fun hc => ?_ <;>
      · obtain ⟨ch, hch, rfl⟩ := List.mem_map.mp hc
        exact hch
    exact (by decide +kernel : ∀ ch ∈ rtwChannelPlan2G ++ rtwChannelPlan5G, ch ≠ 0) _ hplan

def ChannelSet.ofPlan (channelPlan : ℕ) : ChannelSet :=
  ⟨initChannelSet channelPlan, (initChannelSet_spec channelPlan).1,
    (initChannelSet_spec channelPlan).2⟩

/-! ## The property -/

namespace ChannelSet

variable (set : ChannelSet)

/-- The channel `ch` is in the set. -/
def Has (ch : ℕ) : Prop := ∃ c ∈ set.chans, c.channelNum.toNat = ch

instance (ch : ℕ) : Decidable (set.Has ch) := inferInstanceAs (Decidable (∃ c ∈ _, _))

/-- The first entry of `ch`. -/
def index (ch : ℕ) : ℕ := set.chans.findIdx fun c => c.channelNum.toNat = ch

/-- The set marks `ch` passive. -/
def Passive (ch : ℕ) : Prop :=
  (set.chans.find? fun c => c.channelNum.toNat = ch).map RtChannelInfo.scanType =
    some .scanPassive

instance (ch : ℕ) : Decidable (set.Passive ch) := inferInstanceAs (Decidable (_ = _))

/-- The search ends inside the set and returns an index of `ch` exactly if there is one. -/
def SearchOk (ch : ℕ) : Prop :=
  ∃ r, rtwChSetSearchCh set ch = some r ∧ (0 ≤ r ↔ set.Has ch) ∧
    (0 ≤ r → (set.chans[r.toNat]?.map fun c => c.channelNum.toNat) = some ch)

/-- The requested channels that are enabled and in the set. -/
def wanted (inn : List Ieee80211Channel) : List Ieee80211Channel :=
  inn.filter fun c => c.hwValue ≠ 0 ∧ c.flags &&& chanDisabled = 0 ∧ set.Has c.hwValue.toNat

/-- The requested channels, or the set if none was requested. -/
def chosen (inn : List Ieee80211Channel) : List Ieee80211Channel :=
  if set.wanted inn = [] then set.chans.map fun c => ⟨c.channelNum.toUInt16, 0⟩
  else set.wanted inn

end ChannelSet

/-- The band that is selected. -/
def inBand (setband : ℕ) (c : Ieee80211Channel) : Bool :=
  if setband = ghz24 then c.hwValue ≤ 35 else if setband = ghz50 then c.hwValue > 35 else true

/-- The list that is asked for. -/
def ChannelSet.expected (set : ChannelSet) (setband outNum : ℕ) (inn : List Ieee80211Channel) :
    List Ieee80211Channel :=
  ((set.chosen inn).filter (inBand setband)).take outNum

/-- `rtw_scan_ch_decision` stays inside `out`, and what it returns there is the list that is
    asked for, with the passive channels marked. -/
def ScanOk (set : ChannelSet) (setband outNum : ℕ) (inn : List Ieee80211Channel)
    (mem0 : ℕ → Ieee80211Channel) : Prop :=
  ∃ n o, rtwScanChDecision set setband outNum inn mem0 = some (n, o) ∧
    (∀ i ∈ o.writes, i < outNum) ∧
    ((List.range n).map fun i => (o.mem i).hwValue) =
      (set.expected setband outNum inn).map Ieee80211Channel.hwValue ∧
    ∀ i < n, set.Passive (o.mem i).hwValue.toNat → (o.mem i).flags &&& chanPassiveScan ≠ 0

/-! ## The condition -/

/-- An entry is left for the terminator, and the first entry of a channel is at an index below
    its number. -/
structure ChannelSet.Searchable (set : ChannelSet) : Prop where
  terminated : set.chans.length < channelNumMax
  index_lt : ∀ ch, set.Has ch → set.index ch < ch

/-- The channels of the 2.4 GHz band come first if it is selected; if the 5 GHz band is, the
    other channels take no room that is needed. -/
structure ChannelSet.BandWell (set : ChannelSet) (setband outNum : ℕ)
    (inn : List Ieee80211Channel) : Prop where
  first : setband = ghz24 → ((set.chosen inn).takeWhile (inBand setband)).take outNum =
    ((set.chosen inn).filter (inBand setband)).take outNum
  noRoomLost : setband = ghz50 → ((set.chosen inn).take outNum).filter (inBand setband) =
    ((set.chosen inn).filter (inBand setband)).take outNum

/-- There is room for the request, its order suits the band, and passive channels are requested
    as passive. -/
structure ScanWell (set : ChannelSet) (setband outNum : ℕ) (inn : List Ieee80211Channel) :
    Prop extends set.BandWell setband outNum inn where
  room : if set.wanted inn = [] then set.chans.length ≤ outNum else 0 < outNum
  marked : ∀ c ∈ set.expected setband outNum inn, set.Passive c.hwValue.toNat →
    c.flags &&& chanPassiveScan ≠ 0

/-! ## The search -/

section search

variable {set : ChannelSet} {ch : ℕ}

theorem searchLoop_append {l : List RtChannelInfo} (hl : ∀ c ∈ l, c.channelNum ≠ 0)
    (rest : List RtChannelInfo) (i : ℕ) :
    searchLoop ch (l ++ rest) i =
      if ∃ c ∈ l, c.channelNum.toNat = ch then
        some (i + l.findIdx fun c => c.channelNum.toNat = ch)
      else searchLoop ch rest (i + l.length) := by
  induction l generalizing i with
  | nil => simp
  | cons c l ih =>
    have hne := hl c List.mem_cons_self
    rw [List.cons_append, searchLoop, if_neg hne, List.findIdx_cons]
    by_cases hc : c.channelNum.toNat = ch
    · rw [if_pos hc.symm, if_pos ⟨c, List.mem_cons_self, hc⟩]
      simp [hc]
    · rw [if_neg fun h => hc h.symm, ih (fun x hx => hl x (List.mem_cons_of_mem c hx))]
      simp only [List.mem_cons, exists_eq_or_imp, hc, false_or, decide_false, cond_false,
        List.length_cons]
      split_ifs
      · congr 1
        omega
      · congr 1
        omega

/-- The first entry of a channel of the set. -/
theorem index_spec (h : set.Has ch) :
    ∃ hlt : set.index ch < set.chans.length, set.chans[set.index ch].channelNum.toNat = ch := by
  have hlt : set.index ch < set.chans.length := by
    obtain ⟨c, hc, hch⟩ := h
    exact List.findIdx_lt_length.mpr ⟨c, hc, decide_eq_true hch⟩
  have hp : decide (set.chans[set.index ch].channelNum.toNat = ch) = true :=
    @List.findIdx_getElem RtChannelInfo (fun c => c.channelNum.toNat = ch) set.chans hlt
  exact ⟨hlt, of_decide_eq_true hp⟩

theorem searchLoop_mem (set : ChannelSet) (ch : ℕ) :
    searchLoop ch set.mem 0 =
      if set.Has ch then some (set.index ch)
      else searchLoop ch
        (List.replicate (channelNumMax - set.chans.length) ⟨0, .scanPassive⟩) set.chans.length := by
  have happend := @searchLoop_append ch set.chans set.channelNum_ne
    (List.replicate (channelNumMax - set.chans.length) ⟨0, .scanPassive⟩) 0
  rw [Nat.zero_add, Nat.zero_add] at happend
  exact happend

/-- The index is below the number, or the channel is not found. -/
theorem rtwChSetSearchCh_of_has (h : set.Has ch) :
    rtwChSetSearchCh set ch =
      if set.index ch ≥ ch then some (-1) else some (set.index ch : ℤ) := by
  obtain ⟨hlt, hch⟩ := index_spec h
  have hnum : (set.mem.map fun c => c.channelNum.toNat).getD (set.index ch) 0 = ch := by
    rw [ChannelSet.mem, List.map_append, List.getD_eq_getElem?_getD,
      List.getElem?_append_left (by rwa [List.length_map]), List.getElem?_map,
      List.getElem?_eq_getElem hlt, Option.map_some, Option.getD_some, hch]
  rw [rtwChSetSearchCh, searchLoop_mem, if_pos h]
  dsimp only
  rw [hnum]

/-- Without a terminator the loop leaves the array. -/
theorem rtwChSetSearchCh_of_not_has (h : ¬set.Has ch) :
    rtwChSetSearchCh set ch =
      if set.chans.length < channelNumMax then some (-1) else none := by
  rw [rtwChSetSearchCh, searchLoop_mem, if_neg h, ChannelSet.mem]
  split_ifs with hlt
  · obtain ⟨k, hk⟩ : ∃ k, channelNumMax - set.chans.length = k + 1 :=
      ⟨_, (Nat.succ_pred (by omega)).symm⟩
    rw [hk, List.replicate_succ, searchLoop, if_pos rfl]
    simp
  · rw [Nat.sub_eq_zero_of_le (Nat.le_of_not_lt hlt), List.replicate_zero, searchLoop]

theorem searchOk_iff : (∀ ch, set.SearchOk ch) ↔ set.Searchable := by
  constructor
  · intro h
    constructor
    · by_contra hfull
      have habsent : ¬set.Has 256 := by
        rintro ⟨c, -, hc⟩
        have := c.channelNum.toNat_lt
        omega
      obtain ⟨r, hr, -⟩ := h 256
      rw [rtwChSetSearchCh_of_not_has habsent, if_neg hfull] at hr
      cases hr
    · intro ch hhas
      obtain ⟨r, hr, hiff, -⟩ := h ch
      by_contra hge
      rw [rtwChSetSearchCh_of_has hhas, if_pos (Nat.le_of_not_lt hge)] at hr
      have := hiff.mpr hhas
      obtain rfl := Option.some.inj hr
      omega
  · intro h ch
    by_cases hhas : set.Has ch
    · have hlt := h.index_lt ch hhas
      refine ⟨_, (rtwChSetSearchCh_of_has hhas).trans (if_neg (Nat.not_le_of_lt hlt)), ?_, ?_⟩
      · exact ⟨fun _ => hhas, fun _ => Int.natCast_nonneg _⟩
      · intro _
        obtain ⟨hin, hch⟩ := index_spec hhas
        rw [Int.toNat_natCast, List.getElem?_eq_getElem hin, Option.map_some, hch]
    · refine ⟨_, (rtwChSetSearchCh_of_not_has hhas).trans (if_pos h.terminated), ?_, ?_⟩
      · exact ⟨fun hneg => absurd hneg (by decide), fun hc => absurd hc hhas⟩
      · exact fun hneg => absurd hneg (by decide)

end search

/-! ## The first pass -/

/-- The entries `t` are written from `j` on. -/
def ScanOut.writeAll (o : ScanOut) (j : ℕ) (t : List Ieee80211Channel) : ScanOut where
  mem i := if j ≤ i then (t[i - j]?).getD (o.mem i) else o.mem i
  writes := (List.range' j t.length).reverse ++ o.writes

@[simp] theorem ScanOut.write_mem (o : ScanOut) (i : ℕ) (c : Ieee80211Channel) (k : ℕ) :
    (o.write i c).mem k = if k = i then c else o.mem k := Function.update_apply _ _ _ _

theorem ScanOut.writeAll_nil (o : ScanOut) (j : ℕ) : o.writeAll j [] = o := by
  simp [ScanOut.writeAll]

theorem ScanOut.write_writeAll (o : ScanOut) (j : ℕ) (c : Ieee80211Channel)
    (t : List Ieee80211Channel) : (o.write j c).writeAll (j + 1) t = o.writeAll j (c :: t) := by
  unfold ScanOut.writeAll
  congr 1
  · funext i
    rw [ScanOut.write_mem]
    rcases Nat.lt_trichotomy i j with hlt | rfl | hgt
    · rw [if_neg (by omega), if_neg (by omega), if_neg (by omega)]
    · rw [if_neg (by omega), if_pos rfl, if_pos le_rfl, Nat.sub_self]
      rfl
    · rw [if_pos (by omega), if_neg (by omega), if_pos (by omega),
        show i - j = i - (j + 1) + 1 by omega, List.getElem?_cons_succ]
  · simp [ScanOut.write, List.range'_succ]

/-- What is written of a requested channel. -/
def ChannelSet.mark (set : ChannelSet) (c : Ieee80211Channel) : Ieee80211Channel :=
  if set.Passive c.hwValue.toNat then { c with flags := c.flags &&& chanPassiveScan } else c

section acquire

variable {set : ChannelSet}

theorem passive_iff {ch : ℕ} (h : set.Has ch) :
    (set.mem[set.index ch]?.map RtChannelInfo.scanType) = some .scanPassive ↔
      set.Passive ch := by
  obtain ⟨hlt, hch⟩ := index_spec h
  have hfind : set.chans.find? (fun c => c.channelNum.toNat = ch) =
      some set.chans[set.index ch] := by
    rw [List.find?_eq_some_iff_getElem]
    refine ⟨decide_eq_true hch, set.index ch, hlt, rfl, fun j hj => ?_⟩
    rw [Bool.not_eq_true']
    exact List.not_of_lt_findIdx hj
  rw [ChannelSet.Passive, hfind, ChannelSet.mem, List.getElem?_append_left hlt,
    List.getElem?_eq_getElem hlt]

/-- A channel that is not wanted is skipped. -/
theorem acquire_skip (h : set.Searchable) {c : Ieee80211Channel}
    (hno : ¬(c.hwValue ≠ 0 ∧ c.flags &&& chanDisabled = 0 ∧ set.Has c.hwValue.toNat)) :
    (if c.hwValue ≠ 0 ∧ c.flags &&& chanDisabled = 0 then
      rtwChSetSearchCh set c.hwValue.toNat else some (-1)) = some (-1) := by
  split_ifs with hen
  · have hhas : ¬set.Has c.hwValue.toNat := fun hhas => hno ⟨hen.1, hen.2, hhas⟩
    rw [rtwChSetSearchCh_of_not_has hhas, if_pos h.terminated]
  · rfl

/-- The request, as far as there is room. -/
theorem acquire_eq (h : set.Searchable) {outNum : ℕ} (inn : List Ieee80211Channel) {j : ℕ}
    (o : ScanOut) (hj : j < outNum) :
    acquire set outNum inn j o =
      some (j + (((set.wanted inn).map set.mark).take (outNum - j)).length,
        o.writeAll j (((set.wanted inn).map set.mark).take (outNum - j))) := by
  induction inn generalizing j o with
  | nil => simp [acquire, ChannelSet.wanted, ScanOut.writeAll_nil]
  | cons c inn ih =>
    rw [acquire]
    by_cases hwant : c.hwValue ≠ 0 ∧ c.flags &&& chanDisabled = 0 ∧ set.Has c.hwValue.toNat
    · obtain ⟨hne, hen, hhas⟩ := hwant
      have hcons : set.wanted (c :: inn) = c :: set.wanted inn := by
        rw [ChannelSet.wanted, List.filter_cons_of_pos (by simp [hne, hen, hhas])]
        rfl
      have hfound : rtwChSetSearchCh set c.hwValue.toNat =
          some (set.index c.hwValue.toNat : ℤ) := by
        rw [rtwChSetSearchCh_of_has hhas,
          if_neg (Nat.not_le_of_lt (h.index_lt c.hwValue.toNat hhas))]
      have hmark : (if (set.mem[set.index c.hwValue.toNat]?.map RtChannelInfo.scanType) =
          some .scanPassive then { c with flags := c.flags &&& chanPassiveScan } else c) =
          set.mark c := by
        rw [ChannelSet.mark]
        simp only [passive_iff hhas]
      obtain ⟨k, hk⟩ : ∃ k, outNum - j = k + 1 := ⟨_, (Nat.succ_pred (by omega)).symm⟩
      rw [if_pos ⟨hne, hen⟩, hfound, hcons, List.map_cons, hk, List.take_succ_cons]
      dsimp only
      rw [if_pos (Int.natCast_nonneg _), Int.toNat_natCast]
      dsimp only
      rw [hmark, ← ScanOut.write_writeAll, List.length_cons]
      split_ifs with hfull
      · obtain rfl : k = 0 := by omega
        simp [ScanOut.writeAll_nil]
      · rw [ih _ (by omega), show outNum - (j + 1) = k by omega]
        congr 2
        omega
    · have hskip : set.wanted (c :: inn) = set.wanted inn := by
        rw [ChannelSet.wanted, List.filter_cons_of_neg (by simpa using hwant)]
        rfl
      have hneg : ¬((-1 : ℤ) ≥ 0) := by decide
      rw [acquire_skip h hwant, hskip]
      dsimp only
      rw [if_neg hneg]
      dsimp only
      rw [if_neg (Nat.not_le_of_lt hj)]
      exact ih o hj

/-- The whole set; `flags` were zero where there is room. -/
theorem useChannelSet_eq (l : List RtChannelInfo) (i : ℕ) (o : ScanOut)
    (hz : ∀ k, i ≤ k → k < i + l.length → (o.mem k).flags = 0) :
    useChannelSet l i o = o.writeAll i (l.map fun c => ⟨c.channelNum.toUInt16, 0⟩) := by
  induction l generalizing i o with
  | nil => rw [useChannelSet, List.map_nil, ScanOut.writeAll_nil]
  | cons c l ih =>
    have hflags := hz i le_rfl (by simp)
    rw [useChannelSet, List.map_cons, ← ScanOut.write_writeAll, hflags,
      show (0 : UInt32) &&& chanPassiveScan = 0 by decide, ite_self]
    refine ih (i + 1) _ fun k hk hk' => ?_
    rw [ScanOut.write_mem, if_neg (by omega)]
    exact hz k (by omega) (by rw [List.length_cons]; omega)

theorem useChannelSet_writes (l : List RtChannelInfo) (i : ℕ) (o : ScanOut) :
    (useChannelSet l i o).writes = (List.range' i l.length).reverse ++ o.writes := by
  induction l generalizing i o with
  | nil => rfl
  | cons c l ih =>
    rw [useChannelSet, ih, ScanOut.write, List.length_cons, List.range'_succ]
    simp

/-- Nothing is written for a request without a channel of the set. -/
theorem acquire_of_wanted_nil (h : set.Searchable) (outNum : ℕ) {inn : List Ieee80211Channel}
    (hnil : set.wanted inn = []) (j : ℕ) (o : ScanOut) :
    acquire set outNum inn j o = some (j, o) := by
  induction inn with
  | nil => rfl
  | cons c inn ih =>
    have hno := List.filter_eq_nil_iff.mp hnil c List.mem_cons_self
    have hrest : set.wanted inn = [] := List.filter_eq_nil_iff.mpr fun x hx =>
      List.filter_eq_nil_iff.mp hnil x (List.mem_cons_of_mem c hx)
    rw [acquire, acquire_skip h (by simpa using hno)]
    have hneg : ¬((-1 : ℤ) ≥ 0) := by decide
    dsimp only
    rw [if_neg hneg]
    dsimp only
    rw [ih hrest, ite_self]

/-- Without room the first entry is written all the same. -/
theorem acquire_zero (h : set.Searchable) (inn : List Ieee80211Channel) (o : ScanOut) :
    acquire set 0 inn 0 o = some (0, o) ∨
      ∃ o', acquire set 0 inn 0 o = some (1, o') ∧ 0 ∈ o'.writes := by
  cases inn with
  | nil => exact .inl rfl
  | cons c inn =>
    rw [acquire]
    by_cases hwant : c.hwValue ≠ 0 ∧ c.flags &&& chanDisabled = 0 ∧ set.Has c.hwValue.toNat
    · right
      have hfound := rtwChSetSearchCh_of_has hwant.2.2
      rw [if_neg (Nat.not_le_of_lt (h.index_lt c.hwValue.toNat hwant.2.2))] at hfound
      rw [if_pos ⟨hwant.1, hwant.2.1⟩, hfound]
      dsimp only
      rw [if_pos (Int.natCast_nonneg _)]
      exact ⟨_, rfl, List.mem_cons_self⟩
    · left
      have hneg : ¬((-1 : ℤ) ≥ 0) := by decide
      rw [acquire_skip h hwant]
      dsimp only
      rw [if_neg hneg]
      rfl

end acquire

/-! ## The pass for the band -/

section filter

variable (o : ScanOut) (j : ℕ)

/-- Channels of the other band are cleared where they are. -/
theorem filter24_spec :
    (filter24 o j).1 = ((List.range j).map o.mem).countP (inBand ghz24) ∧
      (∀ i, (filter24 o j).2.mem i =
        if i < j ∧ inBand ghz24 (o.mem i) = false then ⟨0, 0⟩ else o.mem i) ∧
      ∀ i, i ∈ (filter24 o j).2.writes → i ∈ o.writes ∨ i < j := by
  induction j with
  | zero => exact ⟨rfl, fun i => by simp [filter24], fun i hi => .inl hi⟩
  | succ j ih =>
    obtain ⟨hn, hmem, hw⟩ := ih
    have hstep : filter24 o (j + 1) =
        if ((filter24 o j).2.mem j).hwValue > 35 then
          ((filter24 o j).1, (filter24 o j).2.write j ⟨0, 0⟩)
        else ((filter24 o j).1 + 1, (filter24 o j).2) := by
      rw [filter24, List.range_succ, List.foldl_append]
      rfl
    have hj := hmem j
    rw [if_neg fun hc => Nat.lt_irrefl j hc.1] at hj
    rw [hj] at hstep
    rw [List.range_succ, List.map_append, List.countP_append, ← hn, hstep]
    have hband : inBand ghz24 (o.mem j) = decide ((o.mem j).hwValue ≤ 35) := rfl
    split_ifs with hgt
    · have hout : inBand ghz24 (o.mem j) = false := by
        rw [hband, decide_eq_false_iff_not]
        exact UInt16.not_le.mpr hgt
      refine ⟨by simp [hout], fun i => ?_, fun i hi => ?_⟩
      · rw [ScanOut.write_mem, hmem]
        rcases Nat.lt_trichotomy i j with hlt | rfl | hgt'
        · rw [if_neg (by omega)]
          simp only [hlt, Nat.lt_succ_of_lt hlt]
        · rw [if_pos rfl, if_pos ⟨Nat.lt_succ_self i, hout⟩]
        · rw [if_neg (by omega), if_neg (by omega), if_neg (by omega)]
      · rcases List.mem_cons.mp hi with rfl | hi
        · exact .inr (Nat.lt_succ_self i)
        · exact (hw i hi).imp_right Nat.lt_succ_of_lt
    · have hin : inBand ghz24 (o.mem j) = true := by
        rw [hband, decide_eq_true_eq]
        exact UInt16.not_lt.mp hgt
      refine ⟨by simp [hin], fun i => ?_, fun i hi => (hw i hi).imp_right Nat.lt_succ_of_lt⟩
      rw [hmem]
      rcases Nat.lt_trichotomy i j with hlt | rfl | hgt'
      · simp only [hlt, Nat.lt_succ_of_lt hlt]
      · rw [if_neg (by omega), if_neg fun hc => Bool.false_ne_true (hc.2.symm.trans hin)]
      · rw [if_neg (by omega), if_neg (by omega)]

/-- Channels of the band are moved to the front. -/
theorem filter50_spec :
    (filter50 o j).1 = (((List.range j).map o.mem).filter (inBand ghz50)).length ∧
      (∀ i, (filter50 o j).2.mem i =
        ((((List.range j).map o.mem).filter (inBand ghz50))[i]?).getD (o.mem i)) ∧
      ∀ i, i ∈ (filter50 o j).2.writes → i ∈ o.writes ∨ i < j := by
  induction j with
  | zero => exact ⟨rfl, fun i => by simp [filter50], fun i hi => .inl hi⟩
  | succ j ih =>
    obtain ⟨hn, hmem, hw⟩ := ih
    have hstep : filter50 o (j + 1) =
        if ((filter50 o j).2.mem j).hwValue > 35 then
          ((filter50 o j).1 + 1,
            (filter50 o j).2.write (filter50 o j).1 ((filter50 o j).2.mem j))
        else ((filter50 o j).1, (filter50 o j).2) := by
      rw [filter50, List.range_succ, List.foldl_append]
      rfl
    have hle : (((List.range j).map o.mem).filter (inBand ghz50)).length ≤ j :=
      (List.length_filter_le _ _).trans_eq (by simp)
    have hj := hmem j
    rw [List.getElem?_eq_none hle, Option.getD_none] at hj
    rw [hj] at hstep
    rw [List.range_succ, List.map_append, List.filter_append, hstep, List.map_singleton]
    have hband : inBand ghz50 (o.mem j) = decide ((o.mem j).hwValue > 35) := rfl
    split_ifs with hgt
    · have hin : inBand ghz50 (o.mem j) = true := by rw [hband, decide_eq_true hgt]
      rw [List.filter_singleton, hin, cond_true]
      refine ⟨by simp [hn], fun i => ?_, fun i hi => ?_⟩
      · rw [ScanOut.write_mem, hmem, hn]
        rcases Nat.lt_trichotomy i
            (((List.range j).map o.mem).filter (inBand ghz50)).length with hlt | heq | hgt'
        · rw [if_neg (by omega), List.getElem?_append_left hlt]
        · rw [if_pos heq, heq, List.getElem?_append_right le_rfl, Nat.sub_self]
          rfl
        · rw [if_neg (by omega), List.getElem?_eq_none (by omega),
            List.getElem?_eq_none (by simp only [List.length_append, List.length_singleton]; omega)]
      · rcases List.mem_cons.mp hi with rfl | hi
        · exact .inr (by omega)
        · exact (hw i hi).imp_right Nat.lt_succ_of_lt
    · have hout : inBand ghz50 (o.mem j) = false := by rw [hband, decide_eq_false hgt]
      rw [List.filter_singleton, hout, cond_false, List.append_nil]
      exact ⟨hn, hmem, fun i hi => (hw i hi).imp_right Nat.lt_succ_of_lt⟩

/-- Nothing that was written is forgotten. -/
theorem writes_filter {i : ℕ} (hi : i ∈ o.writes) :
    i ∈ (filter24 o j).2.writes ∧ i ∈ (filter50 o j).2.writes := by
  induction j with
  | zero => exact ⟨hi, hi⟩
  | succ j ih =>
    constructor
    · rw [filter24, List.range_succ, List.foldl_append]
      show i ∈ (if _ then _ else _ : ℕ × ScanOut).2.writes
      split_ifs
      · exact List.mem_cons_of_mem _ ih.1
      · exact ih.1
    · rw [filter50, List.range_succ, List.foldl_append]
      show i ∈ (if _ then _ else _ : ℕ × ScanOut).2.writes
      split_ifs
      · exact List.mem_cons_of_mem _ ih.2
      · exact ih.2

end filter

/-! ## The list -/

section decision

variable {set : ChannelSet} {setband outNum : ℕ} {inn : List Ieee80211Channel}
  {mem0 : ℕ → Ieee80211Channel}

@[simp] theorem mark_hwValue (c : Ieee80211Channel) : (set.mark c).hwValue = c.hwValue := by
  unfold ChannelSet.mark
  split_ifs <;> rfl

/-- A mark only survives if it was requested. -/
theorem mark_flags {c : Ieee80211Channel} (h : set.Passive c.hwValue.toNat) :
    (set.mark c).flags &&& chanPassiveScan ≠ 0 ↔ c.flags &&& chanPassiveScan ≠ 0 := by
  rw [ChannelSet.mark, if_pos h]
  show c.flags &&& chanPassiveScan &&& chanPassiveScan ≠ 0 ↔ _
  rw [UInt32.and_assoc, UInt32.and_self]

theorem hwValue_ne_of_chosen {c : Ieee80211Channel} (hc : c ∈ set.chosen inn) :
    c.hwValue ≠ 0 := by
  unfold ChannelSet.chosen at hc
  split_ifs at hc
  · obtain ⟨x, hx, rfl⟩ := List.mem_map.mp hc
    intro h0
    apply set.channelNum_ne x hx
    have := congrArg UInt16.toNat h0
    rw [UInt8.toNat_toUInt16] at this
    exact UInt8.toNat_inj.mp this
  · have := (List.mem_filter.mp hc).2
    simp only [decide_eq_true_eq] at this
    exact this.1

/-- The first pass, if there is room for it. -/
theorem decision_eq (h : set.Searchable)
    (hroom : if set.wanted inn = [] then set.chans.length ≤ outNum else 0 < outNum) :
    rtwScanChDecision set setband outNum inn mem0 =
      some (bandPass setband (((set.chosen inn).take outNum).map set.mark).length
        ((clearOut outNum mem0).writeAll 0 (((set.chosen inn).take outNum).map set.mark))) := by
  unfold rtwScanChDecision ChannelSet.chosen
  by_cases hnil : set.wanted inn = []
  · rw [if_pos hnil] at hroom ⊢
    rw [acquire_of_wanted_nil h outNum hnil]
    have hmark : (set.chans.map fun c => (⟨c.channelNum.toUInt16, 0⟩ : Ieee80211Channel)).map
        set.mark = set.chans.map fun c => ⟨c.channelNum.toUInt16, 0⟩ := by
      rw [List.map_map]
      refine List.map_congr_left fun c _ => ?_
      show set.mark ⟨c.channelNum.toUInt16, 0⟩ = _
      unfold ChannelSet.mark
      rw [show (0 : UInt32) &&& chanPassiveScan = 0 by decide, ite_self]
    have hzero : ∀ k, 0 ≤ k → k < 0 + set.chans.length →
        ((clearOut outNum mem0).mem k).flags = 0 := by
      intro k _ hk
      show (if k < outNum then (⟨0, 0⟩ : Ieee80211Channel) else mem0 k).flags = 0
      rw [if_pos (by omega)]
    rw [List.take_of_length_le (by rwa [List.length_map]), hmark, List.length_map]
    dsimp only
    rw [if_pos rfl, useChannelSet_eq set.chans 0 _ hzero]
  · rw [if_neg hnil] at hroom ⊢
    rw [acquire_eq h inn _ hroom, Nat.sub_zero, Nat.zero_add, List.map_take]
    dsimp only
    rw [if_neg]
    rw [List.length_take, List.length_map]
    have := List.length_pos_iff.mpr hnil
    omega

/-- Without room an entry behind `out` is written. -/
theorem writes_of_no_room (h : set.Searchable)
    (hroom : ¬if set.wanted inn = [] then set.chans.length ≤ outNum else 0 < outNum) :
    ∃ n o, rtwScanChDecision set setband outNum inn mem0 = some (n, o) ∧
      ∃ i ∈ o.writes, outNum ≤ i := by
  have hpass : ∀ j (o : ScanOut) i, i ∈ o.writes → i ∈ (bandPass setband j o).2.writes := by
    intro j o i hi
    unfold bandPass
    split_ifs
    · exact (writes_filter o j hi).1
    · exact (writes_filter o j hi).2
    · exact hi
  have hset : ∀ o i, i < set.chans.length →
      i ∈ (useChannelSet set.chans 0 o).writes := by
    intro o i hi
    rw [useChannelSet_writes]
    simp [hi]
  unfold rtwScanChDecision
  by_cases hnil : set.wanted inn = []
  · rw [if_pos hnil] at hroom
    rw [acquire_of_wanted_nil h outNum hnil]
    exact ⟨_, _, rfl, outNum, hpass _ _ _ (hset _ _ (Nat.lt_of_not_le hroom)), le_rfl⟩
  · rw [if_neg hnil] at hroom
    obtain rfl : outNum = 0 := by omega
    obtain ⟨c, hc⟩ := List.exists_mem_of_ne_nil _ hnil
    have hhas : set.Has c.hwValue.toNat := by
      have := (List.mem_filter.mp hc).2
      simp only [decide_eq_true_eq] at this
      exact this.2.2
    obtain ⟨x, hx, -⟩ := hhas
    rcases acquire_zero h inn (clearOut 0 mem0) with hacq | ⟨o', hacq, hw⟩
    · rw [hacq]
      exact ⟨_, _, rfl, 0, hpass _ _ _ (hset _ _ (List.length_pos_of_mem hx)), le_rfl⟩
    · rw [hacq]
      exact ⟨_, _, rfl, 0, hpass _ _ _ hw, le_rfl⟩

/-! ### Lists -/

section lists

variable {α : Type*} {p : α → Bool} {l : List α}

theorem filter_take_isPrefix (n : ℕ) : (l.take n).filter p <+: (l.filter p).take n :=
  List.prefix_take_iff.mpr ⟨(List.take_prefix n l).filter p,
    (List.length_filter_le _ _).trans (List.length_take_le _ _)⟩

theorem takeWhile_prefix_filter : l.takeWhile p <+: l.filter p := by
  have hall : (l.takeWhile p).filter p = l.takeWhile p :=
    List.filter_eq_self.mpr fun _ ha => List.mem_takeWhile_imp ha
  have hpre := (List.takeWhile_prefix (l := l) p).filter p
  rwa [hall] at hpre

/-- The members come first, as far as `n` of them are concerned. -/
theorem takeWhile_take_length {n : ℕ}
    (h : (l.takeWhile p).take n = (l.filter p).take n) :
    (l.take n).countP p = ((l.filter p).take n).length := by
  rw [List.take_takeWhile] at h
  refine Nat.le_antisymm ?_ ?_
  · rw [List.countP_eq_length_filter]
    exact (filter_take_isPrefix n).length_le
  · rw [← h, List.countP_eq_length_filter]
    exact takeWhile_prefix_filter.length_le

/-- If there are as many members among the first `n` as there are to be, and all of these come
    first, then they are the ones. -/
theorem takeWhile_take_eq {n : ℕ} (hlen : (l.take n).countP p = ((l.filter p).take n).length)
    (hall : ∀ i (hi : i < (l.take n).length), i < (l.take n).countP p → p (l.take n)[i] = true) :
    (l.takeWhile p).take n = (l.filter p).take n := by
  rw [List.take_takeWhile]
  generalize hL : l.take n = L at hlen hall
  have hfilter : L.filter p = (l.filter p).take n := by
    rw [← hL]
    refine (filter_take_isPrefix n).eq_of_length ?_
    rw [← List.countP_eq_length_filter, hL, hlen]
  rw [← hfilter]
  refine takeWhile_prefix_filter.eq_of_length (Nat.le_antisymm ?_ ?_)
  · exact takeWhile_prefix_filter.length_le
  · rw [← List.countP_eq_length_filter]
    have hle : L.countP p ≤ L.length := List.countP_le_length
    have htake : L.take (L.countP p) <+: L.takeWhile p := by
      have htw : (L.take (L.countP p)).takeWhile p = L.take (L.countP p) := by
        rw [List.takeWhile_eq_self_iff]
        intro x hx
        obtain ⟨i, hi, rfl⟩ := List.mem_iff_getElem.mp hx
        rw [List.length_take] at hi
        rw [List.getElem_take]
        exact hall i (by omega) (by omega)
      rw [← htw, ← List.take_takeWhile]
      exact List.take_prefix _ _
    have hlen' := htake.length_le
    rwa [List.length_take, Nat.min_eq_left hle] at hlen'

end lists

theorem map_range_writeAll (o : ScanOut) (t : List Ieee80211Channel) :
    (List.range t.length).map (o.writeAll 0 t).mem = t := by
  refine List.ext_getElem (by simp) fun i h1 h2 => ?_
  rw [List.getElem_map, List.getElem_range]
  show (if 0 ≤ i then (t[i - 0]?).getD (o.mem i) else o.mem i) = t[i]
  rw [if_pos (Nat.zero_le i), Nat.sub_zero, List.getElem?_eq_getElem h2, Option.getD_some]

theorem mem_writes_writeAll {o : ScanOut} (ho : o.writes = []) {t : List Ieee80211Channel}
    {i : ℕ} (hi : i ∈ (o.writeAll 0 t).writes) : i < t.length := by
  have hi' : i ∈ (List.range' 0 t.length).reverse ++ o.writes := hi
  rw [ho, List.append_nil, List.mem_reverse] at hi'
  simpa using hi'

section bands

variable {l : List Ieee80211Channel} {m : Ieee80211Channel → Ieee80211Channel} {n : ℕ}
  {o : ScanOut} (hlist : (List.range ((l.take n).map m).length).map o.mem = (l.take n).map m)
  (hm : ∀ c, (m c).hwValue = c.hwValue)

include hm in
theorem inBand_congr (c : Ieee80211Channel) : inBand setband (m c) = inBand setband c := by
  unfold inBand
  rw [hm]

include hlist in
/-- The entry `i` of the list. -/
theorem mem_of_list {i : ℕ} (hi : i < (l.take n).length) : o.mem i = m (l.take n)[i] := by
  have hget : ((List.range ((l.take n).map m).length).map o.mem)[i]? =
      ((l.take n).map m)[i]? := by rw [hlist]
  rw [List.getElem?_map, List.getElem?_range (by rwa [List.length_map]), List.getElem?_map,
    List.getElem?_eq_getElem hi] at hget
  exact Option.some.inj hget

include hlist hm

theorem filter24_list (hne : ∀ c ∈ l, c.hwValue ≠ 0) :
    ((List.range (filter24 o ((l.take n).map m).length).1).map
        (fun i => ((filter24 o ((l.take n).map m).length).2.mem i).hwValue) =
        ((l.filter (inBand ghz24)).take n).map Ieee80211Channel.hwValue ↔
      (l.takeWhile (inBand ghz24)).take n = (l.filter (inBand ghz24)).take n) ∧
    ((l.takeWhile (inBand ghz24)).take n = (l.filter (inBand ghz24)).take n →
      (List.range (filter24 o ((l.take n).map m).length).1).map
        (filter24 o ((l.take n).map m).length).2.mem =
          ((l.filter (inBand ghz24)).take n).map m) := by
  obtain ⟨hn, hmem, -⟩ := filter24_spec o ((l.take n).map m).length
  generalize filter24 o ((l.take n).map m).length = r at hn hmem
  rw [hlist, List.countP_map,
    List.countP_congr (q := inBand ghz24) (fun c _ => by
      rw [Function.comp_apply, inBand_congr hm])] at hn
  have hle : (l.take n).countP (inBand ghz24) ≤ (l.take n).length := List.countP_le_length
  have hget : ∀ i (hi : i < (l.take n).length), r.2.mem i =
      if inBand ghz24 (l.take n)[i] = false then ⟨0, 0⟩ else m (l.take n)[i] := by
    intro i hi
    rw [hmem, mem_of_list hlist hi, inBand_congr hm]
    simp only [List.length_map, hi, true_and]
  have hres : (l.takeWhile (inBand ghz24)).take n = (l.filter (inBand ghz24)).take n →
      (List.range r.1).map r.2.mem = ((l.filter (inBand ghz24)).take n).map m := by
    intro hfirst
    have hlen := takeWhile_take_length hfirst
    refine List.ext_getElem (by simp [hn, hlen]) fun i h1 h2 => ?_
    rw [List.length_map, List.length_range, hn] at h1
    rw [List.getElem_map, List.getElem_range, List.getElem_map, hget i (by omega)]
    rw [List.length_map, ← hfirst, List.take_takeWhile] at h2
    have hi : (l.take n)[i] = ((l.take n).takeWhile (inBand ghz24))[i] :=
      ((List.takeWhile_prefix (inBand ghz24)).getElem h2).symm
    have hin : inBand ghz24 (l.take n)[i] = true := by
      rw [hi]
      exact List.mem_takeWhile_imp (List.getElem_mem h2)
    rw [if_neg (by rw [hin]; decide), hi]
    simp only [← hfirst, List.take_takeWhile]
  refine ⟨⟨fun heq => ?_, fun hfirst => ?_⟩, hres⟩
  · have hlen := congrArg List.length heq
    rw [List.length_map, List.length_range, List.length_map, hn] at hlen
    refine takeWhile_take_eq hlen fun i hi hlt => ?_
    have hi' : i < ((l.filter (inBand ghz24)).take n).length := hlen ▸ hlt
    have hhw : (r.2.mem i).hwValue = (((l.filter (inBand ghz24)).take n)[i]).hwValue := by
      have : (List.map (fun i => (r.2.mem i).hwValue) (List.range r.1))[i]? =
          (((l.filter (inBand ghz24)).take n).map Ieee80211Channel.hwValue)[i]? := by rw [heq]
      rw [List.getElem?_map, List.getElem?_range (by omega), List.getElem?_map,
        List.getElem?_eq_getElem hi'] at this
      exact Option.some.inj this
    by_contra hout
    rw [hget i hi, if_pos (Bool.of_not_eq_true hout)] at hhw
    refine hne _ ?_ hhw.symm
    exact List.mem_of_mem_filter (List.mem_of_mem_take (List.getElem_mem hi'))
  · have hmap := congrArg (List.map Ieee80211Channel.hwValue) (hres hfirst)
    rw [List.map_map, List.map_map] at hmap
    exact hmap.trans (List.map_congr_left fun c _ => hm c)

theorem filter50_list :
    ((List.range (filter50 o ((l.take n).map m).length).1).map
        (fun i => ((filter50 o ((l.take n).map m).length).2.mem i).hwValue) =
        ((l.filter (inBand ghz50)).take n).map Ieee80211Channel.hwValue ↔
      (l.take n).filter (inBand ghz50) = (l.filter (inBand ghz50)).take n) ∧
    ((l.take n).filter (inBand ghz50) = (l.filter (inBand ghz50)).take n →
      (List.range (filter50 o ((l.take n).map m).length).1).map
        (filter50 o ((l.take n).map m).length).2.mem =
          ((l.filter (inBand ghz50)).take n).map m) := by
  obtain ⟨hn, hmem, -⟩ := filter50_spec o ((l.take n).map m).length
  generalize filter50 o ((l.take n).map m).length = r at hn hmem
  have hfilter : ((l.take n).map m).filter (inBand ghz50) =
      ((l.take n).filter (inBand ghz50)).map m := by
    rw [List.filter_map]
    congr 1
    exact List.filter_congr fun c _ => inBand_congr hm c
  rw [hlist, hfilter] at hn hmem
  have hall : (List.range r.1).map r.2.mem = ((l.take n).filter (inBand ghz50)).map m := by
    refine List.ext_getElem (by simp [hn]) fun i h1 h2 => ?_
    rw [List.getElem_map, List.getElem_range, hmem, List.getElem?_eq_getElem h2, Option.getD_some]
  have hhw : (List.range r.1).map (fun i => (r.2.mem i).hwValue) =
      ((l.take n).filter (inBand ghz50)).map Ieee80211Channel.hwValue := by
    have hmap := congrArg (List.map Ieee80211Channel.hwValue) hall
    rw [List.map_map, List.map_map] at hmap
    exact hmap.trans (List.map_congr_left fun c _ => hm c)
  refine ⟨⟨fun heq => ?_, fun hroom => ?_⟩, fun hroom => ?_⟩
  · have hlen := congrArg List.length (hhw.symm.trans heq)
    rw [List.length_map, List.length_map] at hlen
    exact (filter_take_isPrefix n).eq_of_length hlen
  · rw [hhw, hroom]
  · rw [hall, hroom]

end bands

/-- What the pass for the band makes of the list. -/
theorem bandPass_spec :
    ∃ n o, bandPass setband (((set.chosen inn).take outNum).map set.mark).length
        ((clearOut outNum mem0).writeAll 0 (((set.chosen inn).take outNum).map set.mark)) =
          (n, o) ∧
      (∀ i ∈ o.writes, i < outNum) ∧
      (((List.range n).map fun i => (o.mem i).hwValue) =
          (set.expected setband outNum inn).map Ieee80211Channel.hwValue ↔
        set.BandWell setband outNum inn) ∧
      (set.BandWell setband outNum inn →
        (List.range n).map o.mem = (set.expected setband outNum inn).map set.mark) := by
  have hlen : (((set.chosen inn).take outNum).map set.mark).length ≤ outNum := by
    rw [List.length_map]
    exact List.length_take_le _ _
  have hlist := map_range_writeAll (clearOut outNum mem0)
    (((set.chosen inn).take outNum).map set.mark)
  have hwrites : ∀ i ∈ ((clearOut outNum mem0).writeAll 0
      (((set.chosen inn).take outNum).map set.mark)).writes, i < outNum := fun i hi =>
    (mem_writes_writeAll rfl hi).trans_le hlen
  generalize (clearOut outNum mem0).writeAll 0 (((set.chosen inn).take outNum).map set.mark) = o
    at hlist hwrites
  unfold bandPass ChannelSet.expected
  by_cases h24 : setband = ghz24
  · subst h24
    obtain ⟨hiff, hres⟩ := filter24_list hlist mark_hwValue fun c hc => hwValue_ne_of_chosen hc
    rw [if_pos rfl]
    refine ⟨_, _, rfl, fun i hi => ?_, hiff.trans ⟨fun hf => ⟨fun _ => hf, ?_⟩, fun hw => ?_⟩,
      fun hw => hres (hw.first rfl)⟩
    · rcases (filter24_spec _ _).2.2 i hi with hold | hnew
      · exact hwrites i hold
      · exact hnew.trans_le hlen
    · exact fun h50 => absurd h50 (by decide)
    · exact hw.first rfl
  rw [if_neg h24]
  by_cases h50 : setband = ghz50
  · subst h50
    obtain ⟨hiff, hres⟩ := filter50_list hlist mark_hwValue
    rw [if_pos rfl]
    refine ⟨_, _, rfl, fun i hi => ?_, hiff.trans ⟨fun hf => ⟨?_, fun _ => hf⟩, fun hw => ?_⟩,
      fun hw => hres (hw.noRoomLost rfl)⟩
    · rcases (filter50_spec _ _).2.2 i hi with hold | hnew
      · exact hwrites i hold
      · exact hnew.trans_le hlen
    · exact fun h24 => absurd h24 (by decide)
    · exact hw.noRoomLost rfl
  · rw [if_neg h50]
    have hboth : inBand setband = fun _ => true := by
      funext c
      rw [inBand, if_neg h24, if_neg h50]
    have hall : (set.chosen inn).filter (inBand setband) = set.chosen inn := by
      rw [hboth]
      exact List.filter_eq_self.mpr fun _ _ => rfl
    rw [hall]
    refine ⟨_, _, rfl, hwrites, iff_of_true ?_ ⟨fun hc => absurd hc h24, fun hc => absurd hc h50⟩,
      fun _ => hlist⟩
    have hmap := congrArg (List.map Ieee80211Channel.hwValue) hlist
    rw [List.map_map, List.map_map] at hmap
    exact hmap.trans (List.map_congr_left fun c _ => mark_hwValue c)

theorem scanOk_iff (h : set.Searchable) :
    ScanOk set setband outNum inn mem0 ↔ ScanWell set setband outNum inn := by
  by_cases hroom : if set.wanted inn = [] then set.chans.length ≤ outNum else 0 < outNum
  · obtain ⟨n, o, hpass, hwrites, hiff, hres⟩ :=
      @bandPass_spec set setband outNum inn mem0
    have hdec := @decision_eq set setband outNum inn mem0 h hroom
    rw [hpass] at hdec
    have hflags : set.BandWell setband outNum inn →
        ((∀ i < n, set.Passive (o.mem i).hwValue.toNat →
            (o.mem i).flags &&& chanPassiveScan ≠ 0) ↔
          ∀ c ∈ set.expected setband outNum inn, set.Passive c.hwValue.toNat →
            c.flags &&& chanPassiveScan ≠ 0) := by
      intro hw
      have hlist := hres hw
      constructor
      · intro hall c hc hp
        have hmem : set.mark c ∈ (List.range n).map o.mem := by
          rw [hlist]
          exact List.mem_map_of_mem hc
        obtain ⟨i, hi, heq⟩ := List.mem_map.mp hmem
        have hi' := hall i (List.mem_range.mp hi)
        rw [heq, mark_hwValue] at hi'
        exact (mark_flags hp).mp (hi' hp)
      · intro hall i hi hp
        have hmem : o.mem i ∈ (set.expected setband outNum inn).map set.mark := by
          rw [← hlist]
          exact List.mem_map_of_mem (List.mem_range.mpr hi)
        obtain ⟨c, hc, heq⟩ := List.mem_map.mp hmem
        rw [← heq, mark_hwValue] at hp
        rw [← heq]
        exact (mark_flags hp).mpr (hall c hc hp)
    constructor
    · rintro ⟨n', o', hdec', -, hhw, hmark⟩
      obtain ⟨rfl, rfl⟩ := Prod.mk.inj (Option.some.inj (hdec.symm.trans hdec'))
      have hw := hiff.mp hhw
      exact ⟨hw, hroom, (hflags hw).mp hmark⟩
    · intro hwell
      exact ⟨n, o, hdec, hwrites, hiff.mpr hwell.toBandWell,
        (hflags hwell.toBandWell).mpr hwell.marked⟩
  · constructor
    · rintro ⟨n, o, hdec, hwrites, -⟩
      obtain ⟨n', o', hdec', i, hi, hge⟩ :=
        @writes_of_no_room set setband outNum inn mem0 h hroom
      obtain ⟨rfl, rfl⟩ := Prod.mk.inj (Option.some.inj (hdec.symm.trans hdec'))
      exact absurd (hwrites i hi) (Nat.not_lt_of_le hge)
    · exact fun hwell => absurd hwell.room hroom

end decision

/-- The search finds what is in the set and nothing else, and the list is the requested one,
    exactly if the set is terminated and in order, and the request has the room, the order and
    the marks that it needs. -/
theorem scan_channels_iff (set : ChannelSet) (setband outNum : ℕ) (inn : List Ieee80211Channel)
    (mem0 : ℕ → Ieee80211Channel) :
    ((∀ ch, set.SearchOk ch) ∧ ScanOk set setband outNum inn mem0) ↔
      (set.Searchable ∧ ScanWell set setband outNum inn) := by
  rw [searchOk_iff]
  exact and_congr_right fun h => scanOk_iff h

/-- A survey of every channel of a plan, as `rtw_sitesurvey_cmd` asks for it: channel 12 is
    passive and is not marked. -/
theorem default_survey_unmarked : ¬ ∀ (set : ChannelSet) (setband outNum : ℕ)
    (inn : List Ieee80211Channel) (mem0 : ℕ → Ieee80211Channel),
    (∀ ch, set.SearchOk ch) ∧ ScanOk set setband outNum inn mem0 := by
  intro h
  obtain ⟨-, n, o, hdec, -, hhw, hmark⟩ := h (.ofPlan 0) 0 51 [] fun _ => ⟨0, 0⟩
  have hn : n = 38 := by
    have hlen := congrArg List.length hhw
    rw [List.length_map, List.length_range] at hlen
    exact hlen.trans (by decide)
  have ho : o = useChannelSet (ChannelSet.ofPlan 0).chans 0 (clearOut 51 fun _ => ⟨0, 0⟩) :=
    (Prod.mk.inj (Option.some.inj hdec)).2.symm
  refine hmark 11 (by omega) ?_ ?_
  · rw [ho]
    decide +kernel
  · rw [ho]
    decide +kernel

end Rtl8821au.Mlme
