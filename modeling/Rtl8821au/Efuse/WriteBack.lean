import Mathlib.Data.List.TakeWhile
import Rtl8821au.Efuse.Write

/-!
# Reading back what was written

One call of `efuse_pg_packet_write` on a well-formed log with room for a packet, on an efuse that
takes every byte it is given, and what either reader finds afterwards.

* `readsBack_iff`: the readers' answers, in the words of the log.
* `writeOk_iff`: when the section reads back as written and everything else as before.

A packet whose header was written and its data not is filled with the words it has in common
with the mask; the words left over go where `efuse_get_current_size` finds the end.
-/

namespace Rtl8821au.Efuse

/-! ## The property -/

/-- The two readers after a write: the data in the words of the mask, what was there in the
    others. Nothing is decoded from an efuse that is blank. -/
structure ReadsBack (m m' : Content) (ps : List Packet) (s wordEn : UInt8) (data : ℕ → UInt8) :
    Prop where
  pgRead : ∀ t : UInt8, t.toNat < maxSection → ∀ buf, ∀ k < 8, (pgPacketRead m' t buf).1 k =
    if t = s ∧ wordEnabled wordEn (k / 2) = true then data k else (pgPacketRead m t buf).1 k
  map : m' 0 ≠ 0xFF → ∀ t : UInt8, t.toNat < maxSection → ∀ pbuf, ∀ k < 8,
    (readEfuse m' 0 mapLen pbuf).1 (8 * t.toNat + k) =
      if t = s ∧ wordEnabled wordEn (k / 2) = true then data k
      else Word.byte (latest (history m t ps) (k / 2)) k

/-- The call returns true, the log is well formed, and the readers find what they should. -/
def WriteOk (program : Program) (depth : ℕ) (f : Fuse) (ps : List Packet) (s wordEn : UInt8)
    (data : ℕ → UInt8) : Prop :=
  ∃ f', pgPacketWrite program (depth + 1) f s wordEn data = some (f', true) ∧
    (∃ ps' e', CleanLog f'.content ps' e') ∧ ReadsBack f.content f'.content ps s wordEn data

/-! ## The condition -/

/-- The word of the data with a number. -/
def dataWord (data : ℕ → UInt8) (i : ℕ) : Word := (data (2 * i), data (2 * i + 1))

/-- The words of the mask that the packet `p` does not have. -/
def restOf (wordEn : UInt8) (p : Packet) : UInt8 :=
  restWordEn wordEn (matchWordEn wordEn p.worden)

/-- The packets of the section once `p` is filled, the latest first. -/
def refilled (m : Content) (s wordEn : UInt8) (data : ℕ → UInt8) (before : List Packet)
    (p : Packet) (later : List Packet) : List (List (ℕ × Word)) :=
  history m s later ++ dataEntries p.worden (targetData wordEn data) :: history m s before

/-- The words left over are written too. -/
def RestWritten (f : Fuse) (wordEn : UInt8) (p : Packet) : Prop :=
  restOf wordEn p ≠ 0x0F ∧ f.repeatTimes < repeatThreshold

instance (f : Fuse) (wordEn : UInt8) (p : Packet) : Decidable (RestWritten f wordEn p) :=
  inferInstanceAs (Decidable (_ ∧ _))

/-- The same with the packet of the words left over. -/
def rewritten (f : Fuse) (s wordEn : UInt8) (data : ℕ → UInt8) (before : List Packet)
    (p : Packet) (later : List Packet) : List (List (ℕ × Word)) :=
  if RestWritten f wordEn p then
    dataEntries (restOf wordEn p) data :: refilled f.content s wordEn data before p later
  else refilled f.content s wordEn data before p later

/-- A word of the mask is the latest, and both readers see it; of the others
    `efuse_pg_packet_read` sees what it saw. -/
def WordKept (wordEn : UInt8) (data : ℕ → UInt8) (h h' : List (List (ℕ × Word))) (i : ℕ) : Prop :=
  if wordEnabled wordEn i = true then latest h' i = dataWord data i ∧ WordOk i h'
  else kept h' i = kept h i

/-- Nothing is to be written and the header is `0xFF`; or the section has no packet to fill, and
    the new packet can be read; or what the filled packet and the words left over hold can, and
    the words left over are written where the log ends. -/
def Writable (f : Fuse) (ps : List Packet) (e : ℕ) (s wordEn : UInt8) (data : ℕ → UInt8) : Prop :=
  if wordEn = 0x0F then s = 0x0F
  else
    match ps.dropWhile fun p => !decide (Repairable f.content s wordEn p) with
    | [] => ∀ i < 4, wordEnabled wordEn i = true →
        WordOk i (dataEntries wordEn data :: history f.content s ps)
    | p :: later =>
      let before := ps.takeWhile fun p => !decide (Repairable f.content s wordEn p)
      (RestWritten f wordEn p → f.efuseBytes ≤ e) ∧
        ∀ i < 4, WordKept wordEn data (history f.content s ps)
          (rewritten f s wordEn data before p later) i

/-- What `HW_VAR_EFUSE_BYTES` can be: where a packet begins or the log ends, as
    `efuse_get_current_size` leaves it, or one behind the end, as `read_efuse` does. -/
def SizeKnown (f : Fuse) (ps : List Packet) (e : ℕ) : Prop :=
  (∃ ps₁ ps₂, ps = ps₁ ++ ps₂ ∧ Path f.content 0 ps₁ f.efuseBytes) ∨ f.efuseBytes = e + 1

/-! ## Histories -/

section histories

variable {m m' : Content} {a e : ℕ} {p : Packet} {ps qs : List Packet} {s t wordEn : UInt8}
  {data : ℕ → UInt8}

theorem entriesFrom_congr {wden : UInt8} (is : List ℕ)
    (h : ∀ k, a ≤ k → k < a + 2 * (is.filter (wordEnabled wden)).length → m' k = m k) :
    entriesFrom m' wden is a = entriesFrom m wden is a := by
  induction is generalizing a with
  | nil => rfl
  | cons i is ih =>
    rw [entriesFrom, entriesFrom]
    by_cases hen : wordEnabled wden i = true
    · rw [List.filter_cons_of_pos hen, List.length_cons] at h
      rw [if_pos hen, if_pos hen, h a le_rfl (by omega), h (a + 1) (by omega) (by omega),
        ih fun k hk hk' => h k (by omega) (by omega)]
    · rw [List.filter_cons_of_neg hen] at h
      rw [if_neg hen, if_neg hen, ih h]

theorem entries_congr (h : ∀ k, p.addr ≤ k → k < p.next → m' k = m k) :
    p.entries m' = p.entries m := by
  refine entriesFrom_congr _ fun k hk hk' => h k hk ?_
  rw [Packet.next, calculateWordCnts_eq]
  exact hk'

theorem Path.mem_bounds (h : Path m a ps e) (hp : p ∈ ps) : a < p.addr ∧ p.next ≤ e := by
  induction ps generalizing a with
  | nil => exact absurd hp List.not_mem_nil
  | cons q ps ih =>
    obtain ⟨hq, -, -, hrest⟩ := h
    have haddr := packetAt_addr hq
    have hnext := packetAt_next hq
    rcases List.mem_cons.mp hp with rfl | hp
    · exact ⟨by omega, hrest.le⟩
    · have := ih hrest hp
      exact ⟨by omega, this.2⟩

theorem history_congr (h : ∀ p ∈ ps, p.entries m' = p.entries m) :
    history m' t ps = history m t ps := by
  rw [history, history]
  congr 1
  exact List.map_congr_left fun p hp => h p (List.mem_of_mem_filter hp)

/-- The bytes up to the end of a log are its history. -/
theorem Path.history_eq (h : Path m a ps e) (hm : ∀ k, a ≤ k → k < e → m' k = m k) :
    history m' t ps = history m t ps := by
  refine history_congr fun p hp => entries_congr fun k hk hk' => ?_
  have hb := h.mem_bounds hp
  exact hm k (by omega) (by omega)

theorem history_append_list : history m t (ps ++ qs) = history m t qs ++ history m t ps := by
  rw [history, List.filter_append, List.map_append, List.reverse_append]
  rfl

theorem history_cons : history m t (p :: ps) =
    history m t ps ++ if p.sect = t then [p.entries m] else [] := by
  rw [← List.singleton_append, history_append_list]
  congr 1
  by_cases h : p.sect = t
  · rw [if_pos h, history, List.filter_cons_of_pos (by rw [h]; exact beq_self_eq_true t)]
    rfl
  · rw [if_neg h, history, List.filter_cons_of_neg (by simp [h])]
    rfl

end histories

/-! ## The readers -/

section readers

variable {m m' : Content} {e e' : ℕ} {ps ps' : List Packet} {s wordEn : UInt8} {data : ℕ → UInt8}

/-- A byte of the wanted words. -/
theorem byte_wanted (w : ℕ → Word) (k : ℕ) :
    Word.byte (if wordEnabled wordEn (k / 2) = true then dataWord data (k / 2) else w (k / 2)) k =
      if wordEnabled wordEn (k / 2) = true then data k else Word.byte (w (k / 2)) k := by
  split_ifs
  · have hpair := @byte_pair data 0 k
    rwa [Nat.zero_add, Nat.zero_add] at hpair
  · rfl

/-- What the readers answer, in the words of the log: of the section only. -/
theorem readsBack_iff (hlog : CleanLog m ps e) (hlog' : CleanLog m' ps' e')
    (hs : s.toNat < maxSection) (hfirst : m' 0 ≠ 0xFF)
    (hother : ∀ t, t ≠ s → history m' t ps' = history m t ps) :
    ReadsBack m m' ps s wordEn data ↔ ∀ i < 4,
      latest (history m' s ps') i =
        (if wordEnabled wordEn i = true then dataWord data i else latest (history m s ps) i) ∧
      kept (history m' s ps') i =
        if wordEnabled wordEn i = true then dataWord data i else kept (history m s ps) i := by
  have hlatest : (∀ i < 4, latest (history m' s ps') i =
      if wordEnabled wordEn i = true then dataWord data i else latest (history m s ps) i) ↔
      ∀ k < 8, Word.byte (latest (history m' s ps') (k / 2)) k =
        if wordEnabled wordEn (k / 2) = true then data k
        else Word.byte (latest (history m s ps) (k / 2)) k := by
    rw [← forall_byte_iff]
    exact forall₂_congr fun k _ => by rw [byte_wanted]
  have hkept : (∀ i < 4, kept (history m' s ps') i =
      if wordEnabled wordEn i = true then dataWord data i else kept (history m s ps) i) ↔
      ∀ k < 8, Word.byte (kept (history m' s ps') (k / 2)) k =
        if wordEnabled wordEn (k / 2) = true then data k
        else Word.byte (kept (history m s ps) (k / 2)) k := by
    rw [← forall_byte_iff]
    exact forall₂_congr fun k _ => by rw [byte_wanted]
  have hsplit : (∀ i < 4, latest (history m' s ps') i =
        (if wordEnabled wordEn i = true then dataWord data i else latest (history m s ps) i) ∧
      kept (history m' s ps') i =
        if wordEnabled wordEn i = true then dataWord data i else kept (history m s ps) i) ↔ _ :=
    forall₂_and
  rw [hsplit, hlatest, hkept]
  constructor
  · intro h
    constructor
    · intro k hk
      have hbyte := h.map hfirst s hs (fun _ => 0) k hk
      rw [readEfuse_log hlog'.log hs _ hk, if_neg hfirst] at hbyte
      simpa only [true_and] using hbyte
    · intro k hk
      have hbyte := h.pgRead s hs (fun _ => 0) k hk
      rw [pgPacketRead_log hlog'.log hs _ hk, pgPacketRead_log hlog.log hs _ hk] at hbyte
      simpa only [true_and] using hbyte
  · rintro ⟨hl, hk'⟩
    constructor
    · intro t ht buf k hk
      rw [pgPacketRead_log hlog'.log ht _ hk, pgPacketRead_log hlog.log ht _ hk]
      by_cases hts : t = s
      · subst hts
        simpa only [true_and] using hk' k hk
      · rw [if_neg fun h => hts h.1, hother t hts]
    · intro _ t ht pbuf k hk
      rw [readEfuse_log hlog'.log ht _ hk, if_neg hfirst]
      by_cases hts : t = s
      · subst hts
        simpa only [true_and] using hl k hk
      · rw [if_neg fun h => hts h.1, hother t hts]

end readers

/-! ## Logs that grow -/

section logs

variable {m m' : Content} {a e e' : ℕ} {p : Packet} {ps ps' before later : List Packet}

theorem CleanLog.append (h : CleanLog m ps e) (hp : packetAt m' e = some p)
    (hw : calculateWordCnts p.worden ≠ 0) (hs : p.sect.toNat < maxSection)
    (hnext : p.next < writeEnd) (hm : ∀ k, k < e ∨ p.next ≤ k → m' k = m k) :
    CleanLog m' (ps ++ [p]) p.next where
  path := path_append.mpr ⟨e, h.path.congr fun k _ hk => hm k (.inl hk), hp, hw, hs, rfl⟩
  lt := hnext
  blank k hk hk' := by
    have hlt := packetAt_next hp
    rw [hm k (.inr hk)]
    exact h.blank k (by omega) hk'

theorem CleanLog.first_ne (h : CleanLog m ps e) (hne : ps ≠ []) : m 0 ≠ 0xFF := by
  intro hff
  obtain ⟨p, ps, rfl⟩ := List.exists_cons_of_ne_nil hne
  have hp := h.path.1
  rw [packetAt, if_pos hff] at hp
  cases hp

/-- A well-formed log with the bytes of another goes on where that ends. -/
theorem CleanLog.tail (h' : CleanLog m' ps' e') (hpath : Path m 0 ps e) (he : e < writeEnd)
    (hm : ∀ k < e, m' k = m k) : ∃ qs, Path m' e qs e' :=
  hpath.prefix (fun k _ hk => hm k hk) h'.path fun k hk hk' => h'.blank k hk (by omega)

/-- The end of a path is that of its packets. -/
theorem Path.end_unique (h : Path m a ps e) (h' : Path m' a ps e') : e = e' := by
  induction ps generalizing a with
  | nil => exact h.symm.trans h'
  | cons p ps ih => exact ih h.2.2.2 h'.2.2.2

/-- The bytes of a log before a packet, its header, and those behind it. -/
theorem path_middle (h : Path m 0 (before ++ p :: later) e) :
    ∃ a, Path m 0 before a ∧ packetAt m a = some p ∧ calculateWordCnts p.worden ≠ 0 ∧
      p.sect.toNat < maxSection ∧ a < p.addr ∧ p.next ≤ e ∧ Path m p.next later e := by
  obtain ⟨a, hbefore, hp, hw, hs, hlater⟩ := path_append.mp h
  have haddr := packetAt_addr hp
  exact ⟨a, hbefore, hp, hw, hs, by omega, hlater.le, hlater⟩

/-- Other data of a packet. -/
theorem CleanLog.refill (h : CleanLog m (before ++ p :: later) e)
    (hm : ∀ k, k < p.addr ∨ p.next ≤ k → m' k = m k) : CleanLog m' (before ++ p :: later) e where
  path := by
    obtain ⟨a, hbefore, hp, hw, hs, ha, -, hlater⟩ := path_middle h.path
    refine path_append.mpr ⟨a, hbefore.congr fun k _ hk => hm k (.inl (by omega)), ?_, hw, hs,
      hlater.congr fun k hk _ => hm k (.inr hk)⟩
    exact packetAt_congr hp fun k _ hk => hm k (.inl hk)
  lt := h.lt
  blank k hk hk' := by
    obtain ⟨a, -, -, -, -, -, hle, -⟩ := path_middle h.path
    rw [hm k (.inr (by omega))]
    exact h.blank k hk hk'

theorem history_refill {t : UInt8} (h : CleanLog m (before ++ p :: later) e)
    (hm : ∀ k, k < p.addr ∨ p.next ≤ k → m' k = m k) :
    history m' t (before ++ p :: later) =
      history m t later ++ (if p.sect = t then [p.entries m'] else []) ++ history m t before := by
  obtain ⟨a, hbefore, -, -, -, ha, -, hlater⟩ := path_middle h.path
  rw [history_append_list, history_cons,
    hlater.history_eq fun k hk _ => hm k (.inr hk),
    hbefore.history_eq fun k _ hk => hm k (.inl (by omega))]

/-- A header without words at the end of the log. -/
theorem not_cleanLog_of_header (hpath : Path m 0 ps e) (he : e < writeEnd)
    (hm : ∀ k < e, m' k = m k) (hff : m' e ≠ 0xFF)
    (hnone : ∀ q, packetAt m' e = some q → calculateWordCnts q.worden = 0) :
    ¬ CleanLog m' ps' e' := by
  intro h'
  obtain ⟨qs, hqs⟩ := h'.tail hpath he hm
  cases qs with
  | nil =>
    obtain rfl : e = e' := hqs
    exact hff (h'.blank e le_rfl he)
  | cons q qs => exact hqs.2.1 (hnone q hqs.1)

/-- A blank byte at the end of the log, and one that is not blank behind it. -/
theorem not_cleanLog_of_hole (hpath : Path m 0 ps e) (he : e + 1 < writeEnd)
    (hm : ∀ k < e, m' k = m k) (hff : m' e = 0xFF) (hnext : m' (e + 1) ≠ 0xFF) :
    ¬ CleanLog m' ps' e' := by
  intro h'
  obtain ⟨qs, hqs⟩ := h'.tail hpath (by omega) hm
  cases qs with
  | nil =>
    obtain rfl : e = e' := hqs
    exact hnext (h'.blank (e + 1) (by omega) he)
  | cons q qs =>
    have hq := hqs.1
    rw [packetAt, if_pos hff] at hq
    cases hq

end logs

/-! ## Data of a packet -/

section entries

variable {w wordEn : UInt8} {data : ℕ → UInt8} {i : ℕ}

theorem lookup_wordEntries (is : List ℕ) :
    (wordEntries w data is).lookup i =
      if i ∈ is ∧ wordEnabled w i = true then some (dataWord data i) else none := by
  induction is with
  | nil => rfl
  | cons j is ih =>
    rw [wordEntries] at ih ⊢
    by_cases hij : i = j
    · subst hij
      by_cases hen : wordEnabled w i = true
      · rw [List.filter_cons_of_pos hen, List.map_cons, List.lookup_cons, beq_self_eq_true,
          if_pos ⟨List.mem_cons_self, hen⟩]
        rfl
      · rw [List.filter_cons_of_neg hen, ih, if_neg fun h => hen h.2, if_neg fun h => hen h.2]
    · by_cases hen : wordEnabled w j = true
      · rw [List.filter_cons_of_pos hen, List.map_cons, List.lookup_cons, beq_false_of_ne hij]
        simp only [ih, List.mem_cons, hij, false_or]
      · rw [List.filter_cons_of_neg hen]
        simp only [ih, List.mem_cons, hij, false_or]

theorem lookup_dataEntries (hi : i < 4) :
    (dataEntries w data).lookup i =
      if wordEnabled w i = true then some (dataWord data i) else none := by
  rw [dataEntries, lookup_wordEntries]
  simp only [List.mem_range, hi, true_and]

theorem targetData_of_enabled (hi : i < 4) (h : wordEnabled wordEn i = true) :
    dataWord (targetData wordEn data) i = dataWord data i := by
  have hlow : 2 * i / 2 = i := by omega
  have hhigh : (2 * i + 1) / 2 = i := by omega
  rw [dataWord, dataWord, targetData, wordEnableDataRead, wordEnableDataRead,
    if_pos ⟨by omega, by rw [hlow]; exact h⟩, if_pos ⟨by omega, by rw [hhigh]; exact h⟩]

theorem targetData_of_disabled (h : wordEnabled wordEn i ≠ true) :
    dataWord (targetData wordEn data) i = blankWord := by
  have hlow : 2 * i / 2 = i := by omega
  have hhigh : (2 * i + 1) / 2 = i := by omega
  rw [dataWord, targetData, wordEnableDataRead, wordEnableDataRead,
    if_neg (by rw [hlow]; exact fun hc => h hc.2), if_neg (by rw [hhigh]; exact fun hc => h hc.2)]
  rfl

/-- Words of the mask. -/
theorem dataEntries_targetData (h : ∀ i < 4, wordEnabled w i = true → wordEnabled wordEn i = true) :
    dataEntries w (targetData wordEn data) = dataEntries w data := by
  refine List.map_congr_left fun i hi => ?_
  obtain ⟨hrange, hen⟩ := List.mem_filter.mp hi
  have hi := List.mem_range.mp hrange
  exact congrArg (Prod.mk i) (targetData_of_enabled hi (h i hi hen))

theorem restOf_lt {p : Packet} (h : restOf wordEn p ≠ 0x0F) : (restOf wordEn p).toNat < 0x0F := by
  have hmask : ∀ w : UInt8, w &&& 0x0F = w → w ≠ 0x0F → w.toNat < 0x0F := by
    intro w hw hne
    have hle : w.toNat ≤ 0x0F := by
      rw [← hw]
      exact Nat.and_le_right
    exact Nat.lt_of_le_of_ne hle fun h => hne (UInt8.toNat_inj.mp h)
  exact hmask _ (restWordEn_and _ _) h

theorem wordEnabled_restOf {p : Packet} (hi : i < 4) :
    wordEnabled (restOf wordEn p) i = (wordEnabled wordEn i && !wordEnabled p.worden i) := by
  rw [restOf, restWordEn, wordEnabled_enableWords hi, matchWordEn, wordEnabled_enableWords hi]
  cases wordEnabled wordEn i <;> cases wordEnabled p.worden i <;> rfl

end entries

/-! ## One call -/

section call

variable {program : Program} {depth : ℕ} {f : Fuse} {a e : ℕ} {p : Packet}
  {ps before later : List Packet} {s wordEn : UInt8} {data : ℕ → UInt8}

/-- The call of `efuse_pg_packet_write` inside it. -/
def reorgWrite (program : Program) (depth : ℕ) (f : Fuse) (offset wordEn : UInt8)
    (data : ℕ → UInt8) : Option Fuse :=
  (pgPacketWrite program depth f offset wordEn data).map Prod.fst

/-- What the loop leaves is what the call leaves. -/
theorem pgPacketWrite_of_loop {st : PgWrite}
    (h : pgWriteLoop program (reorgWrite program depth) s (targetData wordEn data) loopFuel
      (.start f wordEn) = some st) :
    pgPacketWrite program (depth + 1) f s wordEn data = some (st.fuse, true) := by
  rw [pgPacketWrite]
  exact congrArg (Option.map fun st : PgWrite => (st.fuse, true)) h

/-- Enough iterations for a log and what follows it. -/
theorem exists_loopFuel (hlog : CleanLog f.content ps e) (hlen : before.length ≤ ps.length) :
    ∃ fuel, loopFuel = fuel + 5 + before.length := by
  have hle := hlog.path.length_le
  have hlt := hlog.lt
  have hfuel : writeEnd + 5 ≤ loopFuel := by decide
  exact ⟨loopFuel - 5 - before.length, by omega⟩

/-- The loop comes to the end of a log in which no packet is to be filled. -/
theorem pgWriteLoop_toEnd (program : Program) (depth : ℕ) (data : ℕ → UInt8)
    (hlog : CleanLog f.content ps e) (hskip : ∀ p ∈ ps, ¬ Repairable f.content s wordEn p) :
    ∃ fuel, pgWriteLoop program (reorgWrite program depth) s (targetData wordEn data) loopFuel
      (.start f wordEn) = pgWriteLoop program (reorgWrite program depth) s
        (targetData wordEn data) (fuel + 5) { PgWrite.start f wordEn with efuseAddr := e } := by
  obtain ⟨fuel, hfuel⟩ := exists_loopFuel hlog (Nat.le_refl ps.length)
  refine ⟨fuel, ?_⟩
  rw [hfuel]
  exact pgWriteLoop_walk rfl rfl rfl hlog.path (Nat.le_of_lt hlog.lt) hskip

/-- No packet to fill: the new one is behind the log. -/
theorem pgPacketWrite_append (depth : ℕ) (data : ℕ → UInt8) (hprog : Programs program)
    (hlog : CleanLog f.content ps e)
    (hfree : e + 10 < writeEnd) (hs : s.toNat < maxSection) (hw : wordEn.toNat < 0x0F)
    (hskip : ∀ p ∈ ps, ¬ Repairable f.content s wordEn p) :
    ∃ m' p, pgPacketWrite program (depth + 1) f s wordEn data =
        some ({ f with content := m' }, true) ∧
      CleanLog m' (ps ++ [p]) p.next ∧ p.sect = s ∧ p.entries m' = dataEntries wordEn data ∧
      ∀ k < e, m' k = f.content k := by
  obtain ⟨fuel, hwalk⟩ := pgWriteLoop_toEnd program depth data hlog hskip
  obtain ⟨m', p, st', hp, hsect, hworden, hnext, hframe, hentries, hloop, hfuse⟩ :=
    pgWriteLoop_append (reorgWrite program depth) (targetData wordEn data) hprog
      { PgWrite.start f wordEn with efuseAddr := e } e (fuel + 2) rfl rfl rfl (Nat.le_of_lt hfree)
      (fun k hk hk' => hlog.blank k hk (by omega)) hs hw
  refine ⟨m', p, ?_, ?_, hsect, ?_, fun k hk => hframe k (.inl hk)⟩
  · rw [pgPacketWrite_of_loop (hwalk.trans hloop), hfuse]
    rfl
  · exact hlog.append hp (by rw [hworden]; exact calculateWordCnts_pos hw) (hsect ▸ hs)
      (by omega) hframe
  · rw [hentries]
    exact dataEntries_targetData fun i _ h => h

variable (depth data) in
/-- The first packet that can be filled is. -/
theorem pgWriteLoop_refill (hprog : Programs program)
    (hlog : CleanLog f.content (before ++ p :: later) e)
    (hrep : Repairable f.content s wordEn p)
    (hskip : ∀ q ∈ before, ¬ Repairable f.content s wordEn q) :
    ∃ m₁, (∀ k, k < p.addr ∨ p.next ≤ k → m₁ k = f.content k) ∧
      p.entries m₁ = dataEntries p.worden (targetData wordEn data) ∧
      ∀ fuel st₁, (if restOf wordEn p ≠ 0x0F then
          { PgWrite.start f wordEn with
            fuse := (getCurrentSize { f with content := m₁ }).1
            efuseAddr := (getCurrentSize { f with content := m₁ }).2
            wordEn := restOf wordEn p }.repeated
        else
          { PgWrite.start f wordEn with
            fuse := { f with content := m₁ }
            efuseAddr := p.addr - 1
            bContinual := false }.repeated) = st₁ →
        pgWriteLoop program (reorgWrite program depth) s (targetData wordEn data)
          (fuel + 1 + before.length) (.start f wordEn) =
        pgWriteLoop program (reorgWrite program depth) s (targetData wordEn data) fuel st₁ := by
  obtain ⟨a, hbefore, hp, hw, -, ha, hle, -⟩ := path_middle hlog.path
  have hlt := hlog.lt
  have hnext := packetAt_next hp
  obtain ⟨m₁, hframe, hentries, hfill⟩ := packet_fill (reorgWrite program depth)
    (targetData wordEn data) { PgWrite.start f wordEn with efuseAddr := a } hprog
    (by omega : 1 ≤ p.addr) hrep
  refine ⟨m₁, hframe, hentries, fun fuel st₁ hst => ?_⟩
  rw [pgWriteLoop_walk rfl rfl rfl hbefore (by omega) hskip]
  refine pgWriteLoop_succ rfl (by show a < writeEnd; omega) ?_
  rw [writeStep_packet rfl rfl hp hw, hfill, ← hst]
  exact (apply_ite some _ _ _).symm

/-- Nothing is left over, or the threshold keeps it from being written. -/
theorem pgPacketWrite_refill_stop (depth : ℕ) (data : ℕ → UInt8) (hprog : Programs program)
    (hlog : CleanLog f.content (before ++ p :: later) e)
    (hrep : Repairable f.content s wordEn p)
    (hskip : ∀ q ∈ before, ¬ Repairable f.content s wordEn q) (hrest : ¬ RestWritten f wordEn p) :
    ∃ f', pgPacketWrite program (depth + 1) f s wordEn data = some (f', true) ∧
      (∀ k, k < p.addr ∨ p.next ≤ k → f'.content k = f.content k) ∧
      p.entries f'.content = dataEntries p.worden (targetData wordEn data) := by
  obtain ⟨fuel, hfuel⟩ := exists_loopFuel hlog
    (List.sublist_append_left before (p :: later)).length_le
  obtain ⟨m₁, hframe, hentries, hloop⟩ := pgWriteLoop_refill depth data hprog hlog hrep hskip
  have hloop' := hloop (fuel + 4) _ rfl
  rw [show fuel + 4 + 1 + before.length = loopFuel from hfuel.symm] at hloop'
  by_cases hleft : restOf wordEn p = 0x0F
  · rw [if_neg (not_not.mpr hleft), pgWriteLoop_stop rfl] at hloop'
    exact ⟨_, pgPacketWrite_of_loop hloop', hframe, hentries⟩
  · rw [if_pos hleft, pgWriteLoop_stop] at hloop'
    · exact ⟨_, pgPacketWrite_of_loop hloop', hframe, hentries⟩
    · have hrepeat : ¬ f.repeatTimes + 1 ≤ repeatThreshold := fun h => hrest ⟨hleft, h⟩
      exact decide_eq_false hrepeat

/-- Where `efuse_get_current_size` ends, in a log with the same headers. -/
theorem getCurrentSize_refill {m₁ : Content} (hlog : CleanLog f.content ps e)
    (hlog₁ : CleanLog m₁ ps e) (hfree : e + 10 < writeEnd) (hbytes : SizeKnown f ps e) :
    (getCurrentSize { f with content := m₁ }).2 = if f.efuseBytes ≤ e then e else e + 1 := by
  have hreal : writeEnd ≤ realContentLen := by decide
  show currentSizeLoop m₁ realContentLen f.efuseBytes = _
  rcases hbytes with ⟨ps₁, ps₂, rfl, hpath⟩ | h1
  · obtain ⟨c, hc, hrest⟩ := path_append.mp hlog₁.path
    obtain rfl := hpath.end_unique hc
    have hlen := hrest.length_le
    rw [if_pos hrest.le]
    exact currentSizeLoop_path hrest (by omega) (hlog₁.blank e le_rfl hlog.lt) (by omega)
  · have hnil : Path m₁ (e + 1) [] (e + 1) := rfl
    rw [if_neg (by omega), h1]
    exact currentSizeLoop_path hnil (by omega) (hlog₁.blank (e + 1) (by omega) (by omega))
      (Nat.zero_le _)

/-- The words left over are written where `efuse_get_current_size` ends. -/
theorem pgPacketWrite_refill_rest (depth : ℕ) (data : ℕ → UInt8) (hprog : Programs program)
    (hlog : CleanLog f.content (before ++ p :: later) e) (hfree : e + 10 < writeEnd)
    (hrep : Repairable f.content s wordEn p) (hs : s.toNat < maxSection)
    (hskip : ∀ q ∈ before, ¬ Repairable f.content s wordEn q) (hrest : RestWritten f wordEn p)
    (hbytes : SizeKnown f (before ++ p :: later) e) :
    ∃ m₁ f' q c, pgPacketWrite program (depth + 1) f s wordEn data = some (f', true) ∧
      (∀ k, k < p.addr ∨ p.next ≤ k → m₁ k = f.content k) ∧
      p.entries m₁ = dataEntries p.worden (targetData wordEn data) ∧
      c = (if f.efuseBytes ≤ e then e else e + 1) ∧
      packetAt f'.content c = some q ∧ q.sect = s ∧ q.worden = restOf wordEn p ∧
      q.next ≤ c + 10 ∧ (∀ k, k < c ∨ q.next ≤ k → f'.content k = m₁ k) ∧
      q.entries f'.content = dataEntries (restOf wordEn p) data := by
  obtain ⟨fuel, hfuel⟩ := exists_loopFuel hlog
    (List.sublist_append_left before (p :: later)).length_le
  obtain ⟨m₁, hframe, hentries, hloop⟩ := pgWriteLoop_refill depth data hprog hlog hrep hskip
  have hlog₁ := hlog.refill hframe
  have hsize : (getCurrentSize { f with content := m₁ }).2 =
      if f.efuseBytes ≤ e then e else e + 1 := getCurrentSize_refill hlog hlog₁ hfree hbytes
  have hloop' := hloop (fuel + 4) _ rfl
  rw [show fuel + 4 + 1 + before.length = loopFuel from hfuel.symm, if_pos hrest.1, hsize]
    at hloop'
  generalize hc : (if f.efuseBytes ≤ e then e else e + 1) = c at hloop'
  have hce : e ≤ c ∧ c ≤ e + 1 := by
    rw [← hc]
    split_ifs
    · exact ⟨le_rfl, Nat.le_succ e⟩
    · exact ⟨Nat.le_succ e, le_rfl⟩
  have hgo : (true && decide (f.repeatTimes + 1 ≤ repeatThreshold)) = true := by
    rw [decide_eq_true (show f.repeatTimes + 1 ≤ repeatThreshold from hrest.2), Bool.true_and]
  obtain ⟨m₂, q, st', hq, hsect, hworden, hnext, hframe₂, hentries₂, hend, hfuse⟩ :=
    pgWriteLoop_append (reorgWrite program depth) (targetData wordEn data) hprog
      { PgWrite.start f wordEn with
        fuse := (getCurrentSize { f with content := m₁ }).1
        efuseAddr := c
        wordEn := restOf wordEn p }.repeated c (fuel + 1) rfl hgo rfl (by omega)
      (fun k hk hk' => hlog₁.blank k (by omega) (by omega)) hs (restOf_lt hrest.1)
  have hcontent : st'.fuse.content = m₂ := by rw [hfuse]
  refine ⟨m₁, st'.fuse, q, c, pgPacketWrite_of_loop (hloop'.trans hend), hframe, hentries, rfl, ?_⟩
  rw [hcontent]
  refine ⟨hq, hsect, hworden, hnext, hframe₂, hentries₂.trans ?_⟩
  refine dataEntries_targetData fun i hi hen => ?_
  have hboth : (wordEnabled wordEn i && !wordEnabled p.worden i) = true :=
    (wordEnabled_restOf hi).symm.trans hen
  exact (Bool.and_eq_true_iff.mp hboth).1

end call

/-! ## A mask without words -/

section noWords

variable {program : Program} {depth : ℕ} {f : Fuse} {e : ℕ} {ps : List Packet} {s : UInt8}
  {data : ℕ → UInt8}

theorem wordEnabled_none {i : ℕ} (hi : i < 4) : wordEnabled 0x0F i = false := by
  have hall : ∀ i < 4, wordEnabled 0x0F i = false := by decide
  exact hall i hi

theorem not_repairable_none (m : Content) (p : Packet) : ¬ Repairable m s 0x0F p := by
  rintro ⟨-, -, h⟩
  refine h ((enableWords_eq_iff _).mpr fun i hi => ?_)
  rw [wordEnabled_none hi, Bool.false_and]

theorem wordEnableDataWrite_none (m : Content) (a : ℕ) (d : ℕ → UInt8) :
    wordEnableDataWrite program m a 0x0F d = (m, 0x0F) := by
  have hskip : ∀ is : List ℕ, (∀ i ∈ is, i < 4) → ∀ r, writeWords program 0x0F d is a r = r := by
    intro is his r
    induction is with
    | nil => rfl
    | cons i is ih =>
      rw [writeWords, wordEnabled_none (his i List.mem_cons_self), if_neg Bool.false_ne_true]
      exact ih fun j hj => his j (List.mem_cons_of_mem i hj)
  exact hskip _ (fun i hi => List.mem_range.mp hi) _

/-- A header of one byte without words. -/
theorem oneHeader_none (hs : s.toNat < maxSectionBase) (h15 : s ≠ 0x0F) :
    s <<< 4 &&& 0xF0 ||| 0x0F ≠ 0xFF ∧ (s <<< 4 &&& 0xF0 ||| 0x0F) &&& 0x0F = 0x0F := by
  have hall : ∀ s : Fin 16, UInt8.ofNat s ≠ 0x0F →
      UInt8.ofNat s <<< 4 &&& 0xF0 ||| 0x0F ≠ 0xFF ∧
        (UInt8.ofNat s <<< 4 &&& 0xF0 ||| 0x0F) &&& 0x0F = 0x0F := by
    decide +kernel
  have h := hall ⟨s.toNat, hs⟩
  rw [UInt8.ofNat_toNat] at h
  exact h h15

theorem extFirst_and (hs : s.toNat < maxSection) : extFirst s &&& 0x0F = 0x0F := by
  have hall : ∀ s : Fin 64, extFirst (UInt8.ofNat s) &&& 0x0F = 0x0F := by decide +kernel
  have h := hall ⟨s.toNat, hs⟩
  rwa [UInt8.ofNat_toNat] at h

theorem extSecond_none (hs : s.toNat < maxSection) :
    extSecond s 0x0F ≠ 0xFF ∧ extSecond s 0x0F &&& 0x0F = 0x0F := by
  have hall : ∀ s : Fin 64, extSecond (UInt8.ofNat s) 0x0F ≠ 0xFF ∧
      extSecond (UInt8.ofNat s) 0x0F &&& 0x0F = 0x0F := by
    decide +kernel
  have h := hall ⟨s.toNat, hs⟩
  rwa [UInt8.ofNat_toNat] at h

/-- A header of one byte, and no data. -/
theorem pgPacketWrite_noWords_short (depth : ℕ) (data : ℕ → UInt8) (hprog : Programs program)
    (hlog : CleanLog f.content ps e)
    (hs : s.toNat < maxSectionBase) :
    pgPacketWrite program (depth + 1) f s 0x0F data = some
      ({ f with content := Function.update f.content e (s <<< 4 &&& 0xF0 ||| 0x0F) }, true) := by
  have hff : f.content e = 0xFF := hlog.blank e le_rfl hlog.lt
  obtain ⟨fuel, hwalk⟩ := pgWriteLoop_toEnd program depth data hlog fun p _ =>
    not_repairable_none f.content p
  have hheader : PgWrite.step program (reorgWrite program depth) s (targetData 0x0F data)
      { PgWrite.start f 0x0F with efuseAddr := e } =
      some { PgWrite.start f 0x0F with
        fuse := { f with content := Function.update f.content e (s <<< 4 &&& 0xF0 ||| 0x0F) }
        efuseAddr := e
        writeState := .data } := by
    rw [step_blank rfl hff]
    unfold PgWrite.writeHeader
    rw [if_neg (Nat.not_le.mpr hs)]
    simp only [PgWrite.start, hprog _ _ _ hff, Function.update_self, PgWrite.headerRead, if_true]
  have hend : pgWriteLoop program (reorgWrite program depth) s (targetData 0x0F data) loopFuel
      (.start f 0x0F) = some { PgWrite.start f 0x0F with
        fuse := { f with content := Function.update f.content e (s <<< 4 &&& 0xF0 ||| 0x0F) }
        efuseAddr := e
        writeState := .data
        bContinual := false } := by
    rw [hwalk, pgWriteLoop_succ rfl (by exact hlog.lt) hheader]
    refine (pgWriteLoop_succ rfl hlog.lt ?_).trans (pgWriteLoop_stop rfl)
    simp only [PgWrite.step, PgWrite.writeData, PgWrite.start, wordEnableDataWrite_none]
    rfl
  exact pgPacketWrite_of_loop hend

/-- One of them. -/
theorem step_noWords_ext (reorg : Fuse → UInt8 → UInt8 → (ℕ → UInt8) → Option Fuse)
    (data : ℕ → UInt8) (hprog : Programs program) (hbase : maxSectionBase ≤ s.toNat)
    (hs : s.toNat < maxSection) {a : ℕ} {st : PgWrite} (hstate : st.writeState = .header)
    (ha : st.efuseAddr = a) (hw : st.wordEn = 0x0F) (hff : st.fuse.content a = 0xFF)
    (hff' : st.fuse.content (a + 1) = 0xFF) :
    ∃ st', st.step program reorg s data = some st' ∧
      st'.fuse = { st.fuse with
        content := Function.update (Function.update st.fuse.content a (extFirst s)) (a + 1)
          (extSecond s 0x0F)
        repeatTimes := st.fuse.repeatTimes + 1 } ∧
      st'.writeState = .header ∧ st'.wordEn = 0x0F ∧
      st'.bContinual = (st.bContinual && decide (st.fuse.repeatTimes + 1 ≤ repeatThreshold)) ∧
      (st'.bContinual = true → st'.efuseAddr = a + 2) := by
  subst ha
  obtain ⟨hfirst, -⟩ := extHeader_extFirst hs
  obtain ⟨hsecond, hlow⟩ := extSecond_none hs
  have hff₂ : Function.update st.fuse.content st.efuseAddr (extFirst s) (st.efuseAddr + 1) =
      0xFF := by
    rw [Function.update_of_ne (Nat.succ_ne_self _)]
    exact hff'
  have hwrite₂ : programHeader program (st.efuseAddr + 1) (extSecond s 0x0F)
      { st.fuse with
        content := Function.update st.fuse.content st.efuseAddr (extFirst s) } = _ :=
    programHeader_blank hprog hff₂ hsecond
  have hstep : st.step program reorg s data = some
      (if (st.bContinual && decide (st.fuse.repeatTimes + 1 ≤ repeatThreshold)) = true then
        { st with
          fuse := { st.fuse with
            content := Function.update (Function.update st.fuse.content st.efuseAddr (extFirst s))
              (st.efuseAddr + 1) (extSecond s 0x0F) }
          efuseAddr := st.efuseAddr + 1 + 1 }.repeated
      else
        { st with
          fuse := { st.fuse with
            content := Function.update (Function.update st.fuse.content st.efuseAddr (extFirst s))
              (st.efuseAddr + 1) (extSecond s 0x0F) }
          efuseAddr := st.efuseAddr + 1 }.repeated) := by
    rw [step_blank hstate hff]
    unfold PgWrite.writeHeader
    rw [if_pos hbase]
    simp only [programHeader_blank hprog hff hfirst, hw, hwrite₂, Function.update_self,
      Bool.not_true, Bool.false_eq_true, if_false, if_true, hlow]
    rfl
  rw [hstep]
  by_cases hgo : (st.bContinual && decide (st.fuse.repeatTimes + 1 ≤ repeatThreshold)) = true
  · rw [if_pos hgo]
    exact ⟨_, rfl, rfl, rfl, hw, rfl, fun _ => rfl⟩
  · rw [if_neg hgo]
    exact ⟨_, rfl, rfl, rfl, hw, rfl, fun h => absurd h hgo⟩

theorem update_two {m : Content} {a : ℕ} {v v' : UInt8} :
    (∀ k < a, Function.update (Function.update m a v) (a + 1) v' k = m k) ∧
      Function.update (Function.update m a v) (a + 1) v' a = v ∧
      Function.update (Function.update m a v) (a + 1) v' (a + 1) = v' := by
  refine ⟨fun k hk => ?_, ?_, Function.update_self _ _ _⟩
  · rw [Function.update_of_ne (by omega), Function.update_of_ne (by omega)]
  · rw [Function.update_of_ne (by omega), Function.update_self]

/-- Headers of two bytes, until the threshold ends it. -/
theorem pgWriteLoop_noWords_ext (reorg : Fuse → UInt8 → UInt8 → (ℕ → UInt8) → Option Fuse)
    (data : ℕ → UInt8) (hprog : Programs program) (hbase : maxSectionBase ≤ s.toNat)
    (hs : s.toNat < maxSection) (n fuel a : ℕ) (st : PgWrite) (hstate : st.writeState = .header)
    (hgo : st.bContinual = true) (ha : st.efuseAddr = a) (hw : st.wordEn = 0x0F)
    (hn : repeatThreshold ≤ st.fuse.repeatTimes + n) (hend : a + 2 * n + 1 < writeEnd)
    (hblank : ∀ k, a ≤ k → k < a + 2 * n + 2 → st.fuse.content k = 0xFF) :
    ∃ st', pgWriteLoop program reorg s data (fuel + n + 2) st = some st' ∧
      (∀ k < a, st'.fuse.content k = st.fuse.content k) ∧ st'.fuse.content a = extFirst s ∧
      st'.fuse.content (a + 1) = extSecond s 0x0F := by
  induction n generalizing st a with
  | zero =>
    obtain ⟨st₁, hstep, hfuse, -, -, hgo₁, -⟩ := step_noWords_ext reorg data hprog hbase
      hs hstate ha hw (hblank a le_rfl (by omega)) (hblank (a + 1) (by omega) (by omega))
    rw [hgo, decide_eq_false (by omega), Bool.and_false] at hgo₁
    refine ⟨st₁, ?_, ?_⟩
    · rw [pgWriteLoop_succ hgo (by omega) hstep, pgWriteLoop_stop hgo₁]
    · rw [hfuse]
      exact update_two
  | succ n ih =>
    obtain ⟨st₁, hstep, hfuse, hstate₁, hw₁, hgo₁, haddr₁⟩ := step_noWords_ext reorg data
      hprog hbase hs hstate ha hw (hblank a le_rfl (by omega))
      (hblank (a + 1) (by omega) (by omega))
    have hloop : pgWriteLoop program reorg s data (fuel + (n + 1) + 2) st =
        pgWriteLoop program reorg s data (fuel + n + 2) st₁ :=
      pgWriteLoop_succ hgo (by omega) hstep
    have htwo : (∀ k < a, st₁.fuse.content k = st.fuse.content k) ∧
        st₁.fuse.content a = extFirst s ∧ st₁.fuse.content (a + 1) = extSecond s 0x0F := by
      rw [hfuse]
      exact update_two
    rw [hgo, Bool.true_and] at hgo₁
    by_cases hr : st.fuse.repeatTimes + 1 ≤ repeatThreshold
    · rw [decide_eq_true hr] at hgo₁
      have hrepeat : st₁.fuse.repeatTimes = st.fuse.repeatTimes + 1 := by rw [hfuse]
      obtain ⟨st', hend', hframe, -⟩ := ih (a + 2) st₁ hstate₁ hgo₁ (haddr₁ hgo₁) hw₁ (by omega)
        (by omega) fun k hk hk' => by
          rw [hfuse]
          show Function.update (Function.update _ _ _) _ _ k = _
          rw [Function.update_of_ne (by omega), Function.update_of_ne (by omega)]
          exact hblank k (by omega) (by omega)
      refine ⟨st', hloop.trans hend', fun k hk => ?_, ?_, ?_⟩
      · rw [hframe k (by omega), htwo.1 k hk]
      · rw [hframe a (by omega), htwo.2.1]
      · rw [hframe (a + 1) (by omega), htwo.2.2]
    · rw [decide_eq_false hr] at hgo₁
      exact ⟨st₁, hloop.trans (pgWriteLoop_stop hgo₁), htwo⟩

end noWords

/-! ## When it reads back -/

section main

variable {program : Program} {depth : ℕ} {f f' : Fuse} {m : Content} {e e' : ℕ} {p : Packet}
  {ps ps' before later : List Packet} {s wordEn : UInt8} {data : ℕ → UInt8}
  {h h' older older' : List (List (ℕ × Word))} {i : ℕ}

theorem writeOk_iff_readsBack
    (hwrite : pgPacketWrite program (depth + 1) f s wordEn data = some (f', true))
    (hlog' : CleanLog f'.content ps' e') :
    WriteOk program depth f ps s wordEn data ↔
      ReadsBack f.content f'.content ps s wordEn data := by
  constructor
  · rintro ⟨f'', hwrite'', -, hreads⟩
    obtain rfl := (Prod.mk.inj (Option.some.inj (hwrite.symm.trans hwrite''))).1
    exact hreads
  · exact fun hreads => ⟨f', hwrite, ⟨ps', e', hlog'⟩, hreads⟩

theorem not_writeOk_of_not_cleanLog
    (hwrite : pgPacketWrite program (depth + 1) f s wordEn data = some (f', true))
    (hnot : ∀ ps' e', ¬ CleanLog f'.content ps' e') :
    ¬ WriteOk program depth f ps s wordEn data := by
  rintro ⟨f'', hwrite'', ⟨ps', e', hlog'⟩, -⟩
  obtain rfl := (Prod.mk.inj (Option.some.inj (hwrite.symm.trans hwrite''))).1
  exact hnot ps' e' hlog'

/-- A header whose two bytes enable no word. -/
theorem packetAt_noWords {a : ℕ} {q : Packet} (h0 : m a &&& 0x0F = 0x0F)
    (h1 : m (a + 1) &&& 0x0F = 0x0F) (hq : packetAt m a = some q) :
    calculateWordCnts q.worden = 0 := by
  rw [packetAt] at hq
  split_ifs at hq with hff hext hok
  · rw [allWordsDisabled, h1] at hok
    exact absurd hok.2 (by decide)
  · obtain rfl := Option.some.inj hq
    show calculateWordCnts (m a &&& 0x0F) = 0
    rw [h0]
    decide

/-- Without words the call leaves the log as it is for section 15 only, whose header is `0xFF`. -/
theorem writeOk_noWords_iff (hprog : Programs program) (hlog : CleanLog f.content ps e)
    (hfree : e + 10 < writeEnd) (hs : s.toNat < maxSection) :
    WriteOk program depth f ps s 0x0F data ↔ s = 0x0F := by
  have hff : f.content e = 0xFF := hlog.blank e le_rfl hlog.lt
  have hff' : f.content (e + 1) = 0xFF := hlog.blank (e + 1) (by omega) (by omega)
  by_cases hbase : s.toNat < maxSectionBase
  · have hwrite := pgPacketWrite_noWords_short depth data hprog hlog hbase
    by_cases h15 : s = 0x0F
    · subst h15
      have hsame : Function.update f.content e ((0x0F : UInt8) <<< 4 &&& 0xF0 ||| 0x0F) =
          f.content := by
        rw [show (0x0F : UInt8) <<< 4 &&& 0xF0 ||| 0x0F = f.content e by rw [hff]; decide]
        exact Function.update_eq_self e f.content
      rw [hsame] at hwrite
      refine iff_of_true ((writeOk_iff_readsBack hwrite hlog).mpr ?_) rfl
      constructor
      · intro t _ buf k hk
        rw [if_neg fun h => by
          rw [wordEnabled_none (by omega)] at h
          exact Bool.false_ne_true h.2]
      · intro hne t ht pbuf k hk
        rw [readEfuse_log hlog.log ht pbuf hk, if_neg hne, if_neg fun h => by
          rw [wordEnabled_none (by omega)] at h
          exact Bool.false_ne_true h.2]
    · refine iff_of_false (not_writeOk_of_not_cleanLog hwrite fun ps' e' => ?_) h15
      obtain ⟨hne, hlow⟩ := oneHeader_none hbase h15
      refine not_cleanLog_of_header hlog.path hlog.lt
        (fun k hk => Function.update_of_ne (Nat.ne_of_lt hk) _ _) ?_ fun q hq => ?_
      · show Function.update f.content e _ e ≠ 0xFF
        rw [Function.update_self]
        exact hne
      · refine packetAt_noWords ?_ ?_ hq
        · show Function.update f.content e _ e &&& 0x0F = 0x0F
          rw [Function.update_self]
          exact hlow
        · show Function.update f.content e _ (e + 1) &&& 0x0F = 0x0F
          rw [Function.update_of_ne (Nat.succ_ne_self e), hff']
          decide
  · have h15 : s ≠ 0x0F := by
      rintro rfl
      exact hbase (by decide)
    obtain ⟨fuel, hwalk⟩ := pgWriteLoop_toEnd program depth data hlog fun p _ =>
      not_repairable_none f.content p
    obtain ⟨st, hloop, hframe, hfirst, hsecond⟩ := pgWriteLoop_noWords_ext
      (reorgWrite program depth) (targetData 0x0F data) hprog (Nat.not_lt.mp hbase) hs 3 fuel e
      { PgWrite.start f 0x0F with efuseAddr := e } rfl rfl rfl rfl (Nat.le_add_left _ _)
      (by omega) fun k hk hk' => hlog.blank k hk (by omega)
    refine iff_of_false (not_writeOk_of_not_cleanLog (pgPacketWrite_of_loop (hwalk.trans hloop))
      fun ps' e' => ?_) h15
    refine not_cleanLog_of_header hlog.path hlog.lt hframe ?_ fun q hq => ?_
    · rw [hfirst]
      exact (extHeader_extFirst hs).1
    · refine packetAt_noWords ?_ ?_ hq
      · rw [hfirst]
        exact extFirst_and hs
      · rw [hsecond]
        exact (extSecond_none hs).2

/-! ### Words -/

theorem latest_append_congr (hs' : List (List (ℕ × Word)))
    (heq : latest older i = latest older' i) :
    latest (hs' ++ older) i = latest (hs' ++ older') i := by
  induction hs' with
  | nil => exact heq
  | cons es hs' ih =>
    rw [List.cons_append, List.cons_append, latest, latest, ih]

/-- The words that the mask leaves out are blank in the filled packet, as they were. -/
theorem lookup_filled (hblank : IsBlank (p.entries m)) (hi : i < 4)
    (hen : wordEnabled wordEn i ≠ true) :
    (dataEntries p.worden (targetData wordEn data)).lookup i = (p.entries m).lookup i := by
  have hsome := lookup_entries_isSome (m := m) (p := p) hi
  rw [lookup_dataEntries hi]
  by_cases hword : wordEnabled p.worden i = true
  · rw [if_pos hword, targetData_of_disabled hen]
    obtain ⟨word, hlook⟩ := Option.isSome_iff_exists.mp (hsome.mpr hword)
    obtain ⟨l₁, l₂, hes, -⟩ := List.lookup_eq_some_iff.mp hlook
    have hmem : (i, word) ∈ p.entries m := by
      rw [hes]
      exact List.mem_append_right l₁ List.mem_cons_self
    rw [hlook, show word = blankWord from hblank (i, word) hmem]
  · rw [if_neg hword, eq_comm, ← Option.not_isSome_iff_eq_none, hsome]
    exact hword

/-- The readers' words, where the others are as they were. -/
theorem words_iff (hothers : ∀ i < 4, wordEnabled wordEn i ≠ true → latest h' i = latest h i) :
    (∀ i < 4, latest h' i = (if wordEnabled wordEn i = true then dataWord data i else latest h i) ∧
      kept h' i = if wordEnabled wordEn i = true then dataWord data i else kept h i) ↔
      ∀ i < 4, WordKept wordEn data h h' i := by
  refine forall₂_congr fun i hi => ?_
  rw [WordKept]
  by_cases hen : wordEnabled wordEn i = true
  · simp only [if_pos hen]
    rw [wordOk_iff]
    exact and_congr_right fun hlatest => by rw [hlatest]; exact eq_comm
  · simp only [if_neg hen]
    exact and_iff_right (hothers i hi hen)

/-! ### A new packet -/

theorem latest_dataEntries (hi : i < 4) :
    latest (dataEntries wordEn data :: older) i =
      if wordEnabled wordEn i = true then dataWord data i else latest older i := by
  rw [latest, lookup_dataEntries hi]
  split_ifs
  · rfl
  · rfl

theorem writeOk_append_iff (hprog : Programs program) (hlog : CleanLog f.content ps e)
    (hfree : e + 10 < writeEnd) (hs : s.toNat < maxSection) (hw : wordEn.toNat < 0x0F)
    (hskip : ∀ p ∈ ps, ¬ Repairable f.content s wordEn p) :
    WriteOk program depth f ps s wordEn data ↔ ∀ i < 4, wordEnabled wordEn i = true →
      WordOk i (dataEntries wordEn data :: history f.content s ps) := by
  obtain ⟨m', p, hwrite, hlog', hsect, hentries, hframe⟩ :=
    pgPacketWrite_append depth data hprog hlog hfree hs hw hskip
  have hhistory : ∀ t, history m' t (ps ++ [p]) =
      if p.sect = t then p.entries m' :: history f.content t ps else history f.content t ps := by
    intro t
    rw [history_append, hlog.path.history_eq fun k _ hk => hframe k hk]
  have hself : history m' s (ps ++ [p]) = dataEntries wordEn data :: history f.content s ps := by
    rw [hhistory, if_pos hsect, hentries]
  rw [writeOk_iff_readsBack hwrite hlog', readsBack_iff hlog hlog' hs (hlog'.first_ne (by simp)),
    hself, words_iff]
  · refine forall₂_congr fun i hi => ?_
    rw [WordKept]
    by_cases hen : wordEnabled wordEn i = true
    · rw [if_pos hen, latest_dataEntries hi, if_pos hen]
      exact ⟨fun h _ => h.2, fun h => ⟨rfl, h hen⟩⟩
    · rw [if_neg hen, kept, if_pos (Or.inr (by rw [lookup_dataEntries hi, if_neg hen]))]
      exact ⟨fun _ h => absurd h hen, fun _ => rfl⟩
  · intro i hi hen
    rw [latest_dataEntries hi, if_neg hen]
  · intro t ht
    rw [hhistory, if_neg (hsect.trans_ne ht.symm)]

/-! ### A packet that is filled -/

theorem latest_refilled (hblank : IsBlank (p.entries m)) (hi : i < 4)
    (hsect : p.sect = s) (hen : wordEnabled wordEn i ≠ true) :
    latest (refilled m s wordEn data before p later) i =
      latest (history m s (before ++ p :: later)) i := by
  rw [refilled, history_append_list, history_cons, if_pos hsect, List.append_assoc]
  refine latest_append_congr _ ?_
  show latest (_ :: history m s before) i = latest (p.entries m :: history m s before) i
  rw [latest, latest, lookup_filled hblank hi hen]

/-- The log with the filled packet. -/
theorem history_filled (hlog : CleanLog m (before ++ p :: later) e) {m' : Content}
    (hframe : ∀ k, k < p.addr ∨ p.next ≤ k → m' k = m k) (hsect : p.sect = s)
    (hentries : p.entries m' = dataEntries p.worden (targetData wordEn data)) (t : UInt8) :
    history m' t (before ++ p :: later) =
      if t = s then refilled m s wordEn data before p later
      else history m t (before ++ p :: later) := by
  rw [history_refill hlog hframe]
  by_cases hts : t = s
  · subst hts
    rw [if_pos hsect, if_pos rfl, hentries, refilled, List.append_assoc]
    rfl
  · rw [if_neg (hsect.trans_ne (Ne.symm hts)), if_neg hts, history_append_list, history_cons,
      if_neg (hsect.trans_ne (Ne.symm hts))]

theorem writeOk_refill_iff (depth : ℕ) (data : ℕ → UInt8) (hprog : Programs program)
    (hlog : CleanLog f.content (before ++ p :: later) e) (hfree : e + 10 < writeEnd)
    (hs : s.toNat < maxSection) (hrep : Repairable f.content s wordEn p)
    (hskip : ∀ q ∈ before, ¬ Repairable f.content s wordEn q)
    (hbytes : SizeKnown f (before ++ p :: later) e) :
    WriteOk program depth f (before ++ p :: later) s wordEn data ↔
      (RestWritten f wordEn p → f.efuseBytes ≤ e) ∧
        ∀ i < 4, WordKept wordEn data (history f.content s (before ++ p :: later))
          (rewritten f s wordEn data before p later) i := by
  obtain ⟨hsect, hblank, -⟩ := id hrep
  have hne : before ++ p :: later ≠ [] := by simp
  by_cases hrest : RestWritten f wordEn p
  · obtain ⟨m₁, f', q, c, hwrite, hframe, hentries, hc, hq, hqs, hqw, hnext, hframe₂, hentries₂⟩ :=
      pgPacketWrite_refill_rest depth data hprog hlog hfree hrep hs hskip hrest hbytes
    have hlog₁ := hlog.refill hframe
    by_cases h0 : f.efuseBytes ≤ e
    · obtain rfl : c = e := by rw [hc, if_pos h0]
      have hlog' : CleanLog f'.content (before ++ p :: later ++ [q]) q.next :=
        hlog₁.append hq (by rw [hqw]; exact calculateWordCnts_pos (restOf_lt hrest.1)) (hqs ▸ hs)
          (by omega) hframe₂
      have hhistory : ∀ t, history f'.content t (before ++ p :: later ++ [q]) =
          if t = s then rewritten f s wordEn data before p later
          else history f.content t (before ++ p :: later) := by
        intro t
        rw [history_append, hlog₁.path.history_eq fun k _ hk => hframe₂ k (.inl hk),
          history_filled hlog hframe hsect hentries, rewritten, if_pos hrest, hentries₂, hqs]
        by_cases hts : t = s
        · rw [if_pos hts, if_pos hts, if_pos hts.symm]
        · rw [if_neg hts, if_neg hts, if_neg (Ne.symm hts)]
      rw [writeOk_iff_readsBack hwrite hlog',
        readsBack_iff hlog hlog' hs (hlog'.first_ne (by simp)), hhistory, if_pos rfl, words_iff]
      · exact (and_iff_right fun _ => h0).symm
      · intro i hi hen
        have hnot : wordEnabled (restOf wordEn p) i ≠ true := by
          rw [wordEnabled_restOf hi, Bool.eq_false_iff.mpr hen, Bool.false_and]
          exact Bool.false_ne_true
        rw [rewritten, if_pos hrest, latest_dataEntries hi, if_neg hnot,
          latest_refilled hblank hi hsect hen]
      · intro t ht
        rw [hhistory, if_neg ht]
    · obtain rfl : c = e + 1 := by rw [hc, if_neg h0]
      refine iff_of_false (not_writeOk_of_not_cleanLog hwrite fun ps' e' => ?_)
        fun hcond => h0 (hcond.1 hrest)
      refine not_cleanLog_of_hole hlog₁.path (by omega) (fun k hk => hframe₂ k (.inl (by omega)))
        ?_ ?_
      · rw [hframe₂ e (.inl (Nat.lt_succ_self e))]
        exact hlog₁.blank e le_rfl hlog.lt
      · intro hff
        rw [packetAt, if_pos hff] at hq
        cases hq
  · obtain ⟨f', hwrite, hframe, hentries⟩ := pgPacketWrite_refill_stop depth data hprog
      hlog hrep hskip hrest
    have hlog' := hlog.refill hframe
    have hhistory := history_filled hlog hframe hsect hentries
    rw [writeOk_iff_readsBack hwrite hlog', readsBack_iff hlog hlog' hs (hlog'.first_ne hne),
      hhistory, if_pos rfl, rewritten, if_neg hrest, words_iff]
    · exact (and_iff_right fun h => absurd h hrest).symm
    · exact fun i hi hen => latest_refilled hblank hi hsect hen
    · intro t ht
      rw [hhistory, if_neg ht]

/-- A call of `efuse_pg_packet_write` on a well-formed log with room does what it should exactly
    when the packet it writes can be read. -/
theorem writeOk_iff (hprog : Programs program) (hlog : CleanLog f.content ps e)
    (hfree : e + 10 < writeEnd) (hs : s.toNat < maxSection) (hw : wordEn.toNat < 0x10)
    (hbytes : SizeKnown f ps e) :
    WriteOk program depth f ps s wordEn data ↔ Writable f ps e s wordEn data := by
  unfold Writable
  by_cases hnone : wordEn = 0x0F
  · subst hnone
    rw [if_pos rfl]
    exact writeOk_noWords_iff hprog hlog hfree hs
  · rw [if_neg hnone]
    have hw' : wordEn.toNat < 0x0F := by
      have : wordEn.toNat ≠ 0x0F := fun h => hnone (UInt8.toNat_inj.mp h)
      omega
    have hsplit := List.takeWhile_append_dropWhile
      (p := fun p => !decide (Repairable f.content s wordEn p)) (l := ps)
    have hbefore : ∀ q ∈ ps.takeWhile fun p => !decide (Repairable f.content s wordEn p),
        ¬ Repairable f.content s wordEn q := by
      intro q hq
      simpa using List.mem_takeWhile_imp hq
    cases hdrop : ps.dropWhile fun p => !decide (Repairable f.content s wordEn p) with
    | nil =>
      refine writeOk_append_iff hprog hlog hfree hs hw' fun q hq => ?_
      simpa using List.dropWhile_eq_nil_iff.mp hdrop q hq
    | cons p later =>
      have hrep : Repairable f.content s wordEn p := by
        have hhead := List.head?_dropWhile_not
          (fun p => !decide (Repairable f.content s wordEn p)) ps
        rw [hdrop] at hhead
        simpa using hhead
      rw [hdrop] at hsplit
      rw [← hsplit] at hlog hbytes
      have hiff := writeOk_refill_iff depth data hprog hlog hfree hs hrep hbefore hbytes
      rw [hsplit] at hiff
      exact hiff

end main

/-! ## A blank efuse -/

def blankFuse : Fuse := { content := fun _ => 0xFF, efuseBytes := 0, repeatTimes := 0 }

theorem blankFuse_cleanLog : CleanLog blankFuse.content [] 0 :=
  ⟨rfl, by decide, fun _ _ _ => rfl⟩

/-- Word 0 of section 0 reads back. -/
theorem word0_read_back : WriteOk Function.update 0 blankFuse [] 0 0x0E UInt8.ofNat := by
  refine (writeOk_iff (fun _ _ _ _ => rfl) blankFuse_cleanLog (by decide) (by decide) (by decide)
    (.inl ⟨[], [], rfl, rfl⟩)).mpr ?_
  have hsame : ∀ i < 4, wordEnabled 0x0E i = true →
      latest (dataEntries 0x0E UInt8.ofNat :: history blankFuse.content 0 []) i =
        kept (dataEntries 0x0E UInt8.ofNat :: history blankFuse.content 0 []) i := by
    decide
  rw [Writable, if_neg (by decide)]
  exact fun i hi hen => (wordOk_iff i _).mpr (hsame i hi hen)

/-- Word 1 of section 0 does not: its two bytes are stored as word 0 of `tmpdata`. -/
theorem word1_not_read_back : CleanLog blankFuse.content [] 0 ∧
    ¬ WriteOk Function.update 0 blankFuse [] 0 0x0D UInt8.ofNat := by
  refine ⟨blankFuse_cleanLog, fun hok => ?_⟩
  have hwords := (writeOk_append_iff (fun _ _ _ _ => rfl) blankFuse_cleanLog (by decide) (by decide)
    (by decide) fun _ h => absurd h List.not_mem_nil).mp hok 1 (by decide) (by decide)
  exact absurd ((wordOk_iff 1 _).mp hwords) (by decide)

end Rtl8821au.Efuse
