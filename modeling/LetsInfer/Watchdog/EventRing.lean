import LetsInfer.Watchdog.EventJournal

/-! @src core/watchdog/src/li_watchdog_event_journal.rs | name:Scanning a journal file | scheme:ring

    What `scan_records` and `validate_record_set` accept, said by the slots of the file and not by
    the loops: every slot is decoded and in its place with at most one being prepared, and the
    ordinals of the committed records are those of a window that ends before the next ordinal. -/

namespace LetsInfer.Watchdog
open Schemes List Option

def slotAt (bytes : List UInt8) (slot : ℕ) : Except WatchdogError EventSlot :=
  decodeSlot (readSlot bytes slot)

/-! ### Scanning -/

def EventSlot.committed? : EventSlot → Option EventRecord
  | .committed record => some record
  | _ => none

def EventSlot.preparing? : EventSlot → Option EventRecord
  | .preparing record => some record
  | _ => none

/-- A record is in the slot of its ordinal. -/
def EventSlot.Placed (capacity slot : ℕ) : EventSlot → Prop
  | .empty => True
  | .preparing record => (record.ordinal - 1) % capacity = slot
  | .committed record => (record.ordinal - 1) % capacity = slot

def preparings (slots : List EventSlot) : List (ℕ × ℕ) :=
  slots.zipIdx.filterMap fun p => p.1.preparing?.map fun record => (p.2, record.ordinal)

/-- The slots of a file, decoded and in their places. -/
def Slots (capacity : ℕ) (bytes : List UInt8) (slots : List EventSlot) : Prop :=
  ∀ i slot, slots[i]? = some slot → slotAt bytes i = .ok slot ∧ slot.Placed capacity i

theorem preparings_snoc (slots : List EventSlot) (slot : EventSlot) :
    preparings (slots ++ [slot]) =
      preparings slots ++ (slot.preparing?.map fun r => (slots.length, r.ordinal)).toList := by
  rw [preparings, zipIdx_append, filterMap_append]
  cases slot <;> simp [preparings, EventSlot.preparing?]

variable {cap L P next : ℕ} {bs : List UInt8} {slots : List EventSlot}
  {rs : List EventRecord} {preparing : Option (ℕ × ℕ)} {s : Finset ℕ}

theorem slots_snoc {slot : EventSlot} :
    Slots cap bs (slots ++ [slot]) ↔ Slots cap bs slots ∧
      slotAt bs slots.length = .ok slot ∧ slot.Placed cap slots.length := by
  constructor
  · intro h
    refine ⟨fun i s hs => h i s ?_, h slots.length slot (by simp)⟩
    rwa [getElem?_append_left (List.getElem?_eq_some_iff.mp hs).1]
  · rintro ⟨h, hlast⟩ i s hs
    rcases Nat.lt_or_ge i slots.length with hi | hi
    · rw [getElem?_append_left hi] at hs
      exact h i s hs
    · rw [getElem?_append_right hi] at hs
      obtain ⟨hzero, rfl⟩ : i - slots.length = 0 ∧ slot = s := by
        simpa [getElem?_singleton, eq_comm] using hs
      obtain rfl : i = slots.length := by omega
      exact hlast

/-- STEP: one slot of the scan adds what is in it. -/
theorem scanSlot_ok {slot : ℕ} {rs' : List EventRecord} {preparing' : Option (ℕ × ℕ)} :
    scanSlot cap bs (rs, preparing) slot = .ok (rs', preparing') ↔
      ∃ content, slotAt bs slot = .ok content ∧ content.Placed cap slot ∧
        rs' = rs ++ content.committed?.toList ∧
        preparing'.toList = preparing.toList ++
          (content.preparing?.map fun r => (slot, r.ordinal)).toList := by
  rw [scanSlot, bind_ok_iff]
  refine exists_congr fun content => and_congr_right fun _ => ?_
  cases content with
  | empty =>
    cases preparing <;> cases preparing' <;>
      simp [EventSlot.Placed, EventSlot.committed?, EventSlot.preparing?, eq_comm]
  | preparing r =>
    by_cases hplc : (r.ordinal - 1) % cap = slot
    · cases preparing with
      | none =>
        cases preparing' <;>
          simp [EventSlot.Placed, EventSlot.committed?, EventSlot.preparing?, hplc, eq_comm]
      | some p =>
        have hno : preparing'.toList ≠ [p, (slot, r.ordinal)] := by cases preparing' <;> simp
        simp [EventSlot.Placed, EventSlot.committed?, EventSlot.preparing?, hno]
    · simp [EventSlot.Placed, hplc]
  | committed r =>
    by_cases hplc : (r.ordinal - 1) % cap = slot
    · cases preparing <;> cases preparing' <;>
        simp [EventSlot.Placed, EventSlot.committed?, EventSlot.preparing?, hplc, eq_comm]
    · simp [EventSlot.Placed, hplc]

/-- RUN: the scan of the first slots succeeds exactly if each is decoded, in its place, with at most
    one being prepared. -/
theorem scanRecords_prefix_ok (n : ℕ) :
    ∀ {rs : List EventRecord} {preparing : Option (ℕ × ℕ)},
      (List.range n).foldlM (scanSlot cap bs) ([], none) = .ok (rs, preparing) ↔
        ∃ slots, slots.length = n ∧ Slots cap bs slots ∧ rs = slots.filterMap EventSlot.committed? ∧
          preparing.toList = preparings slots := by
  induction n with
  | zero =>
    intro rs preparing
    constructor
    · intro h
      cases h
      exact ⟨[], rfl, fun i slot h => by simp at h, rfl, rfl⟩
    · rintro ⟨slots, hlen, -, rfl, hprep⟩
      obtain rfl := length_eq_zero_iff.mp hlen
      obtain rfl : preparing = none := by
        cases preparing with
        | none => rfl
        | some p => cases hprep
      rfl
  | succ n ih =>
    intro rs preparing
    rw [range_succ, foldlM_append, bind_ok_iff]
    simp only [foldlM_cons, foldlM_nil, bind_pure]
    constructor
    · rintro ⟨⟨before, prep⟩, hbef, hlast⟩
      obtain ⟨slots, hlen, hsls, rfl, hprep⟩ := ih.mp hbef
      obtain ⟨content, hcon, hplc, rfl, hprep'⟩ := scanSlot_ok.mp hlast
      subst hlen
      refine ⟨slots ++ [content], by simp, slots_snoc.mpr ⟨hsls, hcon, hplc⟩, ?_, ?_⟩
      · cases content <;> simp [EventSlot.committed?]
      · rw [hprep', hprep, preparings_snoc]
    · rintro ⟨slots, hlen, hsls, rfl, hprep⟩
      cases slots using reverseRecOn with
      | nil => simp at hlen
      | append_singleton slots content =>
        obtain rfl : slots.length = n := by simpa using hlen
        obtain ⟨hsls, hcon, hplc⟩ := slots_snoc.mp hsls
        rw [preparings_snoc] at hprep
        -- the slots before the last have at most one being prepared, since all of them do
        obtain ⟨prep, hbef⟩ : ∃ prep : Option (ℕ × ℕ), prep.toList = preparings slots := by
          cases hlist : preparings slots with
          | nil => exact ⟨none, rfl⟩
          | cons p rest =>
            refine ⟨some p, ?_⟩
            rw [hlist] at hprep
            cases preparing with
            | none => simp at hprep
            | some q =>
              obtain ⟨-, hrest⟩ := List.cons.inj hprep
              rw [(append_eq_nil_iff.mp hrest.symm).1]
              rfl
        refine ⟨(slots.filterMap EventSlot.committed?, prep),
          ih.mpr ⟨slots, rfl, hsls, rfl, hbef⟩, scanSlot_ok.mpr ⟨content, hcon, hplc, ?_, ?_⟩⟩
        · cases content <;> simp [EventSlot.committed?]
        · rw [hprep, hbef]

theorem scanRecords_ok : scanRecords cap bs = .ok (rs, preparing) ↔
      ∃ slots, slots.length = cap ∧ Slots cap bs slots ∧
        rs = slots.filterMap EventSlot.committed? ∧ preparing.toList = preparings slots :=
  scanRecords_prefix_ok cap

theorem mem_committed {r : EventRecord} :
    r ∈ slots.filterMap EventSlot.committed? ↔ ∃ i : ℕ, slots[i]? = some (.committed r) := by
  rw [mem_filterMap]
  constructor
  · rintro ⟨slot, hmem, hslot⟩
    obtain ⟨i, hi⟩ := mem_iff_getElem?.mp hmem
    cases slot with
    | empty => cases hslot
    | preparing other => cases hslot
    | committed other => exact ⟨i, by rw [hi, Option.some.inj hslot]⟩
  · rintro ⟨i, hi⟩
    exact ⟨_, mem_iff_getElem?.mpr ⟨i, hi⟩, rfl⟩

theorem mem_preparings {p : ℕ × ℕ} :
    p ∈ preparings slots ↔ ∃ r, slots[p.1]? = some (.preparing r) ∧ p.2 = r.ordinal := by
  rw [preparings, mem_filterMap]
  constructor
  · rintro ⟨⟨slot, i⟩, hmem, hslot⟩
    have hi := mem_zipIdx_iff_getElem?.mp hmem
    obtain ⟨r, hrec, rfl⟩ := map_eq_some_iff.mp hslot
    cases slot with
    | empty => cases hrec
    | preparing other => exact ⟨r, by rw [← Option.some.inj hrec]; exact hi, rfl⟩
    | committed other => cases hrec
  · rintro ⟨r, hi, hp⟩
    exact ⟨(_, p.1), mem_zipIdx_iff_getElem?.mpr hi, by rw [← Prod.eta p, hp]; rfl⟩

theorem nodup_preparings (slots : List EventSlot) : (preparings slots).Nodup := by
  induction slots using reverseRecOn with
  | nil => exact nodup_nil
  | append_singleton slots slot ih =>
    rw [preparings_snoc]
    refine nodup_append.mpr ⟨ih, ?_, ?_⟩
    · cases slot <;> simp [EventSlot.preparing?]
    · rintro p hp q hq rfl
      obtain ⟨r, hrec, -⟩ := mem_preparings.mp hp
      obtain ⟨other, -, heq⟩ := map_eq_some_iff.mp (mem_toList.mp hq)
      have hlt := (List.getElem?_eq_some_iff.mp hrec).1
      rw [← heq] at hlt
      exact absurd hlt (lt_irrefl _)

theorem Slots.nodup_ordinals (h : Slots cap bs slots) :
    ((slots.filterMap EventSlot.committed?).map (·.ordinal)).Nodup := by
  induction slots using reverseRecOn with
  | nil => exact nodup_nil
  | append_singleton slots slot ih =>
    obtain ⟨hsls, -, hplc⟩ := slots_snoc.mp h
    rw [filterMap_append, map_append]
    cases slot with
    | empty | preparing r => simpa [List.filterMap, EventSlot.committed?] using ih hsls
    | committed r =>
      refine nodup_append.mpr ⟨ih hsls, nodup_singleton _, ?_⟩
      rintro n hord other hoth rfl
      obtain rfl := mem_singleton.mp hoth
      obtain ⟨earlier, hear, heq⟩ := List.mem_map.mp hord
      obtain ⟨i, hi⟩ := mem_committed.mp hear
      have hpla : (earlier.ordinal - 1) % cap = i := (hsls i _ hi).2
      have hlt := (List.getElem?_eq_some_iff.mp hi).1
      have hlast : (r.ordinal - 1) % cap = slots.length := hplc
      rw [show earlier.ordinal = r.ordinal from heq, hlast] at hpla
      omega

/-- What a scan says about the slots of the file. -/
structure Scanned (capacity : ℕ) (bytes : List UInt8) (records : List EventRecord)
    (preparing : Option (ℕ × ℕ)) : Prop where
  placed : ∀ i < capacity, ∃ slot, slotAt bytes i = .ok slot ∧ slot.Placed capacity i
  mem_records : ∀ record,
    record ∈ records ↔ ∃ i < capacity, slotAt bytes i = .ok (.committed record)
  nodup : (records.map (·.ordinal)).Nodup
  mem_preparing : ∀ p, preparing = some p ↔
    p.1 < capacity ∧ ∃ record, slotAt bytes p.1 = .ok (.preparing record) ∧ p.2 = record.ordinal

theorem Slots.getElem?_iff (h : Slots cap bs slots) {i : ℕ} {slot : EventSlot} :
    slots[i]? = some slot ↔ i < slots.length ∧ slotAt bs i = .ok slot := by
  constructor
  · intro hi
    exact ⟨(List.getElem?_eq_some_iff.mp hi).1, (h i slot hi).1⟩
  · rintro ⟨hi, hslot⟩
    have hget := getElem?_eq_getElem hi
    rw [(h i _ hget).1] at hslot
    rw [hget, Except.ok.inj hslot]

theorem scanned_of_ok (h : scanRecords cap bs = .ok (rs, preparing)) :
    Scanned cap bs rs preparing := by
  obtain ⟨slots, rfl, hsls, rfl, hprep⟩ := scanRecords_ok.mp h
  refine ⟨fun i hi => ?_, fun r => ?_, hsls.nodup_ordinals, fun p => ?_⟩
  · exact ⟨_, hsls i _ (getElem?_eq_getElem hi)⟩
  · simp only [mem_committed, hsls.getElem?_iff]
  · rw [← mem_toList, hprep, mem_preparings]
    simp only [hsls.getElem?_iff, and_assoc, exists_and_left]

/-- A file whose slots are decoded and in their places, with at most one being prepared, is scanned. -/
theorem exists_scanned (hplc : ∀ i < cap, ∃ slot, slotAt bs i = .ok slot ∧ slot.Placed cap i)
    (hone : ∀ i < cap, ∀ j < cap, ∀ a b, slotAt bs i = .ok (.preparing a) → slotAt
      bs j = .ok (.preparing b) → i = j) :
    ∃ rs preparing, scanRecords cap bs = .ok (rs, preparing) := by
  choose slot hslot using hplc
  let slots := List.ofFn fun i : Fin cap => slot i i.2
  have hlen : slots.length = cap := length_ofFn
  have hsls : Slots cap bs slots := by
    intro i s hs
    obtain ⟨hi, rfl⟩ := List.getElem?_eq_some_iff.mp hs
    simpa [slots] using hslot i (hlen ▸ hi)
  have hall : ∀ p ∈ preparings slots, ∀ q ∈ preparings slots, p = q := by
    intro p hp q hq
    obtain ⟨a, ha, hpa⟩ := mem_preparings.mp hp
    obtain ⟨b, hb, hqb⟩ := mem_preparings.mp hq
    obtain ⟨hplt, hpat⟩ := hsls.getElem?_iff.mp ha
    obtain ⟨hqlt, hqat⟩ := hsls.getElem?_iff.mp hb
    have hfst := hone p.1 (hlen ▸ hplt) q.1 (hlen ▸ hqlt) a b hpat hqat
    rw [hfst, hb] at ha
    obtain rfl := EventSlot.preparing.inj (Option.some.inj ha)
    exact Prod.ext hfst (hpa.trans hqb.symm)
  obtain ⟨preparing, hprep⟩ : ∃ p : Option (ℕ × ℕ), p.toList = preparings slots := by
    have hnd := nodup_preparings slots
    match preparings slots, hall, hnd with
    | [], _, _ => exact ⟨none, rfl⟩
    | [p], _, _ => exact ⟨some p, rfl⟩
    | p :: q :: _, hall, hnd =>
      have heq := hall p mem_cons_self q (mem_cons_of_mem _ mem_cons_self)
      exact absurd (heq ▸ mem_cons_self) (nodup_cons.mp hnd).1
  exact ⟨_, preparing, scanRecords_ok.mpr ⟨slots, hlen, hsls, rfl, hprep⟩⟩

/-! ### Validating -/

theorem le_foldr_max {l : List ℕ} {o : ℕ} (h : o ∈ l) : o ≤ l.foldr max 0 := by
  induction l with
  | nil => cases h
  | cons a l ih =>
    rw [foldr_cons]
    rcases mem_cons.mp h with rfl | h
    · exact le_max_left _ _
    · exact (ih h).trans (le_max_right _ _)

theorem foldr_max_mem {l : List ℕ} (h : l.foldr max 0 ≠ 0) : l.foldr max 0 ∈ l := by
  induction l with
  | nil => exact absurd rfl h
  | cons a l ih =>
    rw [foldr_cons] at h ⊢
    rcases max_choice a (l.foldr max 0) with hmax | hmax
    · rw [hmax]
      exact mem_cons_self
    · rw [hmax] at h ⊢
      exact mem_cons_of_mem _ (ih h)

theorem card_toFinset_iff {α : Type*} [DecidableEq α] {l : List α} :
    l.toFinset.card = l.length ↔ l.Nodup :=
  Multiset.toFinset_card_eq_card_iff_nodup

/-- What the validator accepts: the ordinals are those below the next one, from some first ordinal
    on, as many as the ring retains when an append was interrupted or, with no slot being prepared,
    as many as it has room for. -/
structure Window (L P : ℕ) (records : List EventRecord) (preparing : Option (ℕ × ℕ)) (next : ℕ) :
    Prop where
  fits : next < u64Bound
  preparing_eq : ∀ p, preparing = some p → p = ((next - 1) % P, next)
  contiguous : ∃ first, 1 ≤ first ∧ first ≤ next ∧
    (next - first = min (next - 1) L ∨ preparing = none ∧ next - first = min (next - 1) P) ∧
    ∀ o, o ∈ records.map (·.ordinal) ↔ first ≤ o ∧ o < next
  ordinals : (records.map (·.ordinal)).Nodup
  identities : ((records.filter fun record =>
    next - 1 - min (next - 1) L + 1 ≤ record.ordinal).map (·.identity)).Nodup

theorem Window.maximum_eq (hL : 0 < L) (hP : 0 < P) (h : Window L P rs preparing next) :
    (rs.map (·.ordinal)).foldr max 0 = next - 1 := by
  obtain ⟨first, hpos, hle, hcnt, hmem⟩ := h.contiguous
  have hupp : (rs.map (·.ordinal)).foldr max 0 ≤ next - 1 := by
    by_contra hlt
    have hne : (rs.map (·.ordinal)).foldr max 0 ≠ 0 := by omega
    have := (hmem _).mp (foldr_max_mem hne)
    omega
  have hlow : next - 1 ≤ (rs.map (·.ordinal)).foldr max 0 := by
    rcases Nat.eq_or_lt_of_le hle with heq | hlt
    · -- no record at all: then nothing was ever recorded
      omega
    · exact le_foldr_max ((hmem _).mpr (by omega))
  omega

theorem min_eq_coe {a : ℕ} (hmem : a ∈ s) (hle : ∀ b ∈ s, a ≤ b) : s.min = (a : ℕ) :=
  le_antisymm (Finset.min_le hmem) (Finset.le_min fun b hb => WithTop.coe_le_coe.mpr (hle b hb))

theorem max_eq_coe {a : ℕ} (hmem : a ∈ s) (hle : ∀ b ∈ s, b ≤ a) : s.max = (a : ℕ) :=
  le_antisymm (Finset.max_le fun b hb => WithBot.coe_le_coe.mpr (hle b hb)) (Finset.le_max hmem)

/-- As many distinct numbers as there are from the least to the greatest are all of them. -/
theorem eq_Icc_of_card {first last : ℕ} (hmin : s.min = (first : ℕ)) (hmax : s.max = (last : ℕ))
    (hcard : last + 1 - first ≤ s.card) : s = Finset.Icc first last := by
  refine Finset.eq_of_subset_of_card_le (fun o ho => Finset.mem_Icc.mpr ⟨?_, ?_⟩) ?_
  · have hle := Finset.min_le ho
    rw [hmin] at hle
    exact WithTop.coe_le_coe.mp hle
  · have hle := Finset.le_max ho
    rw [hmax] at hle
    exact WithBot.coe_le_coe.mp hle
  · rwa [Nat.card_Icc]

theorem window_of_validate (h : validateRecordSet L P rs preparing = .ok next) :
    Window L P rs preparing next := by
  unfold validateRecordSet at h
  generalize hmxm : (rs.map (·.ordinal)).foldr max 0 = maximum at h
  obtain ⟨hfits, h⟩ := error_if_ok_iff.mp h
  obtain ⟨hprep, h⟩ := error_if_ok_iff.mp h
  have hpre : ∀ p, preparing = some p → p = (maximum % P, maximum + 1) := by
    rintro ⟨slot, n⟩ rfl
    simpa using hprep
  by_cases hzero : maximum = 0
  · rw [if_pos hzero] at h
    split_ifs at h with hnil
    cases h
    subst hnil hzero
    refine ⟨not_le.mp hfits, hpre, ⟨1, le_rfl, le_rfl, .inl (by simp), fun o => ?_⟩, ?_, ?_⟩
    · simp
      omega
    · exact nodup_nil
    · exact nodup_nil
  · rw [if_neg hzero] at h
    obtain ⟨hcnt, h⟩ := error_if_ok_iff.mp h
    obtain ⟨hset, h⟩ := error_if_ok_iff.mp h
    obtain ⟨hids, h⟩ := error_if_ok_iff.mp h
    cases h
    simp only [not_or, not_not] at hset hids
    obtain ⟨hcard, hmin, hmax⟩ := hset
    have hlen : rs.length = min maximum L ∨ preparing = none ∧ rs.length = min maximum P := by
      by_cases hint : rs.length = min maximum L
      · exact .inl hint
      · have hrest := not_and.mp hcnt hint
        simp only [not_or, not_not, not_isSome_iff_eq_none] at hrest
        exact .inr hrest
    have hall := eq_Icc_of_card hmin hmax (by rw [hcard]; omega)
    refine ⟨not_le.mp hfits, hpre, ?_, ?_, card_toFinset_iff.mp ?_⟩
    · refine ⟨maximum - rs.length + 1, by omega, by omega, ?_, fun o => ?_⟩
      · have hsub : maximum + 1 - (maximum - rs.length + 1) = rs.length := by omega
        rwa [hsub]
      · rw [← List.mem_toFinset, hall, Finset.mem_Icc]
        omega
    · exact card_toFinset_iff.mp (by rw [hcard, length_map])
    · rwa [length_map]

theorem validate_of_window (hL : 0 < L) (hP : 0 < P) (h : Window L P rs preparing next) :
    validateRecordSet L P rs preparing = .ok next := by
  have hmxm := h.maximum_eq hL hP
  obtain ⟨first, hpos, hle, hcnt, hmem⟩ := h.contiguous
  have hfits := h.fits
  have hids := card_toFinset_iff.mpr h.identities
  rw [length_map] at hids
  have hset : (rs.map (·.ordinal)).toFinset = Finset.Icc first (next - 1) := by
    ext o
    rw [List.mem_toFinset, hmem, Finset.mem_Icc]
    omega
  have hcard := card_toFinset_iff.mpr h.ordinals
  have hlen : rs.length = next - first := by
    rw [hset, Nat.card_Icc, length_map] at hcard
    omega
  have hprep : ¬preparing.any (fun p => p.1 ≠ (next - 1 + 1 - 1) % P ∨ p.2 ≠ next - 1 + 1) = true := by
    cases hp : preparing with
    | none => simp
    | some p =>
      have := h.preparing_eq p hp
      simp [this, Nat.sub_add_cancel (hpos.trans hle)]
  unfold validateRecordSet
  rw [hmxm]
  rw [if_neg (by omega), if_neg hprep]
  by_cases hzero : next - 1 = 0
  · have hnil : rs = [] := length_eq_zero_iff.mp (by omega)
    rw [if_pos hzero, if_pos hnil, Nat.sub_add_cancel (hpos.trans hle)]
    rfl
  · have hfst : first < next := by
      rcases hcnt with heq | ⟨-, heq⟩
      · have := min_eq_iff.mp heq.symm
        omega
      · have := min_eq_iff.mp heq.symm
        omega
    have hcou : ¬(rs.length ≠ min (next - 1) L ∧
        (preparing.isSome = true ∨ rs.length ≠ min (next - 1) P)) := by
      rw [hlen]
      rcases hcnt with heq | ⟨hno, heq⟩
      · exact fun hbad => hbad.1 heq
      · rintro ⟨-, hbad | hbad⟩
        · rw [hno] at hbad
          cases hbad
        · exact hbad heq
    have hmin : (rs.map (·.ordinal)).toFinset.min =
        ((next - 1 - rs.length + 1 : ℕ) : WithTop ℕ) := by
      have heq : next - 1 - rs.length + 1 = first := by omega
      rw [heq, hset]
      exact min_eq_coe (Finset.mem_Icc.mpr (by omega)) fun b hb => (Finset.mem_Icc.mp hb).1
    have hmax : (rs.map (·.ordinal)).toFinset.max = ((next - 1 : ℕ) : WithBot ℕ) := by
      rw [hset]
      exact max_eq_coe (Finset.mem_Icc.mpr (by omega)) fun b hb => (Finset.mem_Icc.mp hb).2
    rw [length_map] at hcard
    rw [if_neg hzero, if_neg hcou, if_neg, if_neg, Nat.sub_add_cancel (hpos.trans hle)]
    · rfl
    · exact not_not.mpr hids
    · rintro (hbad | hbad | hbad)
      · exact hbad hcard
      · exact hbad hmin
      · exact hbad hmax

end LetsInfer.Watchdog
