import LetsInfer.Watchdog.EventRing
import LetsInfer.Schemes.Rings

/-! @src core/watchdog/src/li_watchdog_event_journal.rs | name:What a journal file holds | scheme:ring

    What the journal is for: a list of events, oldest first, of which the file holds the newest.
    `Holds` says where a file keeps them. The event of index `o` has the ordinal `o + 1` and is in
    the slot `o % (L + 1)`, for the newest `L` of them; the one slot left over, that of the next
    ordinal, is empty, or still has the event that is now too old, or is being prepared. A file
    opens as a journal exactly if it holds some list of events in this way. -/

namespace LetsInfer.Watchdog
open Schemes List

/-- The newest events, up to the capacity. -/
def newest (L : ℕ) (log : List EventIdentity) : List EventIdentity := log.drop (log.length - L)

def entries (log : List EventIdentity) : List (ℕ × EventIdentity) :=
  log.zipIdx.map fun p => (p.2 + 1, p.1)

/-- What the slot of the next ordinal may have in it. -/
inductive NextSlot (L : ℕ) (log : List EventIdentity) : EventSlot → Prop
  | empty : NextSlot L log .empty
  | preparing (identity : EventIdentity) : NextSlot L log (.preparing ⟨log.length + 1, identity⟩)
  | oldest {identity : EventIdentity} : L < log.length →
      log[log.length - 1 - L]? = some identity →
      NextSlot L log (.committed ⟨log.length - L, identity⟩)

/-- The file holds the newest of these events. -/
structure Holds (L : ℕ) (log : List EventIdentity) (bytes : List UInt8) : Prop where
  length_eq : bytes.length = (L + 1) * watchdogEventRecordBytes
  window : ∀ o identity, log[o]? = some identity → log.length ≤ o + L →
    slotAt bytes (o % (L + 1)) = .ok (.committed ⟨o + 1, identity⟩)
  fresh : ∀ i, log.length < i → i ≤ L → slotAt bytes i = .ok .empty
  next : ∃ slot, slotAt bytes (log.length % (L + 1)) = .ok slot ∧ NextSlot L log slot
  distinct : (newest L log).Nodup
  fits : log.length + 1 < u64Bound

/-! ### Events under their ordinals -/

theorem length_entries (log : List EventIdentity) : (entries log).length = log.length := by
  simp [entries]

theorem getElem?_entries (log : List EventIdentity) (o : ℕ) :
    (entries log)[o]? = log[o]?.map fun idn => (o + 1, idn) := by
  simp [entries, getElem?_map, getElem?_zipIdx, Option.map_map, Function.comp_def]

theorem entries_append (log : List EventIdentity) (idn : EventIdentity) :
    entries (log ++ [idn]) = entries log ++ [(log.length + 1, idn)] := by
  simp [entries, zipIdx_append]

variable {log : List EventIdentity} {j L o : ℕ}

theorem mem_entries_drop {e : ℕ × EventIdentity} :
    e ∈ (entries log).drop j ↔ ∃ o, j ≤ o ∧ log[o]? = some e.2 ∧ e.1 = o + 1 := by
  rw [mem_iff_getElem?]
  constructor
  · rintro ⟨i, hi⟩
    rw [getElem?_drop, getElem?_entries] at hi
    obtain ⟨idn, hget, rfl⟩ := Option.map_eq_some_iff.mp hi
    exact ⟨j + i, by omega, hget, rfl⟩
  · rintro ⟨o, hj, hget, hord⟩
    refine ⟨o - j, ?_⟩
    rw [getElem?_drop, getElem?_entries, Nat.add_sub_cancel' hj, hget, ← hord]
    rfl

theorem ordered_entries_drop (log : List EventIdentity) (j : ℕ) :
    Ordered ((entries log).drop j) := by
  refine List.Pairwise.sublist (drop_sublist _ _) ?_
  induction log using reverseRecOn with
  | nil => exact List.Pairwise.nil
  | append_singleton log idn ih =>
    rw [entries_append]
    refine pairwise_append.mpr ⟨ih, pairwise_singleton _ _, fun a ha b hb => ?_⟩
    obtain rfl := mem_singleton.mp hb
    obtain ⟨o, -, hget, hord⟩ := (mem_entries_drop (j := 0)).mp ha
    have := (List.getElem?_eq_some_iff.mp hget).1
    rw [hord]
    omega

theorem map_entries_drop (h : j ≤ log.length - L) :
    (((entries log).drop j).reverse.take L).map (·.2) = (newest L log).reverse := by
  have hlen := length_entries log
  have hdrop : ((entries log).drop j).drop (((entries log).drop j).length - L) =
      (entries log).drop (log.length - L) := by
    rw [drop_drop, length_drop, hlen]
    congr 1
    omega
  have hmap : ((entries log).drop (log.length - L)).map (·.2) = newest L log := by
    rw [map_drop, newest]
    congr 1
    simp [entries, Function.comp_def]
  rw [take_reverse, hdrop, map_reverse, hmap]

theorem retained_entries_drop (h : j ≤ log.length - L) :
    retainedIdentities ((entries log).drop j) L = (newest L log).toFinset := by
  rw [retainedIdentities, map_entries_drop h, toFinset_reverse]

/-! ### Files that hold a list of events open -/

section Opening

variable {bs : List UInt8}

variable {i : ℕ} {rcd : EventRecord}

theorem newest_getElem? : (newest L log)[i]? = log[log.length - L + i]? :=
  getElem?_drop

section

variable (h : Holds L log bs)
include h

theorem Holds.index_eq {o' : ℕ} {idn : EventIdentity}
    (ho : log[o]? = some idn) (ho' : log[o']? = some idn) (hin : log.length ≤ o + L)
    (hin' : log.length ≤ o' + L) : o = o' := by
  have hlt := (List.getElem?_eq_some_iff.mp ho).1
  have hlt' := (List.getElem?_eq_some_iff.mp ho').1
  have hget : (newest L log)[o - (log.length - L)]? = some idn := by
    rw [newest_getElem?, ← ho]
    congr 1
    omega
  have hget' : (newest L log)[o' - (log.length - L)]? = some idn := by
    rw [newest_getElem?, ← ho']
    congr 1
    omega
  have hlen : (newest L log).length = log.length - (log.length - L) := length_drop
  have heq := (getElem?_inj (by omega) h.distinct).mp (hget.trans hget'.symm)
  omega

/-- Every slot of the file: one of the retained events, the next slot, or a slot not used yet. -/
theorem Holds.slot_cases (hi : i < L + 1) :
    (∃ o idn, log[o]? = some idn ∧ log.length ≤ o + L ∧ o % (L + 1) = i) ∨
    i = log.length % (L + 1) ∨ slotAt bs i = .ok .empty := by
  by_cases hnx : i = log.length % (L + 1)
  · exact .inr (.inl hnx)
  rcases Nat.lt_or_ge i log.length with hlt | hge
  · obtain ⟨o, ho, hin, hmod⟩ := exists_index hi hnx hlt
    exact .inl ⟨o, _, getElem?_eq_getElem ho, by omega, hmod⟩
  · refine .inr (.inr (h.fresh i ?_ (by omega)))
    refine lt_of_le_of_ne hge fun heq => hnx ?_
    rw [heq, Nat.mod_eq_of_lt hi]

theorem Holds.placed (hi : i < L + 1) : ∃ slot, slotAt bs i = .ok slot ∧ slot.Placed (L + 1) i := by
  rcases h.slot_cases hi with ⟨o, idn, ho, hin, rfl⟩ | rfl | hemp
  · exact ⟨_, h.window o idn ho hin, rfl⟩
  · obtain ⟨slot, hslot, hnx⟩ := h.next
    refine ⟨slot, hslot, ?_⟩
    cases hnx with
    | empty => trivial
    | preparing idn => rfl
    | oldest hlt hget =>
      have heq : log.length = log.length - L - 1 + (L + 1) := by omega
      change (log.length - L - 1) % (L + 1) = log.length % (L + 1)
      conv_rhs => rw [heq, Nat.add_mod_right]
  · exact ⟨.empty, hemp, trivial⟩

/-- Only the next slot is ever being prepared, and only for the next ordinal. -/
theorem Holds.preparing_eq (hi : i < L + 1) (hslot : slotAt bs i = .ok (.preparing rcd)) :
    i = log.length % (L + 1) ∧ rcd.ordinal = log.length + 1 := by
  rcases h.slot_cases hi with ⟨o, idn, ho, hin, rfl⟩ | rfl | hemp
  · rw [h.window o idn ho hin] at hslot
    cases hslot
  · obtain ⟨slot, hat, hnx⟩ := h.next
    rw [hat] at hslot
    cases hnx with
    | empty => cases hslot
    | preparing idn => cases hslot; exact ⟨rfl, rfl⟩
    | oldest hlt hget => cases hslot
  · rw [hemp] at hslot
    cases hslot

/-- A committed record is an event of the list: a retained one, or the one before them. -/
theorem Holds.committed_eq (hi : i < L + 1) (hslot : slotAt bs i = .ok (.committed rcd)) :
    ∃ o, log[o]? = some rcd.identity ∧ rcd.ordinal = o + 1 ∧
      (log.length ≤ o + L ∨ log.length = o + (L + 1) ∧ i = log.length % (L + 1)) := by
  rcases h.slot_cases hi with ⟨o, idn, ho, hin, rfl⟩ | rfl | hemp
  · rw [h.window o idn ho hin] at hslot
    cases hslot
    exact ⟨o, ho, rfl, .inl hin⟩
  · obtain ⟨slot, hat, hnx⟩ := h.next
    rw [hat] at hslot
    cases hnx with
    | empty => cases hslot
    | preparing idn => cases hslot
    | oldest hlt hget =>
      cases hslot
      refine ⟨log.length - 1 - L, hget, ?_, .inr ⟨by omega, rfl⟩⟩
      change log.length - L = log.length - 1 - L + 1
      omega
  · rw [hemp] at hslot
    cases hslot

/-- The committed records of the file are the events from some index on: the retained ones, and the
    one before them while it is still there. -/
theorem Holds.mem_committed :
    ∃ k, log.length - (L + 1) ≤ k ∧ k ≤ log.length - L ∧
      (k < log.length - L → ∀ i < L + 1, ∀ a, slotAt bs i ≠ .ok (.preparing a)) ∧
      ∀ rcd : EventRecord, (∃ i < L + 1, slotAt bs i = .ok (.committed rcd)) ↔
        ∃ o, k ≤ o ∧ log[o]? = some rcd.identity ∧ rcd.ordinal = o + 1 := by
  have hret : ∀ (rcd : EventRecord) (o : ℕ), log.length - L ≤ o → log[o]? = some rcd.identity →
      rcd.ordinal = o + 1 → ∃ i < L + 1, slotAt bs i = .ok (.committed rcd) := by
    intro rcd o hin ho hord
    have hat := h.window o rcd.identity ho (by omega)
    rw [← hord] at hat
    exact ⟨o % (L + 1), Nat.mod_lt _ (by omega), hat⟩
  obtain ⟨slot, hat, hnx⟩ := h.next
  by_cases hold : ∃ rcd, slot = .committed rcd
  · obtain ⟨rcd, rfl⟩ := hold
    cases hnx with
    | oldest hlt hget =>
      refine ⟨log.length - 1 - L, by omega, by omega, fun _ i hi a ha => ?_, fun rcd => ?_⟩
      · obtain ⟨rfl, -⟩ := h.preparing_eq hi ha
        rw [hat] at ha
        cases ha
      · constructor
        · rintro ⟨i, hi, hslot⟩
          obtain ⟨o, ho, hord, hin⟩ := h.committed_eq hi hslot
          exact ⟨o, by omega, ho, hord⟩
        · rintro ⟨o, hk, ho, hord⟩
          rcases Nat.lt_or_ge o (log.length - L) with hold | hin
          · obtain rfl : o = log.length - 1 - L := by omega
            refine ⟨_, Nat.mod_lt _ (by omega), hat.trans ?_⟩
            obtain ⟨n, idn⟩ := rcd
            cases hget.symm.trans ho
            obtain rfl : n = log.length - L := by
              have : n = log.length - 1 - L + 1 := hord
              omega
            rfl
          · exact hret rcd o hin ho hord
  · refine ⟨log.length - L, by omega, le_rfl, fun hlt => absurd hlt (lt_irrefl _), fun rcd => ?_⟩
    constructor
    · rintro ⟨i, hi, hslot⟩
      obtain ⟨o, ho, hord, hin | ⟨-, rfl⟩⟩ := h.committed_eq hi hslot
      · exact ⟨o, by omega, ho, hord⟩
      · rw [hat] at hslot
        exact absurd ⟨rcd, Except.ok.inj hslot⟩ hold
    · rintro ⟨o, hk, ho, hord⟩
      exact hret rcd o hk ho hord

/-- OPENING: a file that holds a list of events is loaded as its newest events, with the one before
    them while it is still there. -/
theorem Holds.load (hL : 0 < L) :
    ∃ k, log.length - (L + 1) ≤ k ∧ k ≤ log.length - L ∧
      Journal.load L (L + 1) bs = .ok ⟨L, L + 1, log.length + 1, (entries log).drop k,
        (newest L log).toFinset, false⟩ := by
  obtain ⟨k, hk, hkL, hprep, hmem⟩ := h.mem_committed
  obtain ⟨rs, prep, hscan⟩ := exists_scanned (fun i hi => h.placed hi)
    fun i hi j hj a b ha hb => (h.preparing_eq hi ha).1.trans (h.preparing_eq hj hb).1.symm
  have hscn := scanned_of_ok hscan
  have hrcs : ∀ rcd, rcd ∈ rs ↔ ∃ o, k ≤ o ∧ log[o]? = some rcd.identity ∧ rcd.ordinal = o + 1 :=
    fun rcd => (hscn.mem_records rcd).trans (hmem rcd)
  have hwin : Window L (L + 1) rs prep (log.length + 1) := by
    refine ⟨h.fits, fun p hp => ?_, ⟨k + 1, by omega, ?_, ?_, fun n => ?_⟩, hscn.nodup, ?_⟩
    · obtain ⟨hlt, rcd, hat, hord⟩ := (hscn.mem_preparing p).mp hp
      obtain ⟨hfst, hsnd⟩ := h.preparing_eq hlt hat
      exact Prod.ext hfst (hord.trans hsnd)
    · omega
    · rcases Nat.lt_or_ge k (log.length - L) with hlt | hge
      · refine .inr ⟨?_, by omega⟩
        rw [Option.eq_none_iff_forall_ne_some]
        intro p hp
        obtain ⟨hpl, rcd, hat, -⟩ := (hscn.mem_preparing p).mp hp
        exact hprep hlt p.1 hpl rcd hat
      · exact .inl (by omega)
    · rw [mem_map]
      constructor
      · rintro ⟨rcd, hrec, rfl⟩
        obtain ⟨o, hko, ho, hord⟩ := (hrcs rcd).mp hrec
        have := (List.getElem?_eq_some_iff.mp ho).1
        rw [hord]
        omega
      · rintro ⟨hlow, hhigh⟩
        have hlt : n - 1 < log.length := by omega
        refine ⟨⟨n, log[n - 1]⟩, (hrcs _).mpr ⟨n - 1, by omega, ?_, ?_⟩, rfl⟩
        · exact getElem?_eq_getElem hlt
        · change n = n - 1 + 1
          omega
    · refine List.Nodup.map_on ?_ ((List.Nodup.of_map _ hscn.nodup).filter _)
      intro a ha b hb heq
      obtain ⟨ha, hina⟩ := mem_filter.mp ha
      obtain ⟨hb, hinb⟩ := mem_filter.mp hb
      obtain ⟨o, -, ho, hord⟩ := (hrcs a).mp ha
      obtain ⟨o', -, ho', hord'⟩ := (hrcs b).mp hb
      rw [← heq] at ho'
      have hina := of_decide_eq_true hina
      have hinb := of_decide_eq_true hinb
      have hidx := h.index_eq ho ho' (by omega) (by omega)
      cases a
      cases b
      simp_all
  have hens : ofEntries (rs.map fun rcd => (rcd.ordinal, rcd.identity)) = (entries log).drop k := by
    refine ofEntries_eq ?_ (ordered_entries_drop log k) fun e => ?_
    · simpa [map_map, Function.comp_def] using hscn.nodup
    · rw [mem_entries_drop, mem_map]
      constructor
      · rintro ⟨rcd, hrec, rfl⟩
        exact (hrcs rcd).mp hrec
      · intro he
        exact ⟨⟨e.1, e.2⟩, (hrcs _).mpr he, rfl⟩
  refine ⟨k, hk, hkL, ?_⟩
  rw [Journal.load, hscan, ok_bind]
  simp only [validate_of_window hL (by omega) hwin, ok_bind, hens,
    retained_entries_drop hkL, pure_eq_ok]

end

/-- The list of events of a window of records: those before the window are not in the file any more
    and stand as any identity. -/
def logOf (records : List EventRecord) (unknown : EventIdentity) (count : ℕ) :
    List EventIdentity :=
  (List.range count).map fun o =>
    ((records.find? fun record => record.ordinal = o + 1).map (·.identity)).getD unknown

theorem length_logOf (rs : List EventRecord) (unknown : EventIdentity) (n : ℕ) :
    (logOf rs unknown n).length = n := by
  simp [logOf]

theorem getElem?_logOf {rs : List EventRecord} (hnd : (rs.map (·.ordinal)).Nodup)
    (hrec : rcd ∈ rs) {unknown : EventIdentity} {n : ℕ} (ho : o < n) (horl : rcd.ordinal = o + 1) :
    (logOf rs unknown n)[o]? = some rcd.identity := by
  have hfind : (rs.find? fun rcd => rcd.ordinal = o + 1) = some rcd := by
    have hsome : (rs.find? fun rcd => rcd.ordinal = o + 1).isSome :=
      find?_isSome.mpr ⟨rcd, hrec, decide_eq_true horl⟩
    obtain ⟨found, hfd⟩ := Option.isSome_iff_exists.mp hsome
    have hord : found.ordinal = o + 1 := by simpa using find?_some hfd
    rw [hfd, inj_on_of_nodup_map hnd (mem_of_find?_eq_some hfd) hrec (hord.trans horl.symm)]
  simp [logOf, ho, hfind]

variable {rs : List EventRecord} {prep : Option (ℕ × ℕ)} {n first : ℕ} {unknown : EventIdentity}

/-- A committed slot has a record of the window, at its place. -/
theorem Scanned.committed (hscn : Scanned (L + 1) bs rs prep)
    (hmem : ∀ o, o ∈ rs.map (·.ordinal) ↔ first ≤ o ∧ o < n + 1) (hi : i < L + 1)
    (hslot : slotAt bs i = .ok (.committed rcd)) :
    rcd ∈ rs ∧ (rcd.ordinal - 1) % (L + 1) = i ∧ first ≤ rcd.ordinal ∧ rcd.ordinal ≤ n := by
  have hrec := (hscn.mem_records rcd).mpr ⟨i, hi, hslot⟩
  obtain ⟨slot, hslot', hpla⟩ := hscn.placed i hi
  cases hslot'.symm.trans hslot
  have hwin := (hmem rcd.ordinal).mp (mem_map.mpr ⟨rcd, hrec, rfl⟩)
  exact ⟨hrec, hpla, hwin.1, by omega⟩

/-- Every ordinal of the window is that of one record, which the list has at its index. -/
theorem exists_logOf (hnd : (rs.map (·.ordinal)).Nodup)
    (hmem : ∀ o, o ∈ rs.map (·.ordinal) ↔ first ≤ o ∧ o < n + 1) (hfst : first ≤ o + 1)
    (ho : o < n) : ∃ rcd ∈ rs, rcd.ordinal = o + 1 ∧ (logOf rs unknown n)[o]? = some rcd.identity := by
  obtain ⟨rcd, hrec, hord⟩ := mem_map.mp ((hmem (o + 1)).mpr ⟨hfst, by omega⟩)
  exact ⟨rcd, hrec, hord, getElem?_logOf hnd hrec ho hord⟩

/-- A record in the next slot is a whole turn before the next ordinal: it is the oldest one. -/
theorem oldest_of_next_slot {ord : ℕ} (hpos : 1 ≤ first) (hcnt : n + 1 - first ≤ L + 1)
    (hplc : (ord - 1) % (L + 1) = n % (L + 1)) (hlow : first ≤ ord) (hhigh : ord ≤ n) :
    L < n ∧ ord = n - L := by
  have hturn : ord - 1 + (L + 1) = n := by
    refine eq_of_mod_eq (by rw [Nat.add_mod_right, hplc]) ?_ ?_
    · by_contra hlt
      have := eq_of_mod_eq hplc (by omega) (by omega)
      omega
    · omega
  omega

/-- The events that the list retains have the identities of the records of the window. -/
theorem nodup_newest_logOf (hnd : (rs.map (·.ordinal)).Nodup)
    (hmem : ∀ o, o ∈ rs.map (·.ordinal) ↔ first ≤ o ∧ o < n + 1) (hcnt : min n L ≤ n + 1 - first)
    (hids : ((rs.filter fun rcd => n - min n L + 1 ≤ rcd.ordinal).map (·.identity)).Nodup) :
    (newest L (logOf rs unknown n)).Nodup := by
  rw [nodup_iff_getElem?_ne_getElem?]
  intro i j hij hj heq
  rw [newest, length_drop, length_logOf] at hj
  rw [newest_getElem?, newest_getElem?, length_logOf] at heq
  obtain ⟨a, ha, haord, haget⟩ := exists_logOf hnd hmem (o := n - L + i) (by omega) (by omega)
  obtain ⟨b, hb, hbord, hbget⟩ := exists_logOf hnd hmem (o := n - L + j) (by omega) (by omega)
  rw [haget, hbget] at heq
  have hsame := inj_on_of_nodup_map hids (mem_filter.mpr ⟨ha, decide_eq_true (by omega)⟩)
    (mem_filter.mpr ⟨hb, decide_eq_true (by omega)⟩) (Option.some.inj heq)
  rw [hsame, hbord] at haord
  omega

/-- OPENED: a file that is loaded holds a list of events. -/
theorem holds_of_load {jnl : Journal} (hlng : bs.length = (L + 1) * watchdogEventRecordBytes)
    (hL : 0 < L) (hload : Journal.load L (L + 1) bs = .ok jnl) :
    ∃ log, Holds L log bs ∧ jnl.nextOrdinal = log.length + 1 := by
  obtain ⟨⟨rs, prep⟩, hscan, hload⟩ := bind_ok_iff.mp hload
  obtain ⟨next, hval, hload⟩ := bind_ok_iff.mp hload
  cases hload
  have hscn := scanned_of_ok hscan
  obtain ⟨hfits, hprep, ⟨first, hpos, hle, hcnt, hmem⟩, hnd, hids⟩ := window_of_validate hval
  obtain ⟨n, rfl⟩ : ∃ n, next = n + 1 := ⟨next - 1, by omega⟩
  rw [Nat.add_sub_cancel] at hcnt hids
  let unknown : EventIdentity := ⟨.warning, .hostMemoryWarning, 0, Bytes.zero _, 0, none, none⟩
  have hpre : ∀ i < L + 1, ∀ rcd, slotAt bs i = .ok (.preparing rcd) →
      i = n % (L + 1) ∧ rcd.ordinal = n + 1 := by
    intro i hi rcd hslot
    exact Prod.mk.inj (hprep (i, rcd.ordinal)
      ((hscn.mem_preparing (i, rcd.ordinal)).mpr ⟨hi, rcd, hslot, rfl⟩))
  have hlen := length_logOf rs unknown n
  refine ⟨logOf rs unknown n, ⟨hlng, ?_, ?_, ?_, nodup_newest_logOf hnd hmem (by omega) hids, ?_⟩, ?_⟩
  · intro o idn ho hin
    have hlt := (List.getElem?_eq_some_iff.mp ho).1
    rw [hlen] at hin hlt
    obtain ⟨rcd, hrec, hord, hget⟩ := exists_logOf hnd hmem (by omega) hlt
    cases ho.symm.trans hget
    obtain ⟨i, hi, hslo⟩ := (hscn.mem_records rcd).mp hrec
    obtain ⟨-, hplc, -⟩ := hscn.committed hmem hi hslo
    rw [hord, Nat.add_sub_cancel] at hplc
    rw [hplc, hslo, ← hord]
  · intro i hni hiL
    rw [hlen] at hni
    obtain ⟨slot, hslo, -⟩ := hscn.placed i (by omega)
    cases slot with
    | empty => exact hslo
    | preparing rcd =>
      have := (hpre i (by omega) rcd hslo).1
      rw [Nat.mod_eq_of_lt (by omega)] at this
      omega
    | committed rcd =>
      obtain ⟨-, hplc, hlow, hhigh⟩ := hscn.committed hmem (by omega) hslo
      rw [Nat.mod_eq_of_lt (by omega)] at hplc
      omega
  · rw [hlen]
    have hlt := Nat.mod_lt n (by omega : 0 < L + 1)
    obtain ⟨slot, hslo, -⟩ := hscn.placed _ hlt
    refine ⟨slot, hslo, ?_⟩
    cases slot with
    | empty => exact .empty
    | preparing rcd =>
      obtain ⟨ord, idn⟩ := rcd
      obtain ⟨-, rfl⟩ := hpre _ hlt _ hslo
      have hnx : NextSlot L (logOf rs unknown n) _ := .preparing idn
      rwa [hlen] at hnx
    | committed rcd =>
      obtain ⟨ord, idn⟩ := rcd
      obtain ⟨hrec, hplc, hlow, hhigh⟩ := hscn.committed hmem hlt hslo
      obtain ⟨hturn, rfl⟩ := oldest_of_next_slot hpos (by omega) hplc hlow hhigh
      have hget : (logOf rs unknown n)[n - 1 - L]? = some idn :=
        getElem?_logOf hscn.nodup hrec (by omega) (by change n - L = n - 1 - L + 1; omega)
      have hnx : NextSlot L (logOf rs unknown n) _ :=
        .oldest (by rw [hlen]; omega) (by rw [hlen]; exact hget)
      rwa [hlen] at hnx
  · rwa [hlen]
  · rw [hlen]

end Opening

end LetsInfer.Watchdog
