import LetsInfer.Watchdog.EventLog

/-! @src core/watchdog/src/li_watchdog_event_journal.rs | name:Appending an event | scheme:journal

    What `record` does to a file that holds a list of events. Up to its first write it decides, from
    its memory and the next slot, to refuse the event, to replay it or to append it. An append
    rewrites the next slot three times: after the first two the file holds the same list, after the
    third it holds one event more. -/

namespace LetsInfer.Watchdog
open Schemes List

variable {L i : ℕ} {bs data : List UInt8} {idn : EventIdentity} {log : List EventIdentity}
  {jnl : Journal} {append : Append} {vol : Volume UInt8} {ev : SafetyEvent}
  {flt : Option Fault}

/-! ### Writes to a slot -/

section Slots

variable {j : ℕ}

section

variable (hlen : bs.length = (L + 1) * watchdogEventRecordBytes)
include hlen

theorem slot_fits (hi : i < L + 1) :
    i * watchdogEventRecordBytes + watchdogEventRecordBytes ≤ bs.length := by
  rw [hlen, ← Nat.succ_mul]
  exact Nat.mul_le_mul_right _ hi

theorem readSlot_bytes
    (hi : i < L + 1) : (readSlot bs i).bytes = block watchdogEventRecordBytes bs i := by
  have hfull := length_block (slot_fits hlen hi)
  simp [readSlot, List.rightpad, hfull]

theorem length_splice_slot (hi : i < L + 1) (hdata : data.length ≤ watchdogEventRecordBytes) :
    (splice bs (i * watchdogEventRecordBytes) data).length =
      (L + 1) * watchdogEventRecordBytes := by
  have hfits := slot_fits hlen hi
  rw [length_splice (by omega), hlen]

/-- A write at the start of a slot replaces that much of it. -/
theorem readSlot_splice (hi : i < L + 1) (hdata : data.length ≤ watchdogEventRecordBytes) :
    (readSlot (splice bs (i * watchdogEventRecordBytes) data) i).bytes =
      data ++ (readSlot bs i).bytes.drop data.length := by
  rw [readSlot_bytes (length_splice_slot hlen hi hdata) hi, readSlot_bytes hlen hi,
    block_splice_self (slot_fits hlen hi) hdata]

theorem readSlot_splice_ne (hi : i < L + 1) (hdata : data.length ≤ watchdogEventRecordBytes)
    (hne : j ≠ i) : readSlot (splice bs (i * watchdogEventRecordBytes) data) j = readSlot bs j := by
  ext1
  simp only [readSlot]
  rw [block_splice_ne (slot_fits hlen hi) hdata hne]

theorem readSlot_splice_full (hi : i < L + 1) (r : Bytes watchdogEventRecordBytes) :
    readSlot (splice bs (i * watchdogEventRecordBytes) r.bytes) i = r := by
  ext1
  rw [readSlot_splice hlen hi r.length_eq.le, drop_eq_nil_of_le, append_nil]
  rw [r.length_eq, (readSlot bs i).length_eq]

end

end Slots

/-! ### The next slot is rewritten -/

section Rewriting

theorem next_lt (L : ℕ) (log : List EventIdentity) : log.length % (L + 1) < L + 1 :=
  Nat.mod_lt _ (Nat.succ_pos L)

def writeNext (L : ℕ) (log : List EventIdentity) (bytes data : List UInt8) : List UInt8 :=
  splice bytes (log.length % (L + 1) * watchdogEventRecordBytes) data

section

variable (h : Holds L log bs)
include h

theorem Holds.slotAt_other (hdata : data.length ≤ watchdogEventRecordBytes)
    (hne : i ≠ log.length % (L + 1)) : slotAt (writeNext L log bs data) i = slotAt bs i := by
  rw [slotAt, writeNext, readSlot_splice_ne h.length_eq (next_lt L log) hdata hne, slotAt]

/-- The retained events are less than a turn before the next one, and stay. -/
theorem Holds.window_other (hdata : data.length ≤ watchdogEventRecordBytes)
    {o : ℕ} (ho : log[o]? = some idn) (hin : log.length ≤ o + L) :
    slotAt (writeNext L log bs data) (o % (L + 1)) = .ok (.committed ⟨o + 1, idn⟩) := by
  rw [h.slotAt_other hdata, h.window o idn ho hin]
  intro heq
  have hlt := (List.getElem?_eq_some_iff.mp ho).1
  have := eq_of_mod_eq heq hlt.le (by omega)
  omega

theorem Holds.fresh_other (hdata : data.length ≤ watchdogEventRecordBytes)
    (hlt : log.length < i) (hle : i ≤ L) : slotAt (writeNext L log bs data) i = .ok .empty := by
  rw [h.slotAt_other hdata, h.fresh i hlt hle]
  rw [Nat.mod_eq_of_lt (by omega)]
  exact hlt.ne'

/-- Any bytes in the next slot that are decoded as what it may have keep the list. -/
theorem Holds.rewrite (hdata : data.length ≤ watchdogEventRecordBytes)
    {slot : EventSlot} (hnx : NextSlot L log slot)
    (hslot : slotAt (writeNext L log bs data) (log.length % (L + 1)) = .ok slot) :
    Holds L log (writeNext L log bs data) :=
  ⟨length_splice_slot h.length_eq (next_lt L log) hdata, fun _ _ => h.window_other hdata,
    fun _ => h.fresh_other hdata, ⟨slot, hslot, hnx⟩, h.distinct, h.fits⟩

end

theorem nodup_newest_append (h : (newest L log).Nodup) (hL : 0 < L) (hnew : idn ∉ newest L log) :
    (newest L (log ++ [idn])).Nodup := by
  have hlen : (log ++ [idn]).length = log.length + 1 := by simp
  have htail : (log.drop (log.length + 1 - L)).Sublist (newest L log) := by
    rw [newest, show log.length + 1 - L = log.length - L + (log.length + 1 - L - (log.length - L)) by
      omega, ← drop_drop]
    exact drop_sublist _ _
  rw [newest, hlen, drop_append_of_le_length (by omega)]
  refine nodup_append.mpr ⟨h.sublist htail, nodup_singleton _, ?_⟩
  intro a ha b hb heq
  rw [mem_singleton.mp hb] at heq
  exact hnew (heq ▸ htail.subset ha)

/-- A committed record of the next ordinal in the next slot adds its event to the list. -/
theorem Holds.commit (h : Holds L log bs) (hL : 0 < L)
    (hdata : data.length ≤ watchdogEventRecordBytes)
    (hslot : slotAt (writeNext L log bs data) (log.length % (L + 1)) =
      .ok (.committed ⟨log.length + 1, idn⟩))
    (hnew : idn ∉ newest L log) (hfits : log.length + 2 < u64Bound) :
    Holds L (log ++ [idn]) (writeNext L log bs data) := by
  have hlen : (log ++ [idn]).length = log.length + 1 := by simp
  refine ⟨length_splice_slot h.length_eq (next_lt L log) hdata, ?_, ?_, ?_,
    nodup_newest_append h.distinct hL hnew, ?_⟩
  · intro o id ho hin
    rw [hlen] at hin
    rcases Nat.lt_or_ge o log.length with hlt | hge
    · rw [getElem?_append_left hlt] at ho
      exact h.window_other hdata ho (by omega)
    · rw [getElem?_append_right hge] at ho
      obtain ⟨hzero, rfl⟩ : o - log.length = 0 ∧ idn = id := by
        simpa [getElem?_singleton, eq_comm] using ho
      obtain rfl : o = log.length := by omega
      exact hslot
  · intro i hlt hle
    rw [hlen] at hlt
    exact h.fresh_other hdata (by omega) hle
  · rw [hlen]
    rcases Nat.lt_or_ge log.length L with hroom | hfull
    · -- the ring is not full yet: the slot after the next was never used
      refine ⟨.empty, ?_, .empty⟩
      rw [Nat.mod_eq_of_lt (by omega : log.length + 1 < L + 1)]
      exact h.fresh_other hdata (by omega) (by omega)
    · -- it has the oldest retained event, which is now one too many
      have hget : log[log.length - L]? = some log[log.length - L] :=
        getElem?_eq_getElem (by omega)
      have hturn : (log.length + 1) % (L + 1) = (log.length - L) % (L + 1) := by
        have heq : log.length + 1 = log.length - L + (L + 1) := by omega
        rw [heq, Nat.add_mod_right]
      refine ⟨.committed ⟨log.length - L + 1, log[log.length - L]⟩, ?_, ?_⟩
      · rw [hturn]
        exact h.window_other hdata hget (by omega)
      · have hnx : NextSlot L (log ++ [idn])
            (.committed ⟨(log ++ [idn]).length - L, log[log.length - L]⟩) := by
          refine .oldest (by rw [hlen]; omega) ?_
          rw [hlen, Nat.add_sub_cancel, getElem?_append_left (by omega), hget]
        rwa [hlen, Nat.sub_add_comm hfull] at hnx
  · rwa [hlen]

end Rewriting

/-! ### The journal's memory -/

section Memory

/-- The memory of a journal over a file that holds this list. -/
structure Mem (L : ℕ) (log : List EventIdentity) (journal : Journal) : Prop where
  logical : journal.logicalCapacity = L
  physical : journal.physicalCapacity = L + 1
  next : journal.nextOrdinal = log.length + 1
  records : ∃ k, log.length - (L + 1) ≤ k ∧ k ≤ log.length - L ∧
    journal.records = (entries log).drop k
  identities : journal.identities = (newest L log).toFinset

theorem Mem.slotOf (h : Mem L log jnl) (ord : ℕ) : jnl.slotOf ord = (ord - 1) % (L + 1) := by
  rw [Journal.slotOf, h.physical]

theorem Mem.slotOf_next (h : Mem L log jnl) :
    jnl.slotOf (log.length + 1) = log.length % (L + 1) := by
  rw [h.slotOf, Nat.add_sub_cancel]

theorem Mem.mem_identities (h : Mem L log jnl) : idn ∈ jnl.identities ↔ idn ∈ newest L log := by
  rw [h.identities, mem_toFinset]

/-- What an append has found out: the slot's old record, if it is still there, is a turn older. -/
structure Append.Fits (L : ℕ) (log : List EventIdentity) (journal : Journal) (append : Append) :
    Prop where
  ordinal : append.ordinal = log.length + 1
  fresh : append.identity ∉ newest L log
  room : log.length + 2 < u64Bound
  valid : append.identity.Valid
  overwritten : append.overwritten = (journal.records.map (·.1)).find? fun previous =>
    journal.slotOf previous = journal.slotOf append.ordinal
  previous : ∀ ordinal, append.previous = some ordinal → ordinal + (L + 1) = log.length + 1

variable {ord : Option ℕ} {rs : List (ℕ × EventIdentity)} {e : ℕ × EventIdentity}

theorem mem_eraseOption : e ∈ eraseOption ord rs ↔ e ∈ rs ∧ ∀ o, ord = some o → e.1 ≠ o := by
  cases ord with
  | none => simp [eraseOption]
  | some o => simp [eraseOption, mem_eraseKey]

theorem ordered_eraseOption (h : Ordered rs) : Ordered (eraseOption ord rs) := by
  cases ord with
  | none => exact h
  | some o => exact ordered_eraseKey h

/-- Of the ordinals in memory only the one a whole turn before the next has the next slot. -/
theorem Mem.overwritten_eq (h : Mem L log jnl) (hfits : append.Fits L log jnl)
    (he : e ∈ jnl.records) : append.overwritten = some e.1 ↔ e.1 + (L + 1) = log.length + 1 := by
  obtain ⟨k, hk, -, hrcs⟩ := h.records
  -- the slots of the ordinals in memory, compared with the next slot
  have hslot : ∀ a ∈ jnl.records,
      (jnl.slotOf a.1 = jnl.slotOf append.ordinal ↔ a.1 + (L + 1) = log.length + 1) := by
    intro a ha
    rw [hrcs] at ha
    obtain ⟨o, hko, ho, hord⟩ := mem_entries_drop.mp ha
    have hlt := (List.getElem?_eq_some_iff.mp ho).1
    rw [hfits.ordinal, h.slotOf, h.slotOf, hord, Nat.add_sub_cancel, Nat.add_sub_cancel]
    constructor
    · intro hmod
      have hturn : o + (L + 1) = log.length := by
        by_contra hne
        have := eq_of_mod_eq hmod hlt.le (by omega)
        omega
      omega
    · intro heq
      have hturn : log.length = o + (L + 1) := by omega
      rw [hturn, Nat.add_mod_right]
  rw [hfits.overwritten]
  constructor
  · intro hfind
    exact (hslot e he).mp (by simpa using find?_some hfind)
  · intro heq
    cases hfind : (jnl.records.map (·.1)).find? fun prev =>
        jnl.slotOf prev = jnl.slotOf append.ordinal with
    | none =>
      have := find?_eq_none.mp hfind e.1 (mem_map.mpr ⟨e, he, rfl⟩)
      exact absurd ((hslot e he).mpr heq) (by simpa using this)
    | some o =>
      obtain ⟨a, ha, rfl⟩ := mem_map.mp (mem_of_find?_eq_some hfind)
      have := (hslot a ha).mp (by simpa using find?_some hfind)
      rw [show a.1 = e.1 by omega]

theorem Mem.appended (h : Mem L log jnl) (hfits : append.Fits L log jnl) :
    Mem L (log ++ [append.identity]) (jnl.appended append) := by
  obtain ⟨k, hk, hkL, hrcs⟩ := h.records
  have hordered : Ordered jnl.records := hrcs ▸ ordered_entries_drop log k
  have hlen : (log ++ [append.identity]).length = log.length + 1 := by simp
  have haft : (jnl.appended append).records =
      (entries (log ++ [append.identity])).drop (log.length - L) := by
    refine (ordered_insertKey (ordered_eraseOption (ordered_eraseOption hordered))).ext
      (ordered_entries_drop _ _) fun e => ?_
    rw [mem_insertKey (ordered_eraseOption (ordered_eraseOption hordered)), mem_eraseOption,
      mem_eraseOption, mem_entries_drop, hfits.ordinal]
    constructor
    · rintro (rfl | ⟨⟨⟨he, hover⟩, -⟩, -⟩)
      · exact ⟨log.length, by omega, by simp, rfl⟩
      · have hne : ¬e.1 + (L + 1) = log.length + 1 := fun heq =>
          hover e.1 ((h.overwritten_eq hfits he).mpr heq) rfl
        rw [hrcs] at he
        obtain ⟨o, hko, ho, hord⟩ := mem_entries_drop.mp he
        have hlt := (List.getElem?_eq_some_iff.mp ho).1
        exact ⟨o, by omega, by rw [getElem?_append_left hlt]; exact ho, hord⟩
    · rintro ⟨o, hko, ho, hord⟩
      rcases Nat.lt_or_ge o log.length with hlt | hge
      · rw [getElem?_append_left hlt] at ho
        have he : e ∈ jnl.records := by
          rw [hrcs]
          exact mem_entries_drop.mpr ⟨o, by omega, ho, hord⟩
        refine .inr ⟨⟨⟨he, fun old hover => ?_⟩, fun prev hprv => ?_⟩, by omega⟩
        · rintro rfl
          have := (h.overwritten_eq hfits he).mp hover
          omega
        · have := hfits.previous prev hprv
          omega
      · rw [getElem?_append_right hge] at ho
        obtain ⟨hzero, hid⟩ : o - log.length = 0 ∧ append.identity = e.2 := by
          simpa [getElem?_singleton, eq_comm] using ho
        exact .inl (Prod.ext (by change e.1 = log.length + 1; omega) hid.symm)
  refine ⟨h.logical, h.physical, ?_, ⟨log.length - L, by omega, by omega, haft⟩, ?_⟩
  · rw [hlen, ← hfits.ordinal]
    rfl
  · change retainedIdentities (jnl.appended append).records jnl.logicalCapacity = _
    rw [haft, h.logical, retained_entries_drop (by omega)]

end Memory

/-! ### Deciding -/

section Deciding

/-- What `record` decides about an event before its first write. -/
inductive Planned (L : ℕ) (log : List EventIdentity) (journal : Journal) (event : SafetyEvent)
    (fault : Option Fault) : Except WatchdogError Plan → Prop
  | refused {error : WatchdogError} :
      (faultAt fault .read = none → ∀ identity, EventIdentity.fromEvent event = .ok identity →
        identity ∉ newest L log ∧ u64Bound ≤ log.length + 2) →
      Planned L log journal event fault (.error error)
  | replayed {identity : EventIdentity} : EventIdentity.fromEvent event = .ok identity →
      identity ∈ newest L log → Planned L log journal event fault (.ok .replayed)
  | append {append : Append} : EventIdentity.fromEvent event = .ok append.identity →
      append.Fits L log journal → Planned L log journal event fault (.ok (.append append))

/-- STEP: a journal with its memory in order decides without touching anything. -/
theorem Mem.plan (h : Mem L log jnl) (hhd : Holds L log vol.view)
    (hcer : jnl.publicationUncertain = false) (starts : ℕ) :
    ∃ res, jnl.plan (starts + 1) vol ev flt = (jnl, vol, res) ∧ Planned L log jnl ev flt res := by
  have hset : jnl.settle vol.view flt = .ok jnl := by
    simp [Journal.settle, hcer]
  unfold Journal.plan
  rw [hset]
  cases hev : EventIdentity.fromEvent ev with
  | error err => exact ⟨_, rfl, .refused fun _ idn hid => by rw [hev] at hid; cases hid⟩
  | ok idn =>
    dsimp only
    by_cases hmem : idn ∈ newest L log
    · rw [if_pos (h.mem_identities.mpr hmem)]
      exact ⟨_, rfl, .replayed hev hmem⟩
    rw [if_neg (mt h.mem_identities.mp hmem), h.next]
    by_cases hroom : u64Bound ≤ log.length + 1 + 1
    · rw [if_pos hroom]
      refine ⟨_, rfl, .refused fun _ other hoth => ?_⟩
      cases hev.symm.trans hoth
      exact ⟨hmem, hroom⟩
    rw [if_neg hroom]
    cases hread : faultAt flt .read with
    | some err => exact ⟨_, rfl, .refused fun hno => by rw [hread] at hno; cases hno⟩
    | none =>
      have hfits : ∀ prev, (∀ ord, prev = some ord → ord + (L + 1) = log.length + 1) →
          Append.Fits L log jnl ⟨log.length + 1, idn,
            (jnl.records.map (·.1)).find? (fun prev =>
              jnl.slotOf prev = jnl.slotOf (log.length + 1)), prev⟩ :=
        fun prev hprv =>
          ⟨rfl, hmem, not_le.mp hroom, fromEvent_valid hev, rfl, hprv⟩
      obtain ⟨slot, hslot, hnx⟩ := hhd.next
      rw [slotAt] at hslot
      rw [h.slotOf_next, hslot]
      cases hnx with
      | empty =>
        refine ⟨_, rfl, .append hev ?_⟩
        rw [← h.slotOf_next]
        exact hfits none fun _ hno => by cases hno
      | preparing prepared =>
        dsimp only
        rw [if_pos rfl]
        refine ⟨_, rfl, .append hev ?_⟩
        rw [← h.slotOf_next]
        exact hfits none fun _ hno => by cases hno
      | oldest hlt hget =>
        dsimp only
        rw [if_neg (by omega), if_pos (by rw [h.physical]; omega)]
        refine ⟨_, rfl, .append hev ?_⟩
        rw [← h.slotOf_next]
        exact hfits _ fun ord hord => by
          cases hord
          omega

/-- A journal over a file that holds this list: its memory is in order, or it will be reread. -/
structure Ready (L : ℕ) (log : List EventIdentity) (journal : Journal) : Prop where
  logical : journal.logicalCapacity = L
  physical : journal.physicalCapacity = L + 1
  memory : journal.publicationUncertain = false → Mem L log journal

theorem Mem.ready (h : Mem L log jnl) : Ready L log jnl := ⟨h.logical, h.physical, fun _ => h⟩

/-- STEP: a journal decides from its memory, after rereading the file if it has to. -/
theorem Ready.plan (h : Ready L log jnl) (hhd : Holds L log vol.view) (hL : 0 < L) (starts : ℕ) :
    (∃ err, faultAt flt .scan = some err ∧
      jnl.plan (starts + 1) vol ev flt = (jnl, vol, .error err)) ∨
    ∃ settled res, Mem L log settled ∧ settled.publicationUncertain = false ∧ jnl.plan
      (starts + 1) vol ev flt = (settled, vol, res) ∧ Planned L log settled ev flt res := by
  cases hcer : jnl.publicationUncertain with
  | false =>
    obtain ⟨res, hplan, hpln⟩ := (h.memory hcer).plan hhd hcer starts
    exact .inr ⟨jnl, res, h.memory hcer, hcer, hplan, hpln⟩
  | true =>
    cases hscan : faultAt flt .scan with
    | some err =>
      refine .inl ⟨err, rfl, ?_⟩
      have hset : jnl.settle vol.view flt = .error err := by
        simp [Journal.settle, hcer, Journal.reconstruct, hscan]
      unfold Journal.plan
      rw [hset]
    | none =>
      right
      obtain ⟨k, hk, hkL, hload⟩ := hhd.load hL
      let settled : Journal := ⟨L, L + 1, log.length + 1, (entries log).drop k,
        (newest L log).toFinset, false⟩
      have hset : jnl.settle vol.view flt = .ok settled := by
        simp [Journal.settle, hcer, Journal.reconstruct, hscan, h.logical, h.physical, hload,
          settled]
      have hmem : Mem L log settled := ⟨rfl, rfl, rfl, ⟨k, hk, hkL, rfl⟩, rfl⟩
      obtain ⟨res, hplan, hpln⟩ := hmem.plan hhd rfl starts
      refine ⟨settled, res, hmem, rfl, ?_, hpln⟩
      -- the reread journal is settled already, so that both decide the same
      have haga : settled.settle vol.view flt = .ok settled := by
        simp [Journal.settle, settled]
      rw [← hplan]
      unfold Journal.plan
      rw [hset, haga]

end Deciding

/-! ### Publishing -/

section Publishing

/-- The file when one of the three writes begins: those before it are synchronized. -/
def Append.before (append : Append) (volume : Volume UInt8) (slot : ℕ) : Publication → Volume UInt8
  | .clear => volume
  | .preparing =>
    (volume.write (slot * watchdogEventRecordBytes) (append.data .clear).bytes).sync
  | .committed =>
    let cleared := (volume.write (slot * watchdogEventRecordBytes) (append.data .clear).bytes).sync
    (cleared.write (slot * watchdogEventRecordBytes) (append.data .preparing).bytes).sync

/-- The journal that a stopped publication leaves. -/
def Journal.stoppedAt (journal : Journal) : Publication → Journal
  | .committed => { journal with publicationUncertain := true }
  | _ => journal

inductive Published (journal : Journal) (volume : Volume UInt8) (append : Append) :
    Option Fault → Journal × Volume UInt8 × Except WatchdogError Bool → Prop
  | torn {publication : Publication} {count : Fin watchdogEventRecordBytes} {error : WatchdogError} :
      Published journal volume append (some ⟨.write publication count, error⟩)
        (journal.stoppedAt publication,
          (append.before volume (journal.slotOf append.ordinal) publication).write
            (journal.slotOf append.ordinal * watchdogEventRecordBytes)
            ((append.data publication).bytes.take count), .error error)
  | unsynchronized {publication : Publication} {error : WatchdogError} :
      Published journal volume append (some ⟨.sync publication, error⟩)
        (journal.stoppedAt publication,
          (append.before volume (journal.slotOf append.ordinal) publication).write
            (journal.slotOf append.ordinal * watchdogEventRecordBytes)
            (append.data publication).bytes, .error error)
  | done {fault : Option Fault} :
      (∀ publication count error, fault ≠ some ⟨.write publication count, error⟩) →
      (∀ publication error, fault ≠ some ⟨.sync publication, error⟩) →
      Published journal volume append fault
        (journal.appended append,
          ((append.before volume (journal.slotOf append.ordinal) .committed).write
            (journal.slotOf append.ordinal * watchdogEventRecordBytes)
            (append.data .committed).bytes).sync, .ok true)

/-- STEP: the three writes in order, the first that stops ends the publication. -/
theorem publish_published (jnl : Journal) (vol : Volume UInt8) (append : Append)
    (flt : Option Fault) : Published jnl vol append flt (jnl.publish vol append flt) := by
  rcases flt with - | ⟨point, err⟩
  · exact .done (by simp) (by simp)
  · cases point with
    | scan | read | settle => exact .done (by simp) (by simp)
    | write pub n => cases pub <;> exact .torn
    | sync pub => cases pub <;> exact .unsynchronized

/-- Every file that a crash can leave holds this list. -/
def Quiet (L : ℕ) (log : List EventIdentity) (volume : Volume UInt8) : Prop :=
  ∀ bytes, volume.Image bytes → Holds L log bytes

theorem Quiet.view (h : Quiet L log vol) : Holds L log vol.view := h _ vol.image_view

theorem quiet_ofBytes (h : Holds L log bs) : Quiet L log (Volume.ofBytes bs) := by
  intro image himg
  rwa [Volume.image_ofBytes.mp himg]

theorem Quiet.sync (h : Quiet L log vol) : Quiet L log vol.sync := quiet_ofBytes h.view

theorem slotAt_writeNext (bs : List UInt8) (hlen : bs.length = (L + 1) * watchdogEventRecordBytes)
    (r : Bytes watchdogEventRecordBytes) :
    slotAt (writeNext L log bs r.bytes) (log.length % (L + 1)) = decodeSlot r := by
  rw [slotAt, writeNext, readSlot_splice_full hlen (next_lt L log)]

variable {pub : Publication}

/-- The first two writes of an append leave in the slot what it may have. -/
theorem Append.Fits.decode (h : append.Fits L log jnl) (hne : pub ≠ .committed) :
    ∃ slot, decodeSlot (append.data pub) = .ok slot ∧ NextSlot L log slot := by
  cases pub with
  | clear => exact ⟨_, decodeSlot_zero, .empty⟩
  | preparing =>
    refine ⟨_, ?_, .preparing append.identity⟩
    have hroom := h.room
    rw [← h.ordinal]
    exact decodeSlot_preparing (by rw [h.ordinal]; omega) (by rw [h.ordinal]; omega) h.valid
  | committed => exact absurd rfl hne

theorem Append.Fits.decode_committed (h : append.Fits L log jnl) :
    decodeSlot (append.data .committed) = .ok (.committed ⟨log.length + 1, append.identity⟩) := by
  have hroom := h.room
  rw [← h.ordinal]
  exact decodeSlot_committed (by rw [h.ordinal]; omega) (by rw [h.ordinal]; omega) h.valid

/-- A write that is decoded as what the slot may have keeps every file a crash can leave. -/
theorem Quiet.write (h : Quiet L log vol) (hfits : append.Fits L log jnl) (hne : pub ≠ .committed) :
    Quiet L log (vol.write (log.length % (L + 1) * watchdogEventRecordBytes)
      (append.data pub).bytes) := by
  intro bs hbs
  rcases Volume.image_write.mp hbs with himg | ⟨image, himg, rfl⟩
  · exact h bs himg
  · obtain ⟨slot, hslot, hnx⟩ := hfits.decode hne
    have hhd := h image himg
    exact hhd.rewrite (append.data pub).length_eq.le hnx
      ((slotAt_writeNext image hhd.length_eq _).trans hslot)

theorem Quiet.before (h : Quiet L log vol) (hfits : append.Fits L log jnl) :
    ∀ pub, Quiet L log (append.before vol (log.length % (L + 1)) pub)
  | .clear => h
  | .preparing => (h.write hfits (by simp)).sync
  | .committed => (((h.write hfits (by simp)).sync).write hfits (by simp)).sync

/-- What a reader sees of a publication depends on what it saw before, not on what is
    synchronized. -/
theorem view_before (append : Append) (vol : Volume UInt8) (slot : ℕ) (pub : Publication) :
    (append.before vol slot pub).view =
      (append.before (Volume.ofBytes vol.view) slot pub).view := by
  cases pub <;> simp [Append.before]

theorem Holds.before (h : Holds L log vol.view) (hfits : append.Fits L log jnl)
    (pub : Publication) : Holds L log (append.before vol (log.length % (L + 1)) pub).view := by
  rw [view_before]
  exact ((quiet_ofBytes h).before hfits pub).view

/-- One of the writes of an append as a whole. -/
theorem Holds.publish (h : Holds L log bs) (hL : 0 < L)
    (hfits : append.Fits L log jnl) (pub : Publication) :
    Holds L (if pub = .committed then log ++ [append.identity] else log)
      (writeNext L log bs (append.data pub).bytes) := by
  have hslot : slotAt (writeNext L log bs (append.data pub).bytes)
      (log.length % (L + 1)) = decodeSlot (append.data pub) :=
    slotAt_writeNext bs h.length_eq (append.data pub)
  by_cases hlast : pub = .committed
  · subst hlast
    rw [if_pos rfl]
    exact h.commit hL (append.data .committed).length_eq.le (hslot.trans hfits.decode_committed)
      hfits.fresh hfits.room
  · rw [if_neg hlast]
    obtain ⟨slot, hdec, hnx⟩ := hfits.decode hlast
    exact h.rewrite (append.data pub).length_eq.le hnx (hslot.trans hdec)

/-- CALL: recording an event on a healthy file replays it or appends it. -/
theorem Ready.record_healthy (h : Ready L log jnl) (hview : Holds L log vol.view) (hL : 0 < L)
    (hev : EventIdentity.fromEvent ev = .ok idn)
    (hroom : idn ∉ newest L log → log.length + 2 < u64Bound) :
    ∃ jnl' vol', (idn ∈ newest L log ∧
        jnl.record vol ev none = (jnl', vol', .ok false) ∧ Mem L log jnl' ∧
        Holds L log vol'.view) ∨
      (idn ∉ newest L log ∧
        jnl.record vol ev none = (jnl', vol', .ok true) ∧
        Mem L (log ++ [idn]) jnl' ∧ Holds L (log ++ [idn]) vol'.view) := by
  have hdec : (∃ err, faultAt none .scan = some err ∧
      jnl.plan 2 vol ev none = (jnl, vol, .error err)) ∨
      ∃ settled res, Mem L log settled ∧ settled.publicationUncertain = false ∧
        jnl.plan 2 vol ev none = (settled, vol, res) ∧
        Planned L log settled ev none res := h.plan hview hL 1
  obtain ⟨settled, res, hmem, -, hplan, hpln⟩ := hdec.resolve_left (by
    rintro ⟨err, hno, -⟩
    cases hno)
  rw [Journal.record, hplan]
  cases hpln with
  | refused hno =>
    obtain ⟨hnew, hfull⟩ := hno rfl idn hev
    have := hroom hnew
    omega
  | replayed hoth hret =>
    cases hev.symm.trans hoth
    exact ⟨settled, vol, .inl ⟨hret, rfl, hmem, hview⟩⟩
  | @append append hoth hfits =>
    cases hev.symm.trans hoth
    have hslot : settled.slotOf append.ordinal = log.length % (L + 1) := by
      rw [hfits.ordinal, hmem.slotOf_next]
    refine ⟨_, _, .inr ⟨hfits.fresh, rfl, hmem.appended hfits, ?_⟩⟩
    have hcmt := (hview.before hfits .committed).publish hL hfits .committed
    rw [if_pos rfl] at hcmt
    rwa [hslot]

end Publishing

end LetsInfer.Watchdog
