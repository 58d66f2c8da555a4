import LetsInfer.Watchdog.EventCrash

/-! @src core/watchdog/src/li_watchdog_event_journal.rs | name:Torn journal writes | scheme:journal

    A write of an append that stops inside its 64 bytes leaves a slot with the first bytes of the new
    record and the last bytes of what was there before. The slot is decoded only when these bytes are
    the old ones or the new ones after all: a torn clearing has no magic, a torn preparation has no
    generation or the wrong checksum, and a torn commit has its marker under the checksum of the
    other marker. Everything else is corrupt, and an event whose append stopped there is refused from
    then on, by the same journal and by every journal opened over the file. -/

namespace LetsInfer.Watchdog
open Schemes List

variable {L cap : ℕ} {log : List EventIdentity} {jnl : Journal} {append : Append}
  {idn : EventIdentity} {pub : Publication} {vol : Volume UInt8}
  {ev : SafetyEvent} {err : WatchdogError} {s : JournalSys}

/-! ### Torn slots -/

section TornSlots

/-- The first bytes of one record and the last bytes of another. -/
def tornSlot (old new : Bytes watchdogEventRecordBytes) (count : ℕ) :
    Bytes watchdogEventRecordBytes :=
  ⟨new.bytes.take count ++ old.bytes.drop count, by
    rw [length_append, length_take, length_drop, old.length_eq, new.length_eq]
    omega⟩

/-- What is in the slot when one of the three writes begins. -/
def Append.old (append : Append) (slot : Bytes watchdogEventRecordBytes) :
    Publication → Bytes watchdogEventRecordBytes
  | .clear => slot
  | .preparing => append.data .clear
  | .committed => append.data .preparing

variable {slot : EventSlot} {old new : Bytes watchdogEventRecordBytes} {cnt i : ℕ}

/-- What a decoded record has to be: magic in front, its checksum, and a generation in hexadecimal. -/
theorem decodeSlot_ok {r : Bytes watchdogEventRecordBytes} (h : decodeSlot r = .ok slot) :
    r = Bytes.zero watchdogEventRecordBytes ∨ r.bytes.take 4 = watchdogEventMagic ∧
      getU32 r.bytes watchdogEventCrcOffset = watchdogCrc32 (r.bytes.take watchdogEventCrcOffset) ∧
      (fieldAt r.bytes 28 watchdogEventGenerationBytes).all isLowerHexByte = true := by
  by_cases hzero : r.bytes.all (· == 0) = true
  · left
    ext1
    refine eq_replicate_iff.mpr ⟨r.length_eq, fun b hb => ?_⟩
    simpa using all_eq_true.mp hzero b hb
  · right
    unfold decodeSlot at h
    rw [if_neg hzero] at h
    obtain ⟨-, h⟩ := error_if_ok_iff.mp h
    obtain ⟨hfds, h⟩ := error_if_ok_iff.mp h
    obtain ⟨-, h⟩ := error_if_ok_iff.mp h
    simp only [not_or, not_not] at hfds
    obtain ⟨idn, hidt, -⟩ := bind_ok_iff.mp h
    refine ⟨hfds.1, hfds.2.2.2, ?_⟩
    obtain ⟨kind, -, hidt⟩ := bind_ok_iff.mp hidt
    obtain ⟨reason, -, hidt⟩ := bind_ok_iff.mp hidt
    obtain ⟨act, -, hidt⟩ := bind_ok_iff.mp hidt
    obtain ⟨containment, -, hidt⟩ := bind_ok_iff.mp hidt
    dsimp only at hidt
    split at hidt
    · rename_i hval
      have hhex := (error_if_ok_iff.mp hval).1
      simp only [not_or, Bool.not_eq_true', Bool.not_eq_false] at hhex
      exact hhex.2.2
    · cases hidt

/-- A decoded slot whose bytes under the checksum are those of a record is the whole record. -/
theorem eq_encodeRecord {rcd : Bytes watchdogEventRecordBytes} {n : ℕ} {mk : UInt8}
    (hcrc : getU32 rcd.bytes watchdogEventCrcOffset =
      watchdogCrc32 (rcd.bytes.take watchdogEventCrcOffset))
    (hbody : rcd.bytes.take watchdogEventCrcOffset = eventBody n idn mk) :
    rcd = encodeRecord n idn mk := by
  obtain ⟨htake, hnew⟩ := encodeRecord_crc n idn mk
  rw [hbody, ← hnew] at hcrc
  have hlen : ∀ r : Bytes watchdogEventRecordBytes,
      (r.bytes.drop watchdogEventCrcOffset).length = 4 := by
    intro r
    rw [length_drop, r.length_eq]
    rfl
  have hword : ∀ r : Bytes watchdogEventRecordBytes,
      getU32 r.bytes watchdogEventCrcOffset =
        UInt32.ofNat (leValue (r.bytes.drop watchdogEventCrcOffset)) := by
    intro r
    rw [getU32, fieldAt, take_of_length_le (hlen r).le]
  have hbd : ∀ r : Bytes watchdogEventRecordBytes,
      leValue (r.bytes.drop watchdogEventCrcOffset) < 2 ^ 32 := by
    intro r
    have := leValue_lt (r.bytes.drop watchdogEventCrcOffset)
    rwa [hlen] at this
  rw [hword, hword] at hcrc
  have hvl := congrArg UInt32.toNat hcrc
  rw [UInt32.toNat_ofNat_of_lt' (hbd _), UInt32.toNat_ofNat_of_lt' (hbd _)] at hvl
  have hdrop := leValue_inj ((hlen _).trans (hlen _).symm) hvl
  ext1
  rw [← take_append_drop watchdogEventCrcOffset rcd.bytes, hbody, ← htake, hdrop, take_append_drop]

/-- The two markers of a record are the only difference under its checksum. -/
theorem eventBody_split (n : ℕ) (idn : EventIdentity) : ∃ front back : List UInt8,
    front.length = 10 ∧ ∀ mk, eventBody n idn mk = front ++ mk :: back :=
  ⟨watchdogEventMagic ++ [watchdogEventVersion, idn.kind.code, idn.reason.code,
      idn.severity, actionCode idn.action, containmentCode idn.containmentComplete],
    0 :: (leBytes 8 n ++ (putU64 idn.sequence ++ idn.generation.bytes)), rfl,
    fun _ => rfl⟩

/-- The clearing of a slot stops: the slot is as before, or all zero, or has no magic. -/
theorem torn_clear (h : decodeSlot (tornSlot old (append.data .clear) cnt) = .ok slot) :
    tornSlot old (append.data .clear) cnt = old ∨
      tornSlot old (append.data .clear) cnt = append.data .clear := by
  rcases decodeSlot_ok h with hzero | ⟨hmag, -, -⟩
  · exact .inr hzero
  · cases cnt with
    | zero => exact .inl (by ext1; rfl)
    | succ cnt =>
      have hhead : (tornSlot old (append.data .clear) (cnt + 1)).bytes =
          0 :: ((replicate 63 0).take cnt ++ old.bytes.drop (cnt + 1)) := rfl
      rw [hhead] at hmag
      cases hmag

theorem tornSlot_getElem? (hcnt : cnt ≤ i) (hi : i < watchdogEventRecordBytes) :
    (tornSlot old new cnt).bytes[i]? = old.bytes[i]? := by
  have hlen : (new.bytes.take cnt).length = cnt := by
    rw [length_take, new.length_eq]
    omega
  rw [tornSlot, getElem?_append_right (by omega), hlen, getElem?_drop, Nat.add_sub_cancel' hcnt]

theorem tornSlot_getElem?_of_lt (hi : i < cnt) (hcnt : cnt ≤ watchdogEventRecordBytes) :
    (tornSlot old new cnt).bytes[i]? = new.bytes[i]? := by
  have hlen : (new.bytes.take cnt).length = cnt := by
    rw [length_take, new.length_eq]
    omega
  rw [tornSlot, getElem?_append_left (by omega), getElem?_take_of_lt hi]

theorem tornSlot_body (h : watchdogEventCrcOffset ≤ cnt) :
    (tornSlot old new cnt).bytes.take watchdogEventCrcOffset =
      new.bytes.take watchdogEventCrcOffset := by
  have hlen : watchdogEventCrcOffset ≤ (new.bytes.take cnt).length := by
    rw [length_take, new.length_eq]
    exact le_min h (by decide)
  rw [tornSlot, take_append_of_le_length hlen, take_take, Nat.min_eq_left h]

/-- The preparation of a record stops: in an empty slot its generation has no last byte before all
    the bytes under the checksum are written. -/
theorem torn_preparing
    (h : decodeSlot (tornSlot (append.data .clear) (append.data .preparing) cnt) = .ok slot) :
    tornSlot (append.data .clear) (append.data .preparing) cnt = append.data .clear ∨
      tornSlot (append.data .clear) (append.data .preparing) cnt = append.data .preparing := by
  rcases decodeSlot_ok h with hzero | ⟨-, hcrc, hhex⟩
  · exact .inl hzero
  · right
    rcases Nat.lt_or_ge cnt watchdogEventCrcOffset with hlt | hge
    · have hlast : (tornSlot (append.data .clear) (append.data .preparing) cnt).bytes[59]? =
          some 0 := by
        rw [tornSlot_getElem? (Nat.le_of_lt_succ hlt) (by decide)]
        rfl
      have hfld : (fieldAt (tornSlot (append.data .clear) (append.data .preparing) cnt).bytes 28
          watchdogEventGenerationBytes)[31]? = some 0 := by
        rw [fieldAt, getElem?_take_of_lt (by decide), getElem?_drop, hlast]
      have := all_eq_true.mp hhex 0 (mem_of_getElem? hfld)
      exact absurd this (by decide)
    · refine eq_encodeRecord hcrc ?_
      rw [tornSlot_body hge]
      exact (encodeRecord_crc _ _ _).1

theorem committed_getElem?_eq_preparing (append : Append) (hmar : 10 < i)
    (hi : i < watchdogEventCrcOffset) :
    (append.data .committed).bytes[i]? = (append.data .preparing).bytes[i]? := by
  obtain ⟨front, back, hfro, hbody⟩ := eventBody_split append.ordinal append.identity
  have hlast : ∀ mk, (encodeRecord append.ordinal append.identity mk).bytes[i]? =
      back[i - 11]? := by
    intro mk
    have hlen := length_eventBody append.ordinal append.identity mk
    change (eventBody _ _ _ ++ _)[i]? = _
    rw [getElem?_append_left (by omega), hbody, getElem?_append_right (by omega), hfro,
      show i - 10 = (i - 11) + 1 by omega, getElem?_cons_succ]
  exact (hlast _).trans (hlast _).symm

/-- The commit of a record stops: until its marker is written the slot is as before, and then it has
    all the bytes under the checksum. -/
theorem torn_committed (hcnt : cnt ≤ watchdogEventRecordBytes)
    (h : decodeSlot (tornSlot (append.data .preparing) (append.data .committed) cnt) = .ok slot) :
    tornSlot (append.data .preparing) (append.data .committed) cnt = append.data .preparing ∨
      tornSlot (append.data .preparing) (append.data .committed) cnt = append.data .committed := by
  rcases Nat.lt_or_ge 10 cnt with hmar | hbef
  · right
    rcases decodeSlot_ok h with hzero | ⟨-, hcrc, -⟩
    · have hhead : (tornSlot (append.data .preparing) (append.data .committed) cnt).bytes[0]? =
          some 76 := by
        rw [tornSlot_getElem?_of_lt (by omega) hcnt]
        rfl
      rw [hzero] at hhead
      cases hhead
    · refine eq_encodeRecord hcrc ?_
      rw [← (encodeRecord_crc _ _ _).1]
      refine ext_getElem? fun i => ?_
      rcases Nat.lt_or_ge i watchdogEventCrcOffset with hi | hi
      · rw [getElem?_take_of_lt hi, getElem?_take_of_lt hi]
        rcases Nat.lt_or_ge i cnt with hlt | hge
        · exact tornSlot_getElem?_of_lt hlt hcnt
        · rw [tornSlot_getElem? hge (hi.trans (by decide))]
          exact (committed_getElem?_eq_preparing append (by omega) hi).symm
      · simp [Nat.not_lt.mpr hi]
  · left
    obtain ⟨front, back, hfro, hbody⟩ := eventBody_split append.ordinal append.identity
    have htake : ∀ mk, (encodeRecord append.ordinal append.identity mk).bytes.take cnt =
        front.take cnt := by
      intro mk
      have hlen := length_eventBody append.ordinal append.identity mk
      have hofs : watchdogEventCrcOffset = 60 := rfl
      change (eventBody _ _ _ ++ _).take cnt = _
      rw [take_append_of_le_length (by omega), hbody, take_append_of_le_length (by omega)]
    ext1
    change (append.data .committed).bytes.take cnt ++ _ = _
    rw [show (append.data .committed).bytes.take cnt =
      (append.data .preparing).bytes.take cnt from (htake _).trans (htake _).symm,
      take_append_drop]

/-- DECODED: a torn slot is decoded only as what was there before or what was to be written. -/
theorem torn_decoded {cnt : Fin watchdogEventRecordBytes}
    (h : decodeSlot (tornSlot (append.old old pub) (append.data pub) cnt) = .ok slot) :
    tornSlot (append.old old pub) (append.data pub) cnt = append.old old pub ∨
      tornSlot (append.old old pub) (append.data pub) cnt = append.data pub := by
  cases pub with
  | clear => exact torn_clear h
  | preparing => exact torn_preparing h
  | committed => exact torn_committed cnt.2.le h

end TornSlots

/-! ### Torn files -/

section TornFiles

variable {flt : Option Fault}

section

variable (h : Holds L log vol.view)
include h

theorem Holds.old (hfits : append.Fits L log jnl) (pub : Publication) :
    readSlot (append.before vol (log.length % (L + 1)) pub).view (log.length % (L + 1)) =
      append.old (readSlot vol.view (log.length % (L + 1))) pub := by
  have hlen := (h.before hfits .preparing).length_eq
  cases pub with
  | clear => rfl
  | preparing =>
    change readSlot (Volume.view (Volume.sync _)) _ = _
    rw [Volume.view_sync, Volume.view_write]
    exact readSlot_splice_full h.length_eq (next_lt L log) _
  | committed =>
    change readSlot (Volume.view (Volume.sync _)) _ = _
    rw [Volume.view_sync, Volume.view_write]
    exact readSlot_splice_full hlen (next_lt L log) _

theorem Holds.torn (hfits : append.Fits L log jnl)
    (pub : Publication) (cnt : Fin watchdogEventRecordBytes) :
    readSlot (writeNext L log (append.before vol (log.length % (L + 1)) pub).view
        ((append.data pub).bytes.take cnt)) (log.length % (L + 1)) =
      tornSlot (append.old (readSlot vol.view (log.length % (L + 1))) pub)
        (append.data pub) cnt := by
  have hlen : ((append.data pub).bytes.take cnt).length = cnt := by
    rw [length_take, (append.data pub).length_eq, Nat.min_eq_left cnt.2.le]
  ext1
  rw [writeNext, readSlot_splice (h.before hfits pub).length_eq (next_lt L log)
    (by rw [hlen]; exact cnt.2.le), h.old hfits pub, hlen]
  rfl

/-- A torn slot that is decoded: the file holds the list it held, or that of the whole write. -/
theorem Holds.torn_ok (hL : 0 < L) (hfits : append.Fits L log jnl)
    (pub : Publication) (cnt : Fin watchdogEventRecordBytes) :
    (tornSlot (append.old (readSlot vol.view (log.length % (L + 1))) pub)
        (append.data pub) cnt = append.old (readSlot vol.view (log.length % (L + 1))) pub →
      Holds L log (writeNext L log
        (append.before vol (log.length % (L + 1)) pub).view
        ((append.data pub).bytes.take cnt))) ∧
    (tornSlot (append.old (readSlot vol.view (log.length % (L + 1))) pub)
        (append.data pub) cnt = append.data pub →
      Holds L (if pub = .committed then log ++ [append.identity] else log)
        (writeNext L log (append.before vol (log.length % (L + 1)) pub).view
          ((append.data pub).bytes.take cnt))) := by
  have hbef := h.before hfits pub
  have htorn := h.torn hfits pub cnt
  have hdata : ((append.data pub).bytes.take cnt).length ≤ watchdogEventRecordBytes := by
    rw [length_take, (append.data pub).length_eq]
    exact Nat.min_le_right _ _
  constructor
  · intro hold
    obtain ⟨slot, hslot, hnx⟩ := hbef.next
    refine hbef.rewrite hdata hnx ?_
    rwa [slotAt, htorn, hold, ← h.old hfits pub]
  · intro hnew
    have hslot : slotAt (writeNext L log
        (append.before vol (log.length % (L + 1)) pub).view
        ((append.data pub).bytes.take cnt)) (log.length % (L + 1)) =
          decodeSlot (append.data pub) := by
      rw [slotAt, htorn, hnew]
    by_cases hlast : pub = .committed
    · subst hlast
      rw [if_pos rfl]
      exact hbef.commit hL hdata (hslot.trans hfits.decode_committed) hfits.fresh hfits.room
    · rw [if_neg hlast]
      obtain ⟨slot, hdec, hnx⟩ := hfits.decode hlast
      exact hbef.rewrite hdata hnx (hslot.trans hdec)

end

/-- A journal over a file whose next slot is not decoded refuses every event that is not retained,
    and touches nothing. -/
theorem Ready.plan_stuck (h : Ready L log jnl)
    (hstu : slotAt vol.view (log.length % (L + 1)) = .error err) (starts : ℕ) :
    ∃ res, jnl.plan (starts + 1) vol ev flt = (jnl, vol, res) ∧
      ((∃ refusal, res = .error refusal) ∨ res = .ok .replayed ∧
        ∃ idn ∈ newest L log, EventIdentity.fromEvent ev = .ok idn) := by
  unfold Journal.plan
  cases hcer : jnl.publicationUncertain with
  | true =>
    have hload : ∀ loaded, Journal.load L (L + 1) vol.view ≠ .ok loaded := by
      intro loaded hload
      obtain ⟨⟨rs, prep⟩, hscan, -⟩ := bind_ok_iff.mp hload
      obtain ⟨slot, hslot, -⟩ := (scanned_of_ok hscan).placed _ (next_lt L log)
      rw [hstu] at hslot
      cases hslot
    have hset : ∃ refusal, jnl.settle vol.view flt = .error refusal := by
      cases hscan : faultAt flt .scan with
      | some refusal =>
        exact ⟨refusal, by simp [Journal.settle, hcer, Journal.reconstruct, hscan]⟩
      | none =>
        cases hldd : Journal.load L (L + 1) vol.view with
        | error refusal =>
          exact ⟨refusal, by
            simp [Journal.settle, hcer, Journal.reconstruct, hscan, h.logical, h.physical, hldd]⟩
        | ok loaded => exact absurd hldd (hload loaded)
    obtain ⟨refusal, hset⟩ := hset
    rw [hset]
    exact ⟨_, rfl, .inl ⟨refusal, rfl⟩⟩
  | false =>
    have hmem := h.memory hcer
    have hset : jnl.settle vol.view flt = .ok jnl := by
      simp [Journal.settle, hcer]
    rw [hset]
    cases hev : EventIdentity.fromEvent ev with
    | error refusal => exact ⟨_, rfl, .inl ⟨refusal, rfl⟩⟩
    | ok idn =>
      dsimp only
      by_cases hret : idn ∈ newest L log
      · rw [if_pos (hmem.mem_identities.mpr hret)]
        exact ⟨_, rfl, .inr ⟨rfl, idn, hret, rfl⟩⟩
      rw [if_neg (mt hmem.mem_identities.mp hret), hmem.next]
      split_ifs
      · exact ⟨_, rfl, .inl ⟨_, rfl⟩⟩
      · rw [slotAt] at hstu
        rw [hmem.slotOf_next, hstu]
        cases faultAt flt .read with
        | some refusal | none => exact ⟨_, rfl, .inl ⟨_, rfl⟩⟩

/-- Every file that a crash can leave has the full extent. -/
def Sized (L : ℕ) (volume : Volume UInt8) : Prop :=
  ∀ bytes, volume.Image bytes → bytes.length = (L + 1) * watchdogEventRecordBytes

theorem Sized.sync (h : Sized L vol) : Sized L vol.sync := by
  intro bs hbs
  rw [Volume.image_sync.mp hbs]
  exact h _ vol.image_view

theorem Sized.write (h : Sized L vol) {data : List UInt8}
    (hdata : data.length ≤ watchdogEventRecordBytes) :
    Sized L (vol.write (log.length % (L + 1) * watchdogEventRecordBytes) data) := by
  intro bs hbs
  rcases Volume.image_write.mp hbs with himg | ⟨image, himg, rfl⟩
  · exact h bs himg
  · exact length_splice_slot (h image himg) (next_lt L log) hdata

theorem Sized.before (h : Sized L vol) : ∀ pub,
    Sized L (append.before vol (log.length % (L + 1)) pub)
  | .clear => h
  | .preparing => (h.write (append.data .clear).length_eq.le).sync
  | .committed =>
    (((h.write (append.data .clear).length_eq.le).sync).write (append.data .preparing).length_eq.le).sync

/-- A journal in use: the file holds the list its memory is about, or its next slot is torn. -/
structure InUse (L : ℕ) (journal : Journal) (volume : Volume UInt8) : Prop where
  sized : Sized L volume
  state : ∃ log, Ready L log journal ∧
    (Holds L log volume.view ∨
      ∃ error, slotAt volume.view (log.length % (L + 1)) = .error error)

/-- STEP: a call with any fault leaves the journal in use. -/
theorem InUse.record (h : InUse L jnl vol) (hL : 0 < L) :
    InUse L (jnl.record vol ev flt).1 (jnl.record vol ev flt).2.1 := by
  obtain ⟨hsiz, log, hrea, hhd | ⟨err, hstu⟩⟩ := h
  · rcases hrea.plan hhd hL 1 with ⟨err, -, hplan⟩ | ⟨settled, res, hmem, -, hplan, hpln⟩
    · rw [Journal.record, hplan]
      exact ⟨hsiz, log, hrea, .inl hhd⟩
    rw [Journal.record, hplan]
    cases hpln with
    | refused | replayed => exact ⟨hsiz, log, hmem.ready, .inl hhd⟩
    | @append append hev hfits =>
      have hslot : settled.slotOf append.ordinal = log.length % (L + 1) := by
        rw [hfits.ordinal, hmem.slotOf_next]
      dsimp only
      generalize hout : settled.publish vol append flt = out
      have hpub := publish_published settled vol append flt
      rw [hout] at hpub
      have haft : ∀ pub,
          Ready L (if pub = .committed then log ++ [append.identity] else log)
            (settled.stoppedAt pub) := by
        intro pub
        cases pub with
        | clear => exact hmem.ready
        | preparing => exact hmem.ready
        | committed => exact hmem.stoppedAt_committed _
      cases hpub with
      | @torn pub cnt err =>
        have hdata : ((append.data pub).bytes.take cnt).length ≤ watchdogEventRecordBytes := by
          rw [length_take, (append.data pub).length_eq]
          exact Nat.min_le_right _ _
        rw [hslot]
        refine ⟨(hsiz.before pub).write hdata, ?_⟩
        rw [Volume.view_write]
        obtain ⟨hold, hnew⟩ := hhd.torn_ok hL hfits pub cnt
        cases hdec : slotAt (writeNext L log
            (append.before vol (log.length % (L + 1)) pub).view
            ((append.data pub).bytes.take cnt)) (log.length % (L + 1)) with
        | error err => exact ⟨log, hmem.stoppedAt pub, .inr ⟨err, hdec⟩⟩
        | ok slot =>
          rw [slotAt, hhd.torn hfits] at hdec
          rcases torn_decoded hdec with heq | heq
          · exact ⟨log, hmem.stoppedAt pub, .inl (hold heq)⟩
          · exact ⟨_, haft pub, .inl (hnew heq)⟩
      | @unsynchronized pub err =>
        rw [hslot]
        refine ⟨(hsiz.before pub).write (append.data pub).length_eq.le, ?_⟩
        rw [Volume.view_write]
        exact ⟨_, haft pub, .inl ((hhd.before hfits pub).publish hL hfits pub)⟩
      | done =>
        rw [hslot]
        refine ⟨((hsiz.before .committed).write (append.data .committed).length_eq.le).sync, ?_⟩
        rw [Volume.view_sync, Volume.view_write]
        have hcmt := (hhd.before hfits .committed).publish hL hfits .committed
        rw [if_pos rfl] at hcmt
        exact ⟨_, (hmem.appended hfits).ready, .inl hcmt⟩
  · obtain ⟨res, hplan, hcase⟩ := hrea.plan_stuck hstu 1
    rw [Journal.record, hplan]
    rcases hcase with ⟨refusal, rfl⟩ | ⟨rfl, -⟩
    · exact ⟨hsiz, log, hrea, .inr ⟨err, hstu⟩⟩
    · exact ⟨hsiz, log, hrea, .inr ⟨err, hstu⟩⟩

end TornFiles

/-! ### Any run -/

section Runs

variable {t : JournalSys} {lab : JournalLabel} {o : JournalOutput}

/-- What holds in any run, however its writes are torn. -/
structure TornInv (s : JournalSys) : Prop where
  positive : 0 < s.capacity
  extent : eventFileBytes s.capacity = .ok ((s.capacity + 1) * watchdogEventRecordBytes)
  sized : Sized s.capacity s.volume
  journal : ∀ journal, s.journal = some journal → InUse s.capacity journal s.volume

theorem inUse_of_withFile {bs : List UInt8} (hsiz : Sized L vol)
    (hopen : Journal.withFile L vol.view = .ok (jnl, bs)) : InUse L jnl vol := by
  obtain ⟨-, -, hext, ⟨log, hhd⟩, hmem⟩ := holds_of_withFile hopen
  have hlen := hhd.length_eq
  rw [← hsiz _ vol.image_view] at hlen
  rw [hlen, Nat.sub_self, replicate_zero, append_nil] at hext
  exact ⟨hsiz, log, (hmem log hhd).ready, .inl (hext ▸ hhd)⟩

theorem TornInv.step (h : TornInv s) (hst : s.step lab = some (t, o)) : TornInv t := by
  cases lab with
  | record ev flt =>
    obtain ⟨jnl, hjnl, hout⟩ := Option.map_eq_some_iff.mp hst
    have huse : InUse s.capacity (jnl.record s.volume ev flt).1
        (jnl.record s.volume ev flt).2.1 := (h.journal jnl hjnl).record h.positive
    cases hout
    refine ⟨h.positive, h.extent, huse.sized, ?_⟩
    rintro _ ⟨⟩
    exact huse
  | synchronize =>
    obtain ⟨jnl, hjnl, hout⟩ := Option.map_eq_some_iff.mp hst
    cases hout
    refine ⟨h.positive, h.extent, h.sized.sync, fun other hoth => ?_⟩
    obtain ⟨-, hsta⟩ := h.journal other hoth
    exact ⟨h.sized.sync, hsta⟩
  | reopen =>
    simp only [JournalSys.step] at hst
    cases hopen : Journal.withFile s.capacity s.volume.view with
    | error err =>
      rw [hopen] at hst
      cases hst
      refine ⟨h.positive, h.extent, h.sized, ?_⟩
      rintro _ ⟨⟩
    | ok opened =>
      rw [hopen] at hst
      cases hst
      refine ⟨h.positive, h.extent, h.sized, ?_⟩
      rintro _ ⟨⟩
      exact inUse_of_withFile h.sized hopen
  | crash kept =>
    cases hst
    refine ⟨h.positive, h.extent, fun bs hbs => ?_, ?_⟩
    · rw [Volume.image_ofBytes.mp hbs]
      exact h.sized _ (s.volume.image_crash kept)
    · rintro _ ⟨⟩

theorem TornInv.create (h : JournalSys.create cap = .ok s) : TornInv s := by
  obtain ⟨hinv, -, -, -⟩ := JournalInv.create h
  have hsiz : Sized s.capacity s.volume := by
    intro bs hbs
    obtain ⟨found, -, hhd, -⟩ := hinv.found hbs
    exact hhd.length_eq
  exact ⟨hinv.positive, hinv.extent, hsiz, fun jnl hjnl =>
    ⟨hsiz, s.committed, hinv.journal jnl hjnl, .inl hinv.view⟩⟩

/-- A journal retains an event exactly once. -/
def RetainsOnce (journal : Journal) (identity : EventIdentity) : Prop :=
  ((journal.records.reverse.take journal.logicalCapacity).map (·.2)).count identity = 1

/-- A call that succeeds and leaves the event retained exactly once, in the journal and in every
    journal opened over the file. -/
def RecordsOnce (L : ℕ) (identity : EventIdentity)
    (outcome : Journal × Volume UInt8 × Except WatchdogError Bool) : Prop :=
  (∃ appended, outcome.2.2 = .ok appended) ∧ RetainsOnce outcome.1 identity ∧
    ∃ journal, Journal.withFile L outcome.2.1.view = .ok (journal, outcome.2.1.view) ∧
      RetainsOnce journal identity

/-- The event can be recorded again, by the same journal and by one opened over the file. -/
def Retryable (L : ℕ) (event : SafetyEvent) (identity : EventIdentity) (journal : Journal)
    (volume : Volume UInt8) : Prop :=
  RecordsOnce L identity (journal.record volume event none) ∧
    ∃ reopened, Journal.withFile L volume.view = .ok (reopened, volume.view) ∧
      RecordsOnce L identity (reopened.record volume event none)

theorem Mem.retainsOnce (h : Mem L log jnl) (hnd : (newest L log).Nodup)
    (hret : idn ∈ newest L log) : RetainsOnce jnl idn := by
  obtain ⟨k, -, hk, hrcs⟩ := h.records
  rw [RetainsOnce, hrcs, h.logical, map_entries_drop hk, count_reverse]
  exact count_eq_one_of_mem hnd hret

theorem Ready.recordsOnce (h : Ready L log jnl) (hview : Holds L log vol.view) (hL : 0 < L)
    (hext : eventFileBytes L = .ok ((L + 1) * watchdogEventRecordBytes))
    (hev : EventIdentity.fromEvent ev = .ok idn)
    (hroom : idn ∉ newest L log → log.length + 2 < u64Bound) :
    RecordsOnce L idn (jnl.record vol ev none) := by
  have honce : ∀ log jnl vol appended, Mem L log jnl → Holds L log vol.view →
      idn ∈ newest L log → RecordsOnce L idn (jnl, vol, .ok appended) := by
    intro log jnl vol appended hmem hview hret
    obtain ⟨opened, hopen, hmem', -⟩ := hview.withFile hL hext
    exact ⟨⟨_, rfl⟩, hmem.retainsOnce hview.distinct hret, opened, hopen,
      hmem'.retainsOnce hview.distinct hret⟩
  obtain ⟨jnl', vol', ⟨hret, heq, hmem, hview'⟩ | ⟨hnew, heq, hmem, hview'⟩⟩ :=
    h.record_healthy hview hL hev hroom
  · rw [heq]
    exact honce _ _ _ _ hmem hview' hret
  · rw [heq]
    exact honce _ _ _ _ hmem hview' (mem_newest_append hL log idn)

theorem Ready.retryable (h : Ready L log jnl) (hview : Holds L log vol.view) (hL : 0 < L)
    (hext : eventFileBytes L = .ok ((L + 1) * watchdogEventRecordBytes))
    (hev : EventIdentity.fromEvent ev = .ok idn)
    (hroom : idn ∉ newest L log → log.length + 2 < u64Bound) : Retryable L ev idn jnl vol := by
  obtain ⟨opened, hopen, hmem, -⟩ := hview.withFile hL hext
  exact ⟨h.recordsOnce hview hL hext hev hroom, opened, hopen,
    hmem.ready.recordsOnce hview hL hext hev hroom⟩

/-- An event that is not retained cannot be recorded while the next slot is not decoded. -/
theorem Ready.not_recordsOnce (h : Ready L log jnl)
    (hstu : slotAt vol.view (log.length % (L + 1)) = .error err)
    (hev : EventIdentity.fromEvent ev = .ok idn) (hnew : idn ∉ newest L log) :
    ¬RecordsOnce L idn (jnl.record vol ev none) := by
  rintro ⟨⟨appended, hok⟩, -⟩
  obtain ⟨res, hplan, ⟨refusal, rfl⟩ | ⟨rfl, other, hret, hoth⟩⟩ :=
    h.plan_stuck hstu 1
  · rw [Journal.record, hplan] at hok
    cases hok
  · cases hev.symm.trans hoth
    exact hnew hret

/-- RETRY: in every state of every run, an append whose write stops can be tried again exactly if
    the slot it tore has the old bytes or the new ones after all. -/
theorem torn_append_retryable_iff {capacity : ℕ} {s₀ s : JournalSys}
    {tr : List (JournalSys × JournalLabel × JournalOutput)} {journal planned : Journal}
    {volume : Volume UInt8} {event : SafetyEvent} {append : Append} {publication : Publication}
    {count : Fin watchdogEventRecordBytes} {error : WatchdogError}
    (hcreate : JournalSys.create capacity = .ok s₀) (hrun : Run JournalSys.step s₀ tr s)
    (hjournal : s.journal = some journal)
    (hplan : journal.plan 2 s.volume event (some ⟨.write publication count, error⟩) =
      (planned, volume, .ok (.append append))) :
    (journal.record s.volume event (some ⟨.write publication count, error⟩)).2.2 = .error error ∧
    (Retryable s.capacity event append.identity
        (journal.record s.volume event (some ⟨.write publication count, error⟩)).1
        (journal.record s.volume event (some ⟨.write publication count, error⟩)).2.1 ↔
      tornSlot (append.old (readSlot s.volume.view (journal.slotOf append.ordinal)) publication)
          (append.data publication) count ∈
        [append.old (readSlot s.volume.view (journal.slotOf append.ordinal)) publication,
          append.data publication]) := by
  have hinv : TornInv s := hrun.invariant TornInv (TornInv.create hcreate)
    fun s a t o hs hst => hs.step hst
  have hL := hinv.positive
  obtain ⟨-, log, hrea, hhd | ⟨refusal, hstu⟩⟩ := hinv.journal journal hjournal
  swap
  · -- a torn slot stops every call before its first write
    obtain ⟨res, hplan', hcase⟩ := hrea.plan_stuck hstu 1
    obtain ⟨-, hres⟩ := Prod.mk.inj (hplan'.symm.trans hplan)
    cases hres
    rcases hcase with ⟨_, hno⟩ | ⟨hno, -⟩
    · cases hno
    · cases hno
  obtain ⟨hmem, rfl, hev, hfits⟩ : Mem s.capacity log planned ∧ volume = s.volume ∧
      EventIdentity.fromEvent event = .ok append.identity ∧ append.Fits s.capacity log planned := by
    rcases hrea.plan hhd hL 1 with ⟨refusal, -, hplan'⟩ | ⟨settled, res, hmem, -, hplan', hpln⟩
    · rw [hplan] at hplan'
      cases hplan'
    · obtain ⟨rfl, hrest⟩ := Prod.mk.inj (hplan.symm.trans hplan')
      cases hrest
      cases hpln with
      | append hev hfits => exact ⟨hmem, rfl, hev, hfits⟩
  have hslot : planned.slotOf append.ordinal = log.length % (s.capacity + 1) := by
    rw [hfits.ordinal, hmem.slotOf_next]
  have hslot' : journal.slotOf append.ordinal = log.length % (s.capacity + 1) := by
    rw [Journal.slotOf, hrea.physical, hfits.ordinal, Nat.add_sub_cancel]
  rw [Journal.record, hplan, hslot']
  dsimp only
  have hpub := publish_published planned s.volume append (some ⟨.write publication count, error⟩)
  generalize planned.publish s.volume append (some ⟨.write publication count, error⟩) = out at hpub
  cases hpub with
  | done hno => exact absurd rfl (hno publication count error)
  | torn =>
    refine ⟨rfl, ?_⟩
    rw [hslot]
    obtain ⟨hold, hnew⟩ := hhd.torn_ok hL hfits publication count
    constructor
    · intro hret
      by_contra hnei
      simp only [mem_cons, not_mem_nil, or_false] at hnei
      cases hdec : decodeSlot (tornSlot
          (append.old (readSlot s.volume.view (log.length % (s.capacity + 1))) publication)
          (append.data publication) count) with
      | ok slot => exact hnei (torn_decoded hdec)
      | error refusal =>
        rw [← hhd.torn hfits publication count, ← slotAt, writeNext, ← Volume.view_write] at hdec
        exact (hmem.stoppedAt publication).not_recordsOnce hdec hev hfits.fresh hret.1
    · intro hsame
      simp only [mem_cons, not_mem_nil, or_false] at hsame
      rw [writeNext, ← Volume.view_write] at hold hnew
      rcases hsame with heq | heq
      · exact (hmem.stoppedAt publication).retryable (hold heq) hL hinv.extent hev
          fun _ => hfits.room
      · have hhd' := hnew heq
        split_ifs at hhd' with hlast
        · subst hlast
          exact (hmem.stoppedAt_committed _).retryable hhd' hL hinv.extent hev fun hno =>
            absurd (mem_newest_append hL log append.identity) hno
        · exact (hmem.stoppedAt publication).retryable hhd' hL hinv.extent hev fun _ => hfits.room

/-- A write that made no progress after this many bytes. -/
def stoppedWrite (publication : Publication) (count : Fin watchdogEventRecordBytes) : Fault :=
  ⟨.write publication count, storageIoError "safety event journal write made no progress"⟩

/-- The slot that an append tears has the old bytes or the new ones after all. -/
def harmless (s : JournalSys) (journal : Journal) (publication : Publication)
    (count : Fin watchdogEventRecordBytes) : Except WatchdogError Plan → Bool
  | .ok (.append append) => decide (tornSlot
      (append.old (readSlot s.volume.view (journal.slotOf append.ordinal)) publication)
      (append.data publication) count ∈
        [append.old (readSlot s.volume.view (journal.slotOf append.ordinal)) publication,
          append.data publication])
  | _ => false

def beforeMarker : Fin watchdogEventRecordBytes := ⟨5, by decide⟩

def insideOrdinal : Fin watchdogEventRecordBytes := ⟨16, by decide⟩

/-- The commit of a third event stops before its marker: the event can be recorded again. -/
theorem torn_append_retryable_before_marker : ∃ s₀ tr s journal planned volume append,
    JournalSys.create 2 = .ok s₀ ∧ Run JournalSys.step s₀ tr s ∧ tr.length = 2 ∧
    s.journal = some journal ∧
    journal.plan 2 s.volume (warningEvent 3) (some (stoppedWrite .committed beforeMarker)) =
      (planned, volume, .ok (.append append)) ∧
    Retryable s.capacity (warningEvent 3) append.identity
      (journal.record s.volume (warningEvent 3) (some (stoppedWrite .committed beforeMarker))).1
      (journal.record s.volume (warningEvent 3)
        (some (stoppedWrite .committed beforeMarker))).2.1 := by
  obtain ⟨s₀, tr, s, hcre, hrun, hlen, hchk⟩ := exists_journal_run 2
    [.record (warningEvent 1) none, .record (warningEvent 2) none]
    (fun tr s => tr.length = 2 ∧ s.journal.any fun journal =>
      harmless s journal .committed beforeMarker (journal.plan 2 s.volume (warningEvent 3)
        (some (stoppedWrite .committed beforeMarker))).2.2) (by decide +kernel)
  obtain ⟨journal, hjnl, hchk⟩ := (Option.any_eq_true _ _).mp hchk
  generalize hplan : journal.plan 2 s.volume (warningEvent 3)
    (some (stoppedWrite .committed beforeMarker)) = plan at hchk
  obtain ⟨planned, volume, res⟩ := plan
  rcases res with refusal | (_ | append)
  · cases hchk
  · cases hchk
  · exact ⟨s₀, tr, s, journal, planned, volume, append, hcre, hrun, hlen, hjnl,
      hplan, (torn_append_retryable_iff hcre hrun hjnl hplan).2.mpr (of_decide_eq_true hchk)⟩

/-- STUCK: the preparation of the first event stops inside its ordinal. The event is refused when it
    is recorded again, and the file does not open. -/
theorem torn_preparation_not_retryable : ∃ s₀ tr s, JournalSys.create 2 = .ok s₀ ∧
    Run JournalSys.step s₀ tr s ∧ tr.map (·.2) =
      [(.record (warningEvent 1) (some (stoppedWrite .preparing insideOrdinal)),
          .recorded (.error (stoppedWrite .preparing insideOrdinal).error)),
        (.record (warningEvent 1) none, .recorded (.error eventCorruptionError)),
        (.reopen, .failed eventCorruptionError)] := by
  exact exists_journal_run 2 [.record (warningEvent 1) (some (stoppedWrite .preparing insideOrdinal)),
    .record (warningEvent 1) none, .reopen] (fun tr _ => tr.map (·.2) = _) (by decide +kernel)

end Runs

end LetsInfer.Watchdog
