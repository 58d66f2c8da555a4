import LetsInfer.Watchdog.EventAppend

/-! @src core/watchdog/src/li_watchdog_event_journal.rs | name:Journal runs and crashes | scheme:journal

    Runs of a safety-event journal: events are recorded, a call may meet a fault, the machine may
    crash and the journal is opened again. The system remembers two things that no process does: the
    events that have a committed record in the file, in order, and the event whose append was last
    interrupted.

    As long as one interrupted commit is waiting for its synchronization and only other retained
    events are replayed, every file that a crash can leave opens, and retains exactly the newest
    committed events with or without the interrupted one. A second append must not begin there: it
    clears the oldest slot, and a crash can keep that and lose the commit before it. Nor must the
    interrupted event be recorded there: it counts as retained, and a crash can still lose it. -/

namespace LetsInfer.Watchdog
open Schemes List Option

structure JournalSys where
  capacity : ℕ
  volume : Volume UInt8
  journal : Option Journal
  committed : List EventIdentity
  interrupted : Option EventIdentity
  deriving DecidableEq

inductive JournalLabel where
  | record (event : SafetyEvent) (fault : Option Fault)
  | synchronize
  | reopen
  | crash (kept : List Bool)
  deriving DecidableEq

inductive JournalOutput where
  | recorded (result : Except WatchdogError Bool)
  | synchronized
  | opened
  | failed (error : WatchdogError)
  | crashed
  deriving DecidableEq

/-- The committed events after a call: one more if the file has a committed record of the next
    ordinal. -/
def observed (L : ℕ) (committed : List EventIdentity) (bytes : List UInt8) : List EventIdentity :=
  match slotAt bytes (committed.length % (L + 1)) with
  | .ok (.committed record) =>
    if record.ordinal = committed.length + 1 then committed ++ [record.identity] else committed
  | _ => committed

/-- The committed events after a crash: one less if the file has no committed record of the last
    ordinal any more. -/
def surviving (L : ℕ) (committed : List EventIdentity) (bytes : List UInt8) : List EventIdentity :=
  match slotAt bytes ((committed.length - 1) % (L + 1)) with
  | .ok (.committed record) =>
    if record.ordinal = committed.length then committed else committed.dropLast
  | _ => committed.dropLast

/-- An append that fails is interrupted; the next append settles it, and so does the answer that
    the interrupted event is retained. -/
def interruptedBy (event : SafetyEvent) (plan : Except WatchdogError Plan)
    (result : Except WatchdogError Bool) (before : Option EventIdentity) : Option EventIdentity :=
  match plan, result with
  | .ok (.append append), .error _ => some append.identity
  | .ok (.append _), .ok _ => none
  | .ok .replayed, _ => before.filter (· ∉ (EventIdentity.fromEvent event).toOption)
  | _, _ => before

/-- A committed record was written and not synchronized yet. -/
def CommitPending (volume : Volume UInt8) : Prop :=
  ∃ write ∈ volume.pending, getU8 write.data 10 = watchdogEventCommittedMarker

instance (volume : Volume UInt8) : Decidable (CommitPending volume) :=
  inferInstanceAs (Decidable (∃ write ∈ volume.pending, _))

/-- A write is done as a whole or not at all. -/
def Atomic : Option Fault → Prop
  | some ⟨.write _ count, _⟩ => count.val = 0
  | _ => True

instance : DecidablePred Atomic
  | some ⟨.write _ count, _⟩ => inferInstanceAs (Decidable (count.val = 0))
  | some ⟨.scan, _⟩ | some ⟨.read, _⟩ | some ⟨.settle, _⟩ | some ⟨.sync _, _⟩ | none => .isTrue trivial

namespace JournalSys

def create (capacity : ℕ) : Except WatchdogError JournalSys := do
  let (journal, bytes) ← Journal.withFile capacity []
  return ⟨capacity, Volume.ofBytes bytes, some journal, [], none⟩

def step (s : JournalSys) : JournalLabel → Option (JournalSys × JournalOutput)
  | .record event fault =>
    s.journal.map fun journal =>
      let plan := (journal.plan 2 s.volume event fault).2.2
      let (journal, volume, result) := journal.record s.volume event fault
      ({ s with
          volume
          journal := some journal
          committed := observed s.capacity s.committed volume.view
          interrupted := interruptedBy event plan result s.interrupted }, .recorded result)
  | .synchronize => s.journal.map fun _ => ({ s with volume := s.volume.sync }, .synchronized)
  | .reopen =>
    -- the file has its full extent since it was created, so that opening leaves it as it is
    match Journal.withFile s.capacity s.volume.view with
    | .ok (journal, _) => some ({ s with journal := some journal }, .opened)
    | .error error => some ({ s with journal := none }, .failed error)
  | .crash kept =>
    let bytes := s.volume.crash kept
    some ({ s with
      volume := Volume.ofBytes bytes
      journal := none
      committed := surviving s.capacity s.committed bytes }, .crashed)

/-- A write is done as a whole or not at all; and while a commit waits for its synchronization, only
    retained events other than the interrupted one are recorded again. -/
def Orderly (s : JournalSys) : JournalLabel → Prop
  | .record event fault =>
    Atomic fault ∧ (CommitPending s.volume →
      ∀ identity ∈ (EventIdentity.fromEvent event).toOption,
        identity ∈ newest s.capacity s.committed ∧ s.interrupted ≠ some identity)
  | _ => True

instance (s : JournalSys) : DecidablePred s.Orderly
  | .record _ _ => inferInstanceAs (Decidable (_ ∧ (_ → _)))
  | .synchronize | .reopen | .crash _ => .isTrue trivial

end JournalSys

variable {L : ℕ} {log base : List EventIdentity} {bytes : List UInt8} {identity : EventIdentity}
  {journal : Journal} {volume : Volume UInt8} {event : SafetyEvent} {fault : Option Fault}
  {s t : JournalSys} {result : Except WatchdogError Bool}

/-! ### What the file says about the committed events -/

section Observing

theorem observed_eq (h : Holds L log bytes) : observed L log bytes = log := by
  obtain ⟨slot, hslot, hnx⟩ := h.next
  unfold observed
  rw [hslot]
  cases hnx with
  | empty => rfl
  | preparing => rfl
  | oldest hlt hget =>
    dsimp only
    rw [if_neg (by omega)]

theorem Holds.last (h : Holds L (log ++ [identity]) bytes) (hL : 0 < L) :
    slotAt bytes (log.length % (L + 1)) = .ok (.committed ⟨log.length + 1, identity⟩) :=
  h.window log.length identity (by simp) (by rw [length_append, length_singleton]; omega)

theorem observed_append (h : Holds L (log ++ [identity]) bytes) (hL : 0 < L) :
    observed L log bytes = log ++ [identity] := by
  unfold observed
  rw [h.last hL]
  exact if_pos rfl

theorem surviving_eq (h : Holds L log bytes) (hL : 0 < L) : surviving L log bytes = log := by
  cases log using reverseRecOn with
  | nil =>
    unfold surviving
    split
    · split_ifs <;> rfl
    · rfl
  | append_singleton log identity =>
    have hlen : (log ++ [identity]).length = log.length + 1 := by simp
    unfold surviving
    rw [hlen, Nat.add_sub_cancel, h.last hL]
    exact if_pos rfl

theorem surviving_append (h : Holds L log bytes) : surviving L (log ++ [identity]) bytes = log := by
  have hlen : (log ++ [identity]).length = log.length + 1 := by simp
  obtain ⟨slot, hslot, hnx⟩ := h.next
  unfold surviving
  rw [hlen, Nat.add_sub_cancel, hslot]
  cases hnx with
  | empty | preparing => exact dropLast_concat
  | oldest hlt hget =>
    dsimp only
    rw [if_neg (by omega)]
    exact dropLast_concat

theorem eventPhysicalCapacity_ok {physical : ℕ} (h : eventPhysicalCapacity L = .ok physical) :
    physical = L + 1 ∧ 2 ≤ L := by
  unfold eventPhysicalCapacity at h
  split_ifs at h with hval
  exact ⟨(Except.ok.inj h).symm, hval.2⟩

theorem Holds.withFile (h : Holds L log bytes) (hL : 0 < L)
    (hext : eventFileBytes L = .ok ((L + 1) * watchdogEventRecordBytes)) :
    ∃ journal, Journal.withFile L bytes = .ok (journal, bytes) ∧ Mem L log journal ∧
      journal.publicationUncertain = false := by
  obtain ⟨k, hk, hkL, hload⟩ := h.load hL
  refine ⟨⟨L, L + 1, log.length + 1, (entries log).drop k, (newest L log).toFinset, false⟩, ?_,
    ⟨rfl, rfl, rfl, ⟨k, hk, hkL, rfl⟩, rfl⟩, rfl⟩
  obtain ⟨physical, hphy, -⟩ := bind_ok_iff.mp hext
  obtain ⟨rfl, -⟩ := eventPhysicalCapacity_ok hphy
  unfold Journal.withFile
  simp only [hphy, hext, ok_bind, h.length_eq, lt_irrefl, if_false, Nat.sub_self,
    replicate_zero, append_nil, hload, pure_eq_ok]

/-- A file that opens holds a list of events, and the journal has it in memory. -/
theorem holds_of_withFile {extended : List UInt8}
    (h : Journal.withFile L bytes = .ok (journal, extended)) :
    2 ≤ L ∧ eventFileBytes L = .ok extended.length ∧
      extended = bytes ++ replicate (extended.length - bytes.length) 0 ∧
      (∃ log, Holds L log extended) ∧ ∀ log, Holds L log extended → Mem L log journal := by
  obtain ⟨physical, hphy, h⟩ := bind_ok_iff.mp h
  obtain ⟨exp, hexp, h⟩ := bind_ok_iff.mp h
  obtain ⟨hfits, h⟩ := throw_if_ok_iff.mp h
  obtain ⟨loaded, hload, h⟩ := bind_ok_iff.mp h
  cases h
  obtain ⟨rfl, hL⟩ := eventPhysicalCapacity_ok hphy
  have hext : exp = (L + 1) * watchdogEventRecordBytes := by
    rw [eventFileBytes, hphy, ok_bind] at hexp
    obtain ⟨-, hexp⟩ := throw_if_ok_iff.mp hexp
    exact (Except.ok.inj hexp).symm
  have hlen : (bytes ++ replicate (exp - bytes.length) 0).length = exp := by
    rw [length_append, length_replicate]
    omega
  obtain ⟨log, hhd, -⟩ := holds_of_load (hlen.trans hext) (by omega) hload
  refine ⟨hL, by rw [hlen]; exact hexp, by rw [hlen], ⟨log, hhd⟩, fun log hhd => ?_⟩
  obtain ⟨k, hk, hkL, hldd⟩ := hhd.load (by omega)
  cases hload.symm.trans hldd
  exact ⟨rfl, rfl, rfl, ⟨k, hk, hkL, rfl⟩, rfl⟩

end Observing

/-! ### One call -/

section Calls

variable {append : Append}

/-- The last commit may still be lost in a crash. -/
structure Unsettled (L : ℕ) (base : List EventIdentity) (identity : EventIdentity)
    (volume : Volume UInt8) : Prop where
  images : ∀ bytes, volume.Image bytes → Holds L base bytes ∨ Holds L (base ++ [identity]) bytes
  view : Holds L (base ++ [identity]) volume.view
  pending : CommitPending volume

/-- The commit of an append: the file holds one event more, unless a crash takes the commit away. -/
theorem Quiet.commit (h : Quiet L log volume) (hL : 0 < L) (hfits : append.Fits L log journal) :
    Unsettled L log append.identity
      (volume.write (log.length % (L + 1) * watchdogEventRecordBytes)
        (append.data .committed).bytes) := by
  have hcmt : ∀ bytes, Holds L log bytes →
      Holds L (log ++ [append.identity]) (writeNext L log bytes (append.data .committed).bytes) := by
    intro bytes hhd
    refine hhd.commit hL (append.data .committed).length_eq.le ?_ hfits.fresh hfits.room
    rw [slotAt_writeNext bytes hhd.length_eq, hfits.decode_committed]
  refine ⟨fun bytes hbs => ?_, ?_, ⟨_, mem_concat_self, ?_⟩⟩
  · rcases Volume.image_write.mp hbs with himg | ⟨image, himg, rfl⟩
    · exact .inl (h bytes himg)
    · exact .inr (hcmt image (h image himg))
  · rw [Volume.view_write]
    exact hcmt _ h.view
  · have hroom := hfits.room
    exact (encodeRecord_fields append.ordinal append.identity watchdogEventCommittedMarker
      (by rw [hfits.ordinal]; omega)).2.2.2.2.2.2.2.1

/-- How a call of `record` ends: the plan it had, and the journal, the file and the result. -/
inductive Recorded (L : ℕ) (log : List EventIdentity) (volume : Volume UInt8) (event : SafetyEvent)
    (fault : Option Fault) :
    Except WatchdogError Plan → Journal × Volume UInt8 × Except WatchdogError Bool → Prop
  | refused {journal : Journal} {refusal error : WatchdogError} : Ready L log journal →
      (fault = none → ∀ identity, EventIdentity.fromEvent event = .ok identity →
        identity ∉ newest L log ∧ u64Bound ≤ log.length + 2) →
      Recorded L log volume event fault (.error refusal) (journal, volume, .error error)
  | replayed {journal : Journal} {identity : EventIdentity} : Mem L log journal →
      EventIdentity.fromEvent event = .ok identity → identity ∈ newest L log →
      Recorded L log volume event fault (.ok .replayed) (journal, volume, .ok false)
  | stopped {settled journal : Journal} {append : Append} {volume' : Volume UInt8}
      {error : WatchdogError} : fault ≠ none → append.Fits L log settled → Ready L log journal →
      Quiet L log volume' →
      Recorded L log volume event fault (.ok (.append append)) (journal, volume', .error error)
  | unsettled {settled journal : Journal} {append : Append} {volume' : Volume UInt8}
      {error : WatchdogError} : fault ≠ none → append.Fits L log settled →
      Ready L (log ++ [append.identity]) journal → Unsettled L log append.identity volume' →
      Recorded L log volume event fault (.ok (.append append)) (journal, volume', .error error)
  | appended {settled journal : Journal} {append : Append} {volume' : Volume UInt8} :
      EventIdentity.fromEvent event = .ok append.identity → append.Fits L log settled →
      Mem L (log ++ [append.identity]) journal → Quiet L (log ++ [append.identity]) volume' →
      Recorded L log volume event fault (.ok (.append append)) (journal, volume', .ok true)

/-- A journal that stopped at its commit is to read the file again, whatever the file holds. -/
theorem Mem.stoppedAt_committed (h : Mem L log journal) (found : List EventIdentity) :
    Ready L found (journal.stoppedAt .committed) := ⟨h.logical, h.physical, fun hno => by cases hno⟩

theorem Mem.stoppedAt (h : Mem L log journal) (pub : Publication) :
    Ready L log (journal.stoppedAt pub) := by
  cases pub with
  | clear => exact h.ready
  | preparing => exact h.ready
  | committed => exact h.stoppedAt_committed log

/-- STEP: a call whose writes are atomic, where an append begins only on a quiet file. -/
theorem Ready.record (h : Ready L log journal) (hL : 0 < L) (hview : Holds L log volume.view)
    (hato : Atomic fault)
    (hqt : Quiet L log volume ∨ ∀ identity, EventIdentity.fromEvent event = .ok identity →
      identity ∈ newest L log) :
    Recorded L log volume event fault (journal.plan 2 volume event fault).2.2
      (journal.record volume event fault) := by
  rcases h.plan hview hL 1 with ⟨e, hscan, hplan⟩ | ⟨settled, result, hmem, hcer, hplan, hpln⟩
  · rw [Journal.record, hplan]
    exact .refused h fun hnon => by rw [hnon] at hscan; cases hscan
  rw [Journal.record, hplan]
  cases hpln with
  | refused hno =>
    exact .refused hmem.ready fun hnon => hno (by rw [hnon]; rfl)
  | replayed hev hret => exact .replayed hmem hev hret
  | @append append hev hfits =>
    have hqt : Quiet L log volume :=
      hqt.resolve_right fun hall => hfits.fresh (hall _ hev)
    have hslot : settled.slotOf append.ordinal = log.length % (L + 1) := by
      rw [hfits.ordinal, hmem.slotOf_next]
    have hbef := hqt.before hfits
    dsimp only
    generalize hout : settled.publish volume append fault = out
    have hpub := publish_published settled volume append fault
    rw [hout] at hpub
    cases hpub with
    | @torn pub n e =>
      rw [hslot, show n.val = 0 from hato, take_zero]
      refine .stopped (by simp) hfits (hmem.stoppedAt pub) fun bytes hbs => ?_
      rcases Volume.image_write.mp hbs with himg | ⟨image, himg, rfl⟩
      · exact hbef pub bytes himg
      · rw [splice_nil]
        exact hbef pub image himg
    | @unsynchronized pub e =>
      rw [hslot]
      by_cases hne : pub = .committed
      · subst hne
        exact .unsettled (by simp) hfits (hmem.stoppedAt_committed _)
          ((hbef .committed).commit hL hfits)
      · exact .stopped (by simp) hfits (hmem.stoppedAt pub) ((hbef pub).write hfits hne)
    | done hwri hsync =>
      rw [hslot]
      exact .appended hev hfits (hmem.appended hfits)
        (quiet_ofBytes ((hbef .committed).commit hL hfits).view)

end Calls

/-! ### The invariant of orderly runs -/

/-- An interrupted event is not retained, or it is the newest and was not retained before. -/
def Interrupted (L : ℕ) (committed : List EventIdentity) (identity : EventIdentity) : Prop :=
  identity ∉ newest L committed ∨
    ∃ base, committed = base ++ [identity] ∧ identity ∉ newest L base

theorem mem_newest_append (hL : 0 < L) (log : List EventIdentity)
    (identity : EventIdentity) : identity ∈ newest L (log ++ [identity]) := by
  rw [newest, drop_append_of_le_length (by simp; omega)]
  exact mem_concat_self

theorem Interrupted.before
    (h : Interrupted L (base ++ [identity]) identity) (hL : 0 < L) : identity ∉ newest L base := by
  rcases h with hnot | ⟨base', heq, hnot⟩
  · exact absurd (mem_newest_append hL base identity) hnot
  · rwa [append_cancel_right heq]

structure JournalInv (s : JournalSys) : Prop where
  positive : 0 < s.capacity
  extent : eventFileBytes s.capacity = .ok ((s.capacity + 1) * watchdogEventRecordBytes)
  files : Quiet s.capacity s.committed s.volume ∨ ∃ base identity,
    s.committed = base ++ [identity] ∧ s.interrupted = some identity ∧
      Unsettled s.capacity base identity s.volume
  journal : ∀ journal, s.journal = some journal → Ready s.capacity s.committed journal
  interrupted : ∀ identity, s.interrupted = some identity →
    Interrupted s.capacity s.committed identity

section Steps

variable {label : JournalLabel} {o : JournalOutput}

section

variable (h : JournalInv s)
include h

theorem JournalInv.view : Holds s.capacity s.committed s.volume.view := by
  rcases h.files with hqt | ⟨base, identity, hcom, -, huns⟩
  · exact hqt.view
  · rw [hcom]
    exact huns.view

/-- A call in an orderly run is one that its spec describes. -/
theorem JournalInv.recorded (hjnl : s.journal = some journal)
    (hody : s.Orderly (.record event fault)) :
    Recorded s.capacity s.committed s.volume event fault (journal.plan 2 s.volume event fault).2.2
      (journal.record s.volume event fault) := by
  refine (h.journal journal hjnl).record h.positive h.view hody.1 ?_
  rcases h.files with hqt | ⟨base, identity, -, -, huns⟩
  · exact .inl hqt
  · refine .inr fun identity hev => (hody.2 huns.pending identity ?_).1
    rw [hev]
    rfl

/-- STEP: recording an event in an orderly way. -/
theorem JournalInv.record {plan : Except WatchdogError Plan} (hody : s.Orderly (.record event fault))
    (hrec : Recorded s.capacity s.committed s.volume event fault plan (journal, volume, result)) :
    JournalInv { s with
      volume
      journal := some journal
      committed := observed s.capacity s.committed volume.view
      interrupted := interruptedBy event plan result s.interrupted } := by
  cases hrec with
  | refused hrea hno =>
    rw [observed_eq h.view]
    refine ⟨h.positive, h.extent, h.files, ?_, h.interrupted⟩
    rintro _ ⟨⟩
    exact hrea
  | replayed hmem hev hret =>
    rw [observed_eq h.view]
    refine ⟨h.positive, h.extent, ?_, ?_, ?_⟩
    · -- A pending commit is that of the interrupted event, which is not the one recorded.
      refine h.files.imp_right ?_
      rintro ⟨base, identity, hcom, hsome, huns⟩
      refine ⟨base, identity, hcom, filter_eq_some_iff.mpr ⟨hsome, ?_⟩, huns⟩
      exact decide_eq_true fun hmem => (hody.2 huns.pending identity hmem).2 hsome
    · rintro _ ⟨⟩
      exact hmem.ready
    · exact fun identity hsome => h.interrupted identity (filter_eq_some_iff.mp hsome).1
  | stopped hflt hfits hrea hqt =>
    rw [observed_eq hqt.view]
    refine ⟨h.positive, h.extent, .inl hqt, ?_, ?_⟩
    · rintro _ ⟨⟩
      exact hrea
    · rintro _ ⟨⟩
      exact .inl hfits.fresh
  | unsettled hflt hfits hrea huns =>
    rw [observed_append huns.view h.positive]
    refine ⟨h.positive, h.extent, .inr ⟨_, _, rfl, rfl, huns⟩, ?_, ?_⟩
    · rintro _ ⟨⟩
      exact hrea
    · rintro _ ⟨⟩
      exact .inr ⟨_, rfl, hfits.fresh⟩
  | appended hev hfits hmem hqt =>
    rw [observed_append hqt.view h.positive]
    refine ⟨h.positive, h.extent, .inl hqt, ?_, ?_⟩
    · rintro _ ⟨⟩
      exact hmem.ready
    · rintro _ ⟨⟩

/-- Every file that a crash can leave holds the committed events, or all but the interrupted one. -/
theorem JournalInv.found (himg : s.volume.Image bytes) :
    ∃ found, (found = s.committed ∨ ∃ identity, s.interrupted = some identity ∧
        s.committed = found ++ [identity]) ∧ Holds s.capacity found bytes ∧
      ∀ identity, s.interrupted = some identity → Interrupted s.capacity found identity := by
  rcases h.files with hqt | ⟨base, identity, hcom, hsome, huns⟩
  · exact ⟨s.committed, .inl rfl, hqt bytes himg, h.interrupted⟩
  · rcases huns.images bytes himg with hbase | hwho
    · refine ⟨base, .inr ⟨identity, hsome, hcom⟩, hbase, fun other hoth => ?_⟩
      cases hsome.symm.trans hoth
      have hint := h.interrupted identity hsome
      rw [hcom] at hint
      exact .inl (hint.before h.positive)
    · exact ⟨s.committed, .inl rfl, hcom ▸ hwho, h.interrupted⟩

/-- STEP: after a crash the file holds what is left of the committed events. -/
theorem JournalInv.crash (kept : List Bool) :
    JournalInv { s with
      volume := Volume.ofBytes (s.volume.crash kept)
      journal := none
      committed := surviving s.capacity s.committed (s.volume.crash kept) } := by
  obtain ⟨found, hfd, hhd, hint⟩ := h.found (s.volume.image_crash kept)
  have hleft : surviving s.capacity s.committed (s.volume.crash kept) = found := by
    rcases hfd with rfl | ⟨identity, -, hcom⟩
    · exact surviving_eq hhd h.positive
    · rw [hcom]
      exact surviving_append hhd
  rw [hleft]
  refine ⟨h.positive, h.extent, .inl (quiet_ofBytes hhd), ?_, hint⟩
  rintro _ ⟨⟩

theorem JournalInv.step (hody : s.Orderly label)
    (hst : s.step label = some (t, o)) : JournalInv t := by
  cases label with
  | record event fault =>
    obtain ⟨journal, hjnl, hout⟩ := map_eq_some_iff.mp hst
    obtain ⟨rfl, -⟩ := Prod.mk.inj hout
    exact h.record hody (h.recorded hjnl hody)
  | synchronize =>
    obtain ⟨journal, hjnl, hout⟩ := map_eq_some_iff.mp hst
    obtain ⟨rfl, -⟩ := Prod.mk.inj hout
    exact ⟨h.positive, h.extent, .inl (quiet_ofBytes h.view), h.journal, h.interrupted⟩
  | reopen =>
    obtain ⟨journal, hopen, hmem, -⟩ := h.view.withFile h.positive h.extent
    simp only [JournalSys.step, hopen] at hst
    obtain ⟨rfl, -⟩ := Prod.mk.inj (Option.some.inj hst)
    refine ⟨h.positive, h.extent, h.files, ?_, h.interrupted⟩
    rintro _ ⟨⟩
    exact hmem.ready
  | crash kept =>
    obtain ⟨rfl, -⟩ := Prod.mk.inj (Option.some.inj hst)
    exact h.crash kept

end

theorem holds_zero (L : ℕ) : Holds L [] (replicate ((L + 1) * watchdogEventRecordBytes) 0) := by
  have hlen : (replicate ((L + 1) * watchdogEventRecordBytes) (0 : UInt8)).length =
      (L + 1) * watchdogEventRecordBytes := length_replicate
  have hemp : ∀ i < L + 1, slotAt (replicate ((L + 1) * watchdogEventRecordBytes) 0) i =
      .ok .empty := by
    intro i hi
    have hslot : readSlot (replicate ((L + 1) * watchdogEventRecordBytes) 0) i =
        Bytes.zero watchdogEventRecordBytes := by
      have hfits := slot_fits hlen hi
      rw [hlen] at hfits
      ext1
      rw [readSlot_bytes hlen hi, block, drop_replicate, take_replicate, Nat.min_eq_left (by omega)]
      rfl
    rw [slotAt, hslot, decodeSlot_zero]
  refine ⟨hlen, ?_, fun i _ hi => hemp i (by omega), ⟨.empty, hemp _ (next_lt L []), .empty⟩,
    by simp [newest], by decide⟩
  rintro o identity ⟨⟩

theorem JournalInv.create (h : JournalSys.create L = .ok s) :
    JournalInv s ∧ s.capacity = L ∧ s.committed = [] ∧ s.interrupted = none := by
  obtain ⟨⟨journal, bytes⟩, hopen, h⟩ := bind_ok_iff.mp h
  cases h
  obtain ⟨hL, hext, hzero, ⟨log, hhd⟩, hmem⟩ := holds_of_withFile hopen
  rw [hhd.length_eq] at hext hzero
  have hbla : Holds L [] bytes := by
    rw [hzero]
    exact holds_zero L
  refine ⟨⟨two_pos.trans_le hL, hext, .inl (quiet_ofBytes hbla), ?_, ?_⟩, rfl, rfl, rfl⟩
  · rintro _ ⟨⟩
    exact (hmem [] hbla).ready
  · rintro _ ⟨⟩

end Steps

/-! ### Recovery -/

/-- The event was appended exactly once: it was new and is now the newest, or it was the newest
    already; and every file that a crash can then leave opens with the same events retained. -/
def AppendedOnce (L : ℕ) (found : List EventIdentity) (identity : EventIdentity)
    (outcome : Journal × Volume UInt8 × Except WatchdogError Bool) : Prop :=
  ∃ base, (found = base ∧ outcome.2.2 = .ok true ∨
      found = base ++ [identity] ∧ outcome.2.2 = .ok false) ∧
    outcome.1.identities = (newest L (base ++ [identity])).toFinset ∧
    (newest L (base ++ [identity])).count identity = 1 ∧
    ∀ bytes, outcome.2.1.Image bytes → ∃ journal, Journal.withFile L bytes = .ok (journal, bytes) ∧
      journal.identities = outcome.1.identities

/-- A file that opens: which events it has, and what recording the interrupted event again does. -/
structure Recovers (L : ℕ) (committed : List EventIdentity) (interrupted : Option EventIdentity)
    (bytes : List UInt8) (found : List EventIdentity) (journal : Journal) : Prop where
  opens : Journal.withFile L bytes = .ok (journal, bytes)
  found_eq : found = committed ∨ ∃ identity, interrupted = some identity ∧
    committed = found ++ [identity]
  retained : journal.identities = (newest L found).toFinset
  distinct : (newest L found).Nodup
  again : ∀ event identity, interrupted = some identity →
    EventIdentity.fromEvent event = .ok identity → found.length + 2 < u64Bound →
    AppendedOnce L found identity (journal.record (Volume.ofBytes bytes) event none)

section Recovery

theorem appendedOnce_of_quiet {found : List EventIdentity}
    {out : Journal × Volume UInt8 × Except WatchdogError Bool} (hL : 0 < L)
    (hext : eventFileBytes L = .ok ((L + 1) * watchdogEventRecordBytes))
    (hcase : found = base ∧ out.2.2 = .ok true ∨
      found = base ++ [identity] ∧ out.2.2 = .ok false) (hmem : Mem L (base ++ [identity]) out.1)
    (hqt : Quiet L (base ++ [identity]) out.2.1) : AppendedOnce L found identity out := by
  refine ⟨base, hcase, hmem.identities, ?_, fun bytes himg => ?_⟩
  · exact count_eq_one_of_mem hqt.view.distinct (mem_newest_append hL base identity)
  · obtain ⟨journal, hopen, hmem', -⟩ := (hqt bytes himg).withFile hL hext
    exact ⟨journal, hopen, by rw [hmem'.identities, hmem.identities]⟩

/-- Recording an interrupted event again where no commit can be lost. -/
theorem Ready.again {found : List EventIdentity} (h : Ready L found journal)
    (hqt : Quiet L found volume) (hL : 0 < L)
    (hext : eventFileBytes L = .ok ((L + 1) * watchdogEventRecordBytes))
    (hev : EventIdentity.fromEvent event = .ok identity) (hint : Interrupted L found identity)
    (hroom : found.length + 2 < u64Bound) :
    AppendedOnce L found identity (journal.record volume event none) := by
  have hrec : Recorded L found volume event none _ (journal.record volume event none) :=
    h.record hL hqt.view trivial (.inl hqt)
  generalize journal.record volume event none = outcome at hrec
  generalize (journal.plan 2 volume event none).2.2 = plan at hrec
  cases hrec with
  | refused hrea hno =>
    have hfull := (hno rfl identity hev).2
    omega
  | replayed hmem hoth hret =>
    cases hev.symm.trans hoth
    obtain ⟨base, rfl, -⟩ := hint.resolve_left (not_not.mpr hret)
    exact appendedOnce_of_quiet hL hext (.inr ⟨rfl, rfl⟩) hmem hqt
  | stopped hflt | unsettled hflt => exact absurd rfl hflt
  | appended hoth hfits hmem hqt' =>
    cases hev.symm.trans hoth
    exact appendedOnce_of_quiet hL hext (.inl ⟨rfl, rfl⟩) hmem hqt'

/-- Every file that a crash can leave recovers. -/
theorem JournalInv.recovers (h : JournalInv s) (himg : s.volume.Image bytes) :
    ∃ found journal, Recovers s.capacity s.committed s.interrupted bytes found journal := by
  obtain ⟨found, hfd, hhd, hint⟩ := h.found himg
  obtain ⟨journal, hopen, hmem, -⟩ := hhd.withFile h.positive h.extent
  exact ⟨found, journal, hopen, hfd, hmem.identities, hhd.distinct,
    fun event identity hsome hev hroom =>
      hmem.ready.again (quiet_ofBytes hhd) h.positive h.extent hev (hint identity hsome) hroom⟩

/-- What a call reports of an event: `true` when it was appended, `false` when it was retained; and
    no crash takes a reported event away, which is not the interrupted one any more. -/
def Reports (s t : JournalSys) (event : SafetyEvent) (result : Except WatchdogError Bool) : Prop :=
  ∀ appended, result = .ok appended → ∃ identity, EventIdentity.fromEvent event = .ok identity ∧
    t.interrupted ≠ some identity ∧
    if appended then t.committed = s.committed ++ [identity]
    else t.committed = s.committed ∧ identity ∈ newest s.capacity s.committed

theorem JournalInv.reports (h : JournalInv s) (hody : s.Orderly (.record event fault))
    (hst : s.step (.record event fault) = some (t, .recorded result)) :
    Reports s t event result := by
  obtain ⟨journal, hjnl, hout⟩ := map_eq_some_iff.mp hst
  have hrec := h.recorded hjnl hody
  generalize journal.record s.volume event fault = outcome at hrec hout
  generalize (journal.plan 2 s.volume event fault).2.2 = plan at hrec hout
  obtain ⟨rfl, hres⟩ := Prod.mk.inj hout
  obtain rfl := JournalOutput.recorded.inj hres
  intro appended hok
  cases hrec with
  | refused hrea hno => cases hok
  | @replayed _ identity hmem hev hret =>
    cases hok
    refine ⟨identity, hev, fun hsome => ?_, observed_eq h.view, hret⟩
    have hnot := (filter_eq_some_iff.mp hsome).2
    rw [hev] at hnot
    exact of_decide_eq_true hnot rfl
  | stopped hflt => cases hok
  | unsettled hflt => cases hok
  | @appended _ _ append _ hev hfits hmem hqt =>
    cases hok
    exact ⟨append.identity, hev, nofun, observed_append hqt.view h.positive⟩

/-- CRASH CONSISTENCY: in every orderly run every file that a crash can leave opens, with exactly the
    newest committed events retained, the interrupted one there or not; the interrupted event is
    appended exactly once when it is recorded again, after a crash or once its commit is
    synchronized; and every report is true. -/
theorem orderly_run_recovers {capacity : ℕ} {s₀ s : JournalSys}
    {tr : List (JournalSys × JournalLabel × JournalOutput)}
    (hcreate : JournalSys.create capacity = .ok s₀) (hrun : Run JournalSys.step s₀ tr s)
    (horderly : ∀ e ∈ tr, e.1.Orderly e.2.1) :
    (∀ bytes, s.volume.Image bytes →
      ∃ found journal, Recovers s.capacity s.committed s.interrupted bytes found journal) ∧
    (∀ journal event identity, s.journal = some journal → ¬CommitPending s.volume →
      s.interrupted = some identity → EventIdentity.fromEvent event = .ok identity →
      s.committed.length + 2 < u64Bound →
      AppendedOnce s.capacity s.committed identity (journal.record s.volume event none)) ∧
    ∀ e ∈ tr, ∀ event fault result t, e.2 = (.record event fault, .recorded result) →
      e.1.step e.2.1 = some (t, e.2.2) → Reports e.1 t event result := by
  have hstr := (JournalInv.create hcreate).1
  have hst : ∀ s a t o, JournalInv s → s.Orderly a → s.step a = some (t, o) → JournalInv t :=
    fun s a t o hinv hord hmove => hinv.step hord hmove
  have hend := hrun.invariant_of _ _ hstr horderly hst
  refine ⟨fun bytes => hend.recovers, fun journal event identity hjnl hset hsome hev hroom => ?_, ?_⟩
  · have hqt := hend.files.resolve_right fun ⟨_, _, _, _, huns⟩ => hset huns.pending
    exact (hend.journal journal hjnl).again hqt hend.positive hend.extent hev
      (hend.interrupted identity hsome) hroom
  · rintro ⟨before, label, output⟩ he event fault result t ⟨⟩ hmove
    obtain ⟨hinv, -⟩ := hrun.step_of _ _ hstr horderly hst _ he
    exact hinv.reports (horderly _ he) hmove

def warningEvent (sequence : UInt64) : SafetyEvent :=
  ⟨"protection.warning", "host_memory_warning", 1, replicate 32 48, sequence, none, none⟩

/-- A run over a new file, computed by `exec`, with what a check says of it. -/
theorem exists_journal_run (cap : ℕ) (labels : List JournalLabel)
    (P : List (JournalSys × JournalLabel × JournalOutput) → JournalSys → Prop)
    [∀ tr s, Decidable (P tr s)] (h : ((JournalSys.create cap).toOption.any fun s₀ =>
      (exec JournalSys.step s₀ labels).any fun r => P r.1 r.2) = true) :
    ∃ s₀ tr s, JournalSys.create cap = .ok s₀ ∧ Run JournalSys.step s₀ tr s ∧ P tr s := by
  obtain ⟨s₀, hcre, hexec⟩ := (Option.any_eq_true _ _).mp h
  obtain ⟨tr, s, hrun, hP⟩ := Run.exists_of_exec _ _ _ P hexec
  exact ⟨s₀, tr, s, toOption_eq_some.mp hcre, hrun, hP⟩

/-- The commit of a third event is interrupted, a retained one is replayed and a crash takes the
    commit away; the event can be recorded again. -/
theorem orderly_run_recovers_lost_commit : ∃ s₀ tr s journal identity,
    JournalSys.create 2 = .ok s₀ ∧ Run JournalSys.step s₀ tr s ∧ (∀ e ∈ tr, e.1.Orderly e.2.1) ∧
    tr.length = 6 ∧ s.committed.length = 2 ∧ s.journal = some journal ∧
    (∀ bytes, s.volume.Image bytes →
      ∃ found journal, Recovers s.capacity s.committed s.interrupted bytes found journal) ∧
    AppendedOnce s.capacity s.committed identity (journal.record s.volume (warningEvent 3) none) := by
  obtain ⟨s₀, tr, s, hcre, hrun, hody, hlen, hcom, hset, hjnl, hint⟩ :=
    exists_journal_run 2
      [.record (warningEvent 1) none, .record (warningEvent 2) none,
        .record (warningEvent 3) (some ⟨.sync .committed, storageIoError "sync failed"⟩),
        .record (warningEvent 2) none, .crash [false], .reopen]
      (fun tr s => (∀ e ∈ tr, e.1.Orderly e.2.1) ∧ tr.length = 6 ∧ s.committed.length = 2 ∧
        ¬CommitPending s.volume ∧ s.journal.isSome = true ∧ s.interrupted.any (fun identity =>
          EventIdentity.fromEvent (warningEvent 3) = .ok identity) = true) (by decide +kernel)
  obtain ⟨journal, hjnl⟩ := isSome_iff_exists.mp hjnl
  obtain ⟨identity, hsome, hev⟩ := (Option.any_eq_true _ _).mp hint
  obtain ⟨hrec, hagain, -⟩ := orderly_run_recovers hcre hrun hody
  exact ⟨s₀, tr, s, journal, identity, hcre, hrun, hody, hlen, hcom, hjnl, hrec,
    hagain journal _ identity hjnl hset hsome (of_decide_eq_true hev) (by rw [hcom]; decide)⟩

/-- The third event is not synchronized when it is committed, nor the slot that the fourth clears. -/
def lostWindow : List (JournalLabel × JournalOutput) :=
  [(.record (warningEvent 1) none, .recorded (.ok true)),
    (.record (warningEvent 2) none, .recorded (.ok true)),
    (.record (warningEvent 3) (some ⟨.sync .committed, storageIoError "sync failed"⟩),
      .recorded (.error (storageIoError "sync failed"))),
    (.record (warningEvent 4) (some ⟨.sync .clear, storageIoError "sync failed"⟩),
      .recorded (.error (storageIoError "sync failed")))]

/-- LOST WINDOW: the commit of a third event is not synchronized, and recording a fourth clears the
    oldest slot. A crash that keeps the clearing and loses the commit leaves a file that no journal
    opens, though every write was atomic. -/
theorem crash_after_unsynchronized_commit : ∃ s₀ tr s bytes, JournalSys.create 2 = .ok s₀ ∧
    Run JournalSys.step s₀ tr s ∧ tr.map (·.2) = lostWindow ∧
    s.volume.Image bytes ∧ Journal.withFile 2 bytes = .error eventCorruptionError := by
  obtain ⟨s₀, tr, s, hcre, hrun, hlbs, hcor⟩ := exists_journal_run 2 (lostWindow.map (·.1))
    (fun tr s => tr.map (·.2) = lostWindow ∧
      Journal.withFile 2 (s.volume.crash [false, true]) = .error eventCorruptionError)
    (by decide +kernel)
  exact ⟨s₀, tr, s, _, hcre, hrun, hlbs, s.volume.image_crash [false, true], hcor⟩

end Recovery

end LetsInfer.Watchdog
