import LetsInfer.Audit.Chain

/-! @src core/audit/src/li_audit_manager.rs, li_audit_cryptography.rs | name:Tamper evidence
      | scheme:induction

    Two ledgers that the verifier accepts and that end in the same hash hold the same events. The
    argument runs backwards along the chain: equal hashes have equal inputs, equal inputs are equal
    canonical JSON, and that names every field of an event that its place in the chain does not
    fix, the hash of its predecessor among them. -/

namespace LetsInfer.Audit
open Schemes Interface List

variable {sha : Octets → Bytes 32} {mgr mgr' : AuditManager}

/-! ### Canonical bytes determine an event -/

theorem optionalString_inj {v v' : Option Octets}
    (h : optionalString v = optionalString v') : v = v' := by
  cases v with
  | none =>
    cases v' with
    | none => rfl
    | some text' => cases h
  | some text =>
    cases v' with
    | none => cases h
    | some text' => rw [JsonScalar.string.inj h]

theorem checked_option_inj {check : Octets → Bool} {v v' : Option (Checked check)}
    (h : optionalString (v.map (·.asStr)) = optionalString (v'.map (·.asStr))) : v = v' := by
  have hmap := optionalString_inj h
  cases v with
  | none =>
    cases v' with
    | none => rfl
    | some text' => cases hmap
  | some text =>
    cases v' with
    | none => cases hmap
    | some text' => rw [Checked.ext (Option.some.inj hmap)]

theorem AuditActorType.asStr_inj {kind kind' : AuditActorType} (h : kind.asStr = kind'.asStr) :
    kind = kind' := by
  revert h
  cases kind <;> cases kind' <;> decide

theorem AuditOriginInterface.asStr_inj {interface interface' : AuditOriginInterface}
    (h : interface.asStr = interface'.asStr) : interface = interface' := by
  revert h
  cases interface <;> cases interface' <;> decide

theorem AuditOutcome.asStr_inj {out out' : AuditOutcome}
    (h : out.asStr = out'.asStr) : out = out' := by
  revert h
  cases out <;> cases out' <;> decide

variable {ev ev' : AuditEvent} {es es' : List AuditLedgerEntry}

section

variable (h : canonicalEventBytes ev = canonicalEventBytes ev')
include h

theorem eventFields_of_canonical : eventFields ev = eventFields ev' :=
  jsonObject_inj (append_cancel_right h) rfl

/-- INJECTIVE: an event is determined by its canonical bytes, its place and its hash. -/
theorem event_eq_of_canonical
    (hseq : ev.sequence = ev'.sequence) (hhash : ev.eventHash = ev'.eventHash) : ev = ev' := by
  have hfds := eventFields_of_canonical h
  simp only [eventFields, List.cons.injEq, Prod.mk.injEq, JsonScalar.string.injEq,
    JsonScalar.number.injEq, true_and, and_true] at hfds
  obtain ⟨hact, hacr, hkind, haft, hbef, hcor, hid, hnode, hint, hori,
    hout, hprv, hrea, htgt, htime⟩ := hfds
  exact AuditEvent.ext hseq (Checked.ext hid) (Checked.ext hcor) (AuditUnixNanoseconds.ext htime)
    (Checked.ext hnode) (AuditActor.ext (AuditActorType.asStr_inj hkind) (Checked.ext hacr))
    (AuditOrigin.ext (Checked.ext hori) (AuditOriginInterface.asStr_inj hint)) (Checked.ext hact)
    (Checked.ext htgt) (checked_option_inj hbef) (checked_option_inj haft)
    (AuditOutcome.asStr_inj hout) (checked_option_inj hrea) (Checked.ext hprv) hhash

end

/-! ### Equal hashes -/

def eventInput (event : AuditEvent) : Octets :=
  (decodeSha256 event.previousHash).toOption.getD [] ++ canonicalEventBytes event

theorem eventSha256_eq (ev : AuditEvent) :
    eventSha256 sha ev = .ok (digestText (sha (eventInput ev))) := by
  obtain ⟨prev, hdec, hhash⟩ := eventSha256_ok sha ev
  rw [hhash, eventInput, hdec]
  rfl

theorem digestText_inj {dig dig' : Bytes 32} (h : digestText dig = digestText dig') :
    dig = dig' := by
  have htext : hexEncode dig.bytes = hexEncode dig'.bytes := congrArg Checked.asStr h
  have hbs := congrArg hexDecode htext
  rw [hexDecode_hexEncode, hexDecode_hexEncode] at hbs
  exact Bytes.ext (Option.some.inj hbs)

theorem eventInput_inj (h : eventInput ev = eventInput ev') :
    canonicalEventBytes ev = canonicalEventBytes ev' ∧ ev.previousHash = ev'.previousHash := by
  obtain ⟨prev, hdec, hlen, htext⟩ := decodeSha256_ok ev.previousHash
  obtain ⟨prev', hdec', hlen', htext'⟩ := decodeSha256_ok ev'.previousHash
  rw [eventInput, eventInput, hdec, hdec'] at h
  obtain ⟨rfl, hcnl⟩ := append_inj h (hlen.trans hlen'.symm)
  exact ⟨hcnl, Checked.ext (htext.symm.trans htext')⟩

def hashedInputs (entries entries' : List AuditLedgerEntry) : Set Octets :=
  {input | ∃ entry ∈ entries ++ entries', input = eventInput entry.event}

theorem hashedInputs_mono {ldg ldg' : List AuditLedgerEntry} (h : es ⊆ ldg) (h' : es' ⊆ ldg') :
    hashedInputs es es' ⊆ hashedInputs ldg ldg' := by
  rintro inp ⟨e, hen, rfl⟩
  rcases mem_append.mp hen with hen | hen
  · exact ⟨e, mem_append_left _ (h hen), rfl⟩
  · exact ⟨e, mem_append_right _ (h' hen), rfl⟩

/-- INDUCTION over the chain from its end: the head of a chain of a given length determines it. -/
theorem events_eq_of_head (hfree : Set.InjOn sha (hashedInputs es es')) (hver : Verified sha mgr es)
    (hver' : Verified sha mgr' es') (hlen : es.length = es'.length)
    (hhead : headHash es = headHash es') : es.map (·.event) = es'.map (·.event) := by
  induction es using reverseRecOn generalizing es' with
  | nil =>
    rw [length_eq_zero_iff.mp hlen.symm]
  | append_singleton es e ih =>
    rcases eq_nil_or_concat' es' with rfl | ⟨es', e', rfl⟩
    · simp at hlen
    · have hlng : es.length = es'.length := by simpa using hlen
      rw [headHash_concat, headHash_concat] at hhead
      obtain ⟨hbef, -, hseq, -, -, hprv, hhash, -⟩ := verified_concat_iff.mp hver
      obtain ⟨hbef', -, hseq', -, -, hprv', hhash', -⟩ :=
        verified_concat_iff.mp hver'
      -- The two last events have the same hash, and so the same input.
      rw [eventSha256_eq] at hhash hhash'
      have hdig := digestText_inj
        ((Except.ok.inj hhash).trans (hhead.trans (Except.ok.inj hhash').symm))
      have hinp := hfree ⟨e, by simp, rfl⟩ ⟨e', by simp, rfl⟩ hdig
      obtain ⟨hcnl, hlink⟩ := eventInput_inj hinp
      have hev : e.event = e'.event := by
        refine event_eq_of_canonical hcnl ?_ hhead
        rw [hseq, hseq', hlng]
      have hrest := ih (hfree.mono (hashedInputs_mono (by simp) (by simp))) hbef hbef' hlng
        (by rw [← hprv, ← hprv', hlink])
      rw [map_append, map_append, hrest, map_singleton, map_singleton, hev]

theorem verified_of_append (h : Verified sha mgr (es ++ es')) : Verified sha mgr es := by
  obtain ⟨found, hfd⟩ := h
  rw [verifyEntries_append] at hfd
  obtain ⟨first, hfst, -⟩ := bind_ok_iff.mp hfd
  exact ⟨first, hfst⟩

/-- A checkpoint of a verified ledger stands behind the events that it counts. -/
theorem split_at_checkpoint {e : AuditLedgerEntry} {checkpoint : AuditCheckpoint}
    (hver : Verified sha mgr es) (hen : e ∈ es) (hche : e.checkpoint = some checkpoint) :
    Verified sha mgr (es.take checkpoint.sequence) ∧
      (es.take checkpoint.sequence).length = checkpoint.sequence ∧
      headHash (es.take checkpoint.sequence) = checkpoint.eventHash := by
  obtain ⟨before, after, rfl⟩ := append_of_mem hen
  have hspl : before ++ e :: after = (before ++ [e]) ++ after := by simp
  rw [hspl] at hver ⊢
  have hfro := verified_of_append hver
  obtain ⟨-, -, hseq, -⟩ := verified_concat_iff.mp hfro
  have hbin := e.binds
  rw [hche] at hbin
  simp only [Binds, Option.all_some, Bool.and_eq_true, beq_iff_eq] at hbin
  have hlen : (before ++ [e]).length = checkpoint.sequence := by
    rw [hbin.1, hseq, length_append, length_singleton]
  rw [← hlen, take_left' rfl]
  exact ⟨hfro, rfl, by rw [headHash_concat, hbin.2]⟩

/-- TAMPER EVIDENT: two ledgers that are accepted, with the same number of events and the same head,
    hold the same events; and a checkpoint that both have stands behind the same events. -/
theorem ledger_tamper_evident {ledger ledger' : AuditLedger}
    {verification verification' : AuditVerification}
    (hledger : verifyLedger sha mgr ledger = .ok verification)
    (hledger' : verifyLedger sha mgr' ledger' = .ok verification')
    (hfree : Set.InjOn sha (hashedInputs ledger.entries ledger'.entries)) :
    (verification.events = verification'.events →
      verification.headSha256 = verification'.headSha256 →
      ledger.entries.map (·.event) = ledger'.entries.map (·.event)) ∧
    ∀ entry ∈ ledger.entries, ∀ entry' ∈ ledger'.entries, ∀ checkpoint,
      entry.checkpoint = some checkpoint → entry'.checkpoint = some checkpoint →
      (ledger.entries.take checkpoint.sequence).map (·.event) =
        (ledger'.entries.take checkpoint.sequence).map (·.event) := by
  have hver := verifyLedger_ok_iff.mp ⟨_, hledger⟩
  have hver' := verifyLedger_ok_iff.mp ⟨_, hledger'⟩
  constructor
  · intro hevs hhead
    obtain ⟨found, hfd, hres⟩ := bind_ok_iff.mp hledger
    obtain ⟨found', hfd', hres'⟩ := bind_ok_iff.mp hledger'
    cases hres
    cases hres'
    refine events_eq_of_head hfree hver hver' hevs ?_
    rwa [headHash, ← verifyEntries_head hfd, headHash, ← verifyEntries_head hfd']
  · intro entry hen entry' hen' checkpoint hche hche'
    obtain ⟨hfro, hlen, hhead⟩ := split_at_checkpoint hver hen hche
    obtain ⟨hfro', hlen', hhead'⟩ := split_at_checkpoint hver' hen' hche'
    refine events_eq_of_head (hfree.mono (hashedInputs_mono ?_ ?_)) hfro hfro'
      (hlen.trans hlen'.symm) (hhead.trans hhead'.symm)
    · exact take_subset _ _
    · exact take_subset _ _

/-! ### Two ledgers with the same events -/

theorem isLowerHex_zeros32 : isLowerHex (replicate 32 48) 32 = true := by decide

/-- A hash for examples: the sum of the bytes, 32 times. -/
def sumOctets (input : Octets) : Bytes 32 :=
  ⟨replicate 32 (input.foldl (· + ·) 0), length_replicate⟩

def zeroNode : NodeId := ⟨replicate 32 48, isLowerHex_zeros32⟩

theorem isTechnicalName_a : isTechnicalName (utf8 "a") = true := by decide

theorem isSafePrincipal_a :
    (isSafePrincipal (utf8 "a") maxActorIdBytes && !containsSecretMarker (utf8 "a")) = true := by
  decide

theorem isSafeTarget_a :
    (isSafeTarget (utf8 "a") maxTargetBytes && !containsSecretMarker (utf8 "a")) = true := by
  decide

theorem one_isTime : 0 < 1 ∧ 1 ≤ maxSigned := by decide

theorem two_isTime : 0 < 2 ∧ 2 ≤ maxSigned := by decide

theorem success_fits : ReasonFits .success none := Iff.intro (fun _ => rfl) fun _ => rfl

theorem isLowerHex_ones32 : isLowerHex (replicate 32 49) 32 = true := by decide

/-- The event without its hash that follows a chain with this head. -/
def unsignedEvent (sequence : ℕ) (hseq : 0 < sequence ∧ sequence ≤ maxSigned)
    (eventId : AuditEventId) (previousHash : Sha256Digest) : AuditEvent :=
  ⟨sequence, eventId, ⟨replicate 32 48, isLowerHex_zeros32⟩, ⟨1, one_isTime⟩, zeroNode,
    ⟨.system, ⟨utf8 "a", isSafePrincipal_a⟩⟩, ⟨zeroNode, .system⟩, ⟨utf8 "a", isTechnicalName_a⟩,
    ⟨utf8 "a", isSafeTarget_a⟩, none, none, .success, none, previousHash, genesisHash, hseq,
    success_fits⟩

def hashedEvent (unsigned : AuditEvent) : AuditEvent :=
  { unsigned with eventHash := digestText (sumOctets (eventInput unsigned)) }

def firstEvent : AuditEvent :=
  hashedEvent (unsignedEvent 1 one_isTime ⟨replicate 32 48, isLowerHex_zeros32⟩ genesisHash)

def secondEvent : AuditEvent :=
  hashedEvent (unsignedEvent 2 two_isTime ⟨replicate 32 49, isLowerHex_ones32⟩
    firstEvent.eventHash)

theorem one_isLength : 0 < ([1] : Octets).length ∧
    ([1] : Octets).length ≤ maxCheckpointSignatureBytes := by decide

def checkpointOf (event : AuditEvent) (createdAt : AuditUnixNanoseconds) : AuditCheckpoint :=
  ⟨event.sequence, event.eventHash, [1], createdAt, event.sequence_bounds, one_isLength⟩

theorem checkpointOf_binds (event : AuditEvent) (createdAt : AuditUnixNanoseconds) :
    Binds event (some (checkpointOf event createdAt)) = true := by
  simp [Binds, checkpointOf]

def entryOf (createdAt : AuditUnixNanoseconds) (event : AuditEvent) : AuditLedgerEntry :=
  ⟨event, some (checkpointOf event createdAt), checkpointOf_binds event createdAt⟩

theorem one_isInterval : 0 < 1 ∧ 1 ≤ 10000 := by decide

/-- A manager that checkpoints every event and takes every signature. -/
def everyEvent : AuditManager := ⟨zeroNode, ⟨1, one_isInterval⟩, fun _ _ => .ok true⟩

def twoEvents (createdAt : AuditUnixNanoseconds) : AuditLedger :=
  ⟨[firstEvent, secondEvent].map (entryOf createdAt), 2, rfl⟩

/-- Two ledgers of two events whose checkpoints differ have the same head and so the same events. -/
theorem ledger_tamper_evident_two_events :
    twoEvents ⟨1, one_isTime⟩ ≠ twoEvents ⟨2, two_isTime⟩ ∧
      (twoEvents ⟨1, one_isTime⟩).entries.map (·.event) =
        (twoEvents ⟨2, two_isTime⟩).entries.map (·.event) := by
  have hled : verifyLedger sumOctets everyEvent (twoEvents ⟨1, one_isTime⟩) =
      .ok ⟨2, 2, secondEvent.eventHash⟩ := by decide +kernel
  have hled' : verifyLedger sumOctets everyEvent (twoEvents ⟨2, two_isTime⟩) =
      .ok ⟨2, 2, secondEvent.eventHash⟩ := by decide +kernel
  have hne : sumOctets (eventInput firstEvent) ≠ sumOctets (eventInput secondEvent) := by
    decide +kernel
  refine ⟨by decide +kernel, (ledger_tamper_evident hled hled' ?_).1 rfl rfl⟩
  have hev : ∀ e ∈ (twoEvents ⟨1, one_isTime⟩).entries ++ (twoEvents ⟨2, two_isTime⟩).entries,
      e.event = firstEvent ∨ e.event = secondEvent := by
    simp [twoEvents, entryOf]
  rintro inp ⟨e, hen, rfl⟩ inp' ⟨e', hen', rfl⟩ heq
  rcases hev e hen with h | h <;> rcases hev e' hen' with h' | h' <;> rw [h, h'] at heq ⊢
  · exact absurd heq hne
  · exact absurd heq.symm hne

end LetsInfer.Audit
