import LetsInfer.Watchdog.Contract
import LetsInfer.Schemes.Checks
import LetsInfer.Schemes.Runs
import LetsInfer.Schemes.Tables
import LetsInfer.Schemes.Tilings

/-! @src core/watchdog/src/li_watchdog_live_fanout.rs | name:Live fanout | scheme:state-machine

    A publication puts the newest sample into the mailbox of every subscriber; a subscriber takes
    deliveries out of its own mailbox and acknowledges them, at any moment. A mailbox that is full
    is emptied into one gap that reaches from what the subscriber has taken up to the newest sample.
    One step here is one critical section of the source: a publication holds the lock of the fanout
    while it goes through the mailboxes, whose own locks are taken one by one. -/

namespace LetsInfer.Watchdog
open Schemes List Option

def fanoutError (reason : String) : WatchdogError := .provider "live fanout" reason

structure FanoutLimits where
  maximumSubscribers : ℕ
  maximumBacklog : ℕ
  two_le_backlog : 2 ≤ maximumBacklog

/-- One sample, or the missing sequence numbers of a gap. -/
inductive Delivery where
  | sample (value : Sample)
  | gap (firstMissingSequence latestSequence : ℕ)
  deriving DecidableEq

def Delivery.firstSequence : Delivery → ℕ
  | .sample value => value.sequence.toNat
  | .gap firstMissingSequence _ => firstMissingSequence

def Delivery.throughSequence : Delivery → ℕ
  | .sample value => value.sequence.toNat
  | .gap _ latestSequence => latestSequence

structure Mailbox where
  closed : Bool
  acknowledgedThrough : ℕ
  enqueuedThrough : ℕ
  inFlight : Option Delivery
  queue : List Delivery
  deriving DecidableEq

/-- The successor, as `saturating_add` has it on 64 bits. -/
def saturatingSucc (n : ℕ) : ℕ := min (n + 1) (u64Bound - 1)

namespace Mailbox

/-- What the subscriber has acknowledged or is working on. -/
def reservedThrough (mailbox : Mailbox) : ℕ :=
  max ((mailbox.inFlight.map Delivery.throughSequence).getD mailbox.acknowledgedThrough)
    mailbox.acknowledgedThrough

def push (mailbox : Mailbox) (queue : List Delivery) (sample : Sample) : Mailbox :=
  { mailbox with
    queue := queue ++ [.sample sample]
    enqueuedThrough := sample.sequence.toNat }

/-- Queues a sample; the flag says whether a gap was put before it. -/
def enqueueSample (mailbox : Mailbox) (sample : Sample) (maximumBacklog : ℕ) :
    Except WatchdogError (Mailbox × Bool) :=
  let sequence := sample.sequence.toNat
  if mailbox.closed then .ok (mailbox, false)
  else if sequence ≤ mailbox.enqueuedThrough then
    .error (fanoutError "subscriber sample sequence is stale")
  else
    let needsGap := decide (saturatingSucc mailbox.enqueuedThrough < sequence)
    let required := 1 + needsGap.toNat
    if maximumBacklog < mailbox.queue.length + required then
      let reservedThrough := mailbox.reservedThrough
      if saturatingSucc reservedThrough < sequence then
        .ok (mailbox.push [.gap (reservedThrough + 1) (sequence - 1)] sample, true)
      else .ok (mailbox.push [] sample, false)
    else if needsGap then
      .ok (mailbox.push
        (mailbox.queue ++ [.gap (mailbox.enqueuedThrough + 1) (sequence - 1)]) sample, true)
    else .ok (mailbox.push mailbox.queue sample, false)

def takeDelivery (mailbox : Mailbox) : Except WatchdogError (Mailbox × Option Delivery) :=
  if mailbox.closed then .ok (mailbox, none)
  else if mailbox.inFlight.isSome then
    .error (fanoutError "live subscriber already has in-flight work")
  else
    .ok ({ mailbox with inFlight := mailbox.queue.head?, queue := mailbox.queue.tail },
      mailbox.queue.head?)

def acknowledgeDelivery (mailbox : Mailbox) (delivery : Delivery) : Except WatchdogError Mailbox :=
  if mailbox.inFlight ≠ some delivery ∨ delivery.throughSequence ≤ mailbox.acknowledgedThrough then
    .error (fanoutError "live delivery acknowledgement conflicts")
  else
    .ok { mailbox with acknowledgedThrough := delivery.throughSequence, inFlight := none }

def close (mailbox : Mailbox) : Mailbox :=
  { mailbox with closed := true, queue := [], inFlight := none }

end Mailbox

/-! ### The fanout and its subscribers -/

/-- A mailbox with what a bystander notes about its subscriber: the last sequence published before
    it subscribed, and the deliveries it took. -/
structure Receiver where
  mailbox : Mailbox
  subscribedAfter : ℕ
  taken : List Delivery
  deriving DecidableEq

/-- A publication on its way through the mailboxes. -/
structure LivePublication where
  sample : Sample
  pending : List ℕ
  gapCount : ℕ
  closed : List ℕ
  deriving DecidableEq

/-- The state behind the lock of the fanout, which is held while there is a publication; the
    mailboxes of all subscribers there ever were, and the samples published so far. -/
structure Fanout where
  closed : Bool
  lastPublishedSequence : ℕ
  nextSubscriberId : ℕ
  subscribers : List ℕ
  publication : Option LivePublication
  receivers : Table ℕ Receiver
  history : List Sample
  deriving DecidableEq

inductive LiveAction where
  | subscribe
  | publish (sample : Sample)
  | deliver (wakes : Bool)
  | finish
  | take (subscriber : ℕ)
  | acknowledge (subscriber : ℕ) (delivery : Delivery)
  | closeMailbox (subscriber : ℕ)
  | unregister (subscriber : ℕ)
  | close
  deriving DecidableEq

inductive LiveAnswer where
  | done
  | subscribed (subscriber : ℕ)
  | took (delivery : Delivery)
  | replayed (subscriberCount : ℕ)
  | published (subscriberCount gapCount closedCount : ℕ)
  | failed (error : WatchdogError)
  deriving DecidableEq

namespace Fanout

def new : Fanout := ⟨false, 0, 1, [], none, ∅, []⟩

def setMailbox (s : Fanout) (subscriber : ℕ) (receiver : Receiver) (mailbox : Mailbox) : Fanout :=
  { s with receivers := s.receivers.insert subscriber { receiver with mailbox := mailbox } }

def subscribe (limits : FanoutLimits) (s : Fanout) : Fanout × LiveAnswer :=
  if s.closed then (s, .failed (fanoutError "live fanout is closed"))
  else if limits.maximumSubscribers ≤ s.subscribers.length then
    (s, .failed (fanoutError "live subscriber bound was reached"))
  else if u64Bound ≤ s.nextSubscriberId + 1 then
    (s, .failed (fanoutError "live subscriber identity is exhausted"))
  else
    let mailbox : Mailbox := ⟨false, s.lastPublishedSequence, s.lastPublishedSequence, none, []⟩
    ({ s with
        nextSubscriberId := s.nextSubscriberId + 1
        subscribers := s.subscribers ++ [s.nextSubscriberId]
        receivers := s.receivers.insert s.nextSubscriberId ⟨mailbox, s.lastPublishedSequence, []⟩ },
      .subscribed s.nextSubscriberId)

/-- The part of `publish` before its loop over the mailboxes. -/
def beginPublish (s : Fanout) (sample : Sample) : Fanout × LiveAnswer :=
  if s.closed then (s, .failed (fanoutError "live fanout is closed"))
  else if sample.sequence.toNat < s.lastPublishedSequence then
    (s, .failed (fanoutError "live sample sequence is stale"))
  else if sample.sequence.toNat = s.lastPublishedSequence then
    (s, .replayed s.subscribers.length)
  else
    ({ s with
        publication := some ⟨sample, s.subscribers, 0, []⟩
        history := s.history ++ [sample] }, .done)

/-- The loop of `publish` at one mailbox, whose subscriber may fail to be woken. -/
def deliverTo (limits : FanoutLimits) (s : Fanout) (publication : LivePublication) (subscriber : ℕ)
    (rest : List ℕ) (receiver : Receiver) (wakes : Bool) : Fanout × LiveAnswer :=
  match receiver.mailbox.enqueueSample publication.sample limits.maximumBacklog with
  | .error error => ({ s with publication := none }, .failed error)
  | .ok (mailbox, gapCreated) =>
    ({ s.setMailbox subscriber receiver (if wakes then mailbox else mailbox.close) with
        publication := some { publication with
          pending := rest
          gapCount := publication.gapCount + gapCreated.toNat
          closed := if wakes then publication.closed else publication.closed ++ [subscriber] } },
      .done)

/-- The part of `publish` after its loop. -/
def finishPublish (s : Fanout) (publication : LivePublication) : Fanout × LiveAnswer :=
  let subscribers := s.subscribers.filter fun subscriber => subscriber ∉ publication.closed
  ({ s with
      subscribers := subscribers
      lastPublishedSequence := publication.sample.sequence.toNat
      publication := none },
    .published subscribers.length publication.gapCount publication.closed.length)

def take (s : Fanout) (subscriber : ℕ) (receiver : Receiver) : Fanout × LiveAnswer :=
  match receiver.mailbox.takeDelivery with
  | .error error => (s, .failed error)
  | .ok (mailbox, none) => (s.setMailbox subscriber receiver mailbox, .done)
  | .ok (mailbox, some delivery) =>
    (s.setMailbox subscriber { receiver with taken := receiver.taken ++ [delivery] } mailbox,
      .took delivery)

def acknowledge (s : Fanout) (subscriber : ℕ) (receiver : Receiver) (delivery : Delivery) :
    Fanout × LiveAnswer :=
  match receiver.mailbox.acknowledgeDelivery delivery with
  | .error error => (s, .failed error)
  | .ok mailbox => (s.setMailbox subscriber receiver mailbox, .done)

/-- One critical section. A subscriber is closed by closing its mailbox and then taking it out of
    the fanout; the fanout is closed by taking all of them out and then closing their mailboxes. -/
def step (limits : FanoutLimits) (s : Fanout) : LiveAction → Option (Fanout × LiveAnswer)
  | .subscribe => if s.publication.isSome then none else some (s.subscribe limits)
  | .publish sample => if s.publication.isSome then none else some (s.beginPublish sample)
  | .deliver wakes => do
    let publication ← s.publication
    match publication.pending with
    | [] => none
    | subscriber :: rest =>
      let receiver ← s.receivers.lookup subscriber
      return s.deliverTo limits publication subscriber rest receiver wakes
  | .finish => do
    let publication ← s.publication
    if publication.pending = [] then return s.finishPublish publication else none
  | .take subscriber => do
    let receiver ← s.receivers.lookup subscriber
    return s.take subscriber receiver
  | .acknowledge subscriber delivery => do
    let receiver ← s.receivers.lookup subscriber
    return s.acknowledge subscriber receiver delivery
  | .closeMailbox subscriber => do
    let receiver ← s.receivers.lookup subscriber
    return (s.setMailbox subscriber receiver receiver.mailbox.close, .done)
  | .unregister subscriber =>
    if s.publication.isSome then none
    else some ({ s with subscribers := s.subscribers.filter (· ≠ subscriber) }, .done)
  | .close =>
    if s.publication.isSome then none
    else some ({ s with closed := true, subscribers := [] }, .done)

end Fanout

/-! ### One mailbox -/

variable {taken : Option Delivery} {delivery : Delivery} {mb : Mailbox} {smp : Sample}
  {backlog : ℕ} {hist hist' : List Sample} {rcv : Receiver}
  {tr : List (Fanout × LiveAction × LiveAnswer)}

section Mailbox

variable {mb' : Mailbox}

/-- The deliveries are laid end to end. -/
abbrev DeliveryTiles := Tiles Delivery.firstSequence Delivery.throughSequence

/-- What holds of a mailbox, open or closed. -/
structure Mailbox.Valid (backlog : ℕ) (history : List Sample) (mailbox : Mailbox) : Prop where
  bounded : mailbox.queue.length ≤ backlog
  queued : mailbox.closed = false →
    DeliveryTiles mailbox.reservedThrough mailbox.queue mailbox.enqueuedThrough
  flying : ∀ delivery ∈ mailbox.inFlight,
    mailbox.acknowledgedThrough < delivery.throughSequence
  published : ∀ value, .sample value ∈ mailbox.queue → value ∈ history

theorem saturatingSucc_lt_iff (n : ℕ) : saturatingSucc n < smp.sequence.toNat ↔
    n + 1 < smp.sequence.toNat := by
  have hbd := smp.sequence.toNat_lt
  simp only [saturatingSucc, u64Bound]
  omega

theorem Mailbox.Valid.mono (h : mb.Valid backlog hist) (hsub : hist ⊆ hist') :
    mb.Valid backlog hist' :=
  ⟨h.bounded, h.queued, h.flying, fun v hvl => hsub (h.published v hvl)⟩

theorem Mailbox.valid_close (backlog : ℕ) (hist : List Sample) (mb : Mailbox) :
    mb.close.Valid backlog hist where
  bounded := Nat.zero_le _
  queued hopen := by cases hopen
  flying := by simp [Mailbox.close]
  published := by simp [Mailbox.close]

/-- A queue that reaches up to the sample, with the sample put behind it. -/
theorem Mailbox.Valid.push {queue : List Delivery} (h : mb.Valid backlog hist)
    (hque : DeliveryTiles mb.reservedThrough queue (smp.sequence.toNat - 1))
    (hpos : 0 < smp.sequence.toNat) (hlen : queue.length + 1 ≤ backlog)
    (hpub : ∀ v, .sample v ∈ queue → v ∈ hist) (hsmp : smp ∈ hist) :
    (mb.push queue smp).Valid backlog hist where
  bounded := by simpa [Mailbox.push] using hlen
  queued _ := by
    have hfst : (Delivery.sample smp).firstSequence = smp.sequence.toNat - 1 + 1 :=
      (Nat.sub_add_cancel hpos).symm
    exact hque.snoc hfst le_rfl
  flying := h.flying
  published := by
    intro v hvl
    rcases mem_append.mp hvl with hvl | hvl
    · exact hpub v hvl
    · obtain rfl := Delivery.sample.inj (mem_singleton.mp hvl)
      exact hsmp

/-- STEP: a newer sample is queued, whatever is in flight. -/
theorem Mailbox.Valid.enqueueSample (h : mb.Valid backlog hist) (hbac : 2 ≤ backlog)
    (hopen : mb.closed = false) (hnew : mb.enqueuedThrough < smp.sequence.toNat)
    (hsmp : smp ∈ hist) :
    ∃ queue gapCreated, mb.enqueueSample smp backlog = .ok (mb.push queue smp, gapCreated) ∧
      (mb.push queue smp).Valid backlog hist := by
  have hque := h.queued hopen
  have hrsv := hque.le
  have hpos : 0 < smp.sequence.toNat := by omega
  have hcld : ¬(mb.closed = true) := by simp [hopen]
  unfold Mailbox.enqueueSample
  rw [if_neg hcld, if_neg (Nat.not_le.mpr hnew)]
  simp only [saturatingSucc_lt_iff]
  split_ifs with hfull hgap hgap
  · -- the queue is emptied into one gap
    refine ⟨_, _, rfl, h.push ⟨rfl, ?_, rfl⟩ hpos hbac (by simp) hsmp⟩
    show mb.reservedThrough + 1 ≤ smp.sequence.toNat - 1
    omega
  · have hend : mb.reservedThrough = smp.sequence.toNat - 1 := by omega
    exact ⟨_, _, rfl, h.push hend hpos (by simp; omega) (by simp) hsmp⟩
  · have hnee := of_decide_eq_true hgap
    have hroom : mb.queue.length + 2 ≤ backlog := by
      rw [hgap, Bool.toNat_true] at hfull
      omega
    refine ⟨_, _, rfl, h.push (hque.snoc (d := .gap _ _) rfl ?_) hpos ?_ ?_ hsmp⟩
    · show mb.enqueuedThrough + 1 ≤ smp.sequence.toNat - 1
      omega
    · rwa [length_append, length_singleton]
    · intro v hvl
      exact h.published v (by simpa using hvl)
  · have hno : ¬mb.enqueuedThrough + 1 < smp.sequence.toNat := by simpa using hgap
    have hnx : mb.enqueuedThrough = smp.sequence.toNat - 1 := by omega
    refine ⟨_, _, rfl, h.push (hnx ▸ hque) hpos ?_ h.published hsmp⟩
    rw [decide_eq_false hno, Bool.toNat_false] at hfull
    omega

theorem Mailbox.enqueueSample_closed (hcld : mb.closed = true) :
    mb.enqueueSample smp backlog = .ok (mb, false) :=
  if_pos hcld

theorem Mailbox.takeDelivery_ok (h : mb.takeDelivery = .ok (mb', taken)) :
    (taken = none ∧ mb' = mb) ∨ ∃ delivery rest, taken = some delivery ∧
      mb.closed = false ∧ mb.inFlight = none ∧ mb.queue = delivery :: rest ∧
      mb' = { mb with inFlight := some delivery, queue := rest } := by
  unfold Mailbox.takeDelivery at h
  split_ifs at h with hcld hfly
  · cases h
    exact .inl ⟨rfl, rfl⟩
  · cases h
    have hno : mb.inFlight = none := by simpa using hfly
    cases hque : mb.queue with
    | nil =>
      refine .inl ⟨rfl, ?_⟩
      rw [head?_nil, tail_nil, ← hno, ← hque]
    | cons delivery rest =>
      exact .inr ⟨delivery, rest, rfl, by simpa using hcld, hno, rfl, rfl⟩

theorem Mailbox.acknowledgeDelivery_ok (h : mb.acknowledgeDelivery delivery = .ok mb') :
    mb.inFlight = some delivery ∧ mb.acknowledgedThrough < delivery.throughSequence ∧
      mb' = { mb with
        acknowledgedThrough := delivery.throughSequence, inFlight := none } := by
  obtain ⟨hfits, hok⟩ := error_if_ok_iff.mp h
  push Not at hfits
  exact ⟨hfits.1, hfits.2, (Except.ok.inj hok).symm⟩

end Mailbox

/-! ### One subscriber -/

section Receiver

/-- The deliveries taken so far are laid end to end from the subscription on; while the mailbox is
    open, they end where its queue starts. -/
structure Receiver.Valid (backlog : ℕ) (history : List Sample) (receiver : Receiver) : Prop where
  mailbox : receiver.mailbox.Valid backlog history
  taken : ∃ through, DeliveryTiles receiver.subscribedAfter receiver.taken through ∧
    (receiver.mailbox.closed = false → through = receiver.mailbox.reservedThrough)
  published : ∀ value, .sample value ∈ receiver.taken → value ∈ history

section

variable (h : rcv.Valid backlog hist)
include h

theorem Receiver.Valid.mono (hsub : hist ⊆ hist') : rcv.Valid backlog hist' :=
  ⟨h.mailbox.mono hsub, h.taken, fun v hvl => hsub (h.published v hvl)⟩

/-- A change of the mailbox that keeps what is reserved. -/
theorem Receiver.Valid.withMailbox (hval : mb.Valid backlog hist)
    (hkps : mb.closed = false → rcv.mailbox.closed = false ∧
      mb.reservedThrough = rcv.mailbox.reservedThrough) :
    ({ rcv with mailbox := mb } : Receiver).Valid backlog hist := by
  obtain ⟨through, htil, hthr⟩ := h.taken
  refine ⟨hval, ⟨through, htil, fun hopen => ?_⟩, h.published⟩
  obtain ⟨hwas, hsame⟩ := hkps hopen
  exact (hthr hwas).trans hsame.symm

theorem Receiver.Valid.close :
    ({ rcv with mailbox := rcv.mailbox.close } : Receiver).Valid backlog hist :=
  h.withMailbox (Mailbox.valid_close _ _ _) fun hopen => by cases hopen

/-- STEP: a subscriber that takes a delivery goes on where it was. -/
theorem Receiver.Valid.take (htake : rcv.mailbox.takeDelivery = .ok (mb, taken)) : ({ rcv with
      mailbox := mb
      taken := rcv.taken ++ taken.toList } : Receiver).Valid backlog hist := by
  rcases Mailbox.takeDelivery_ok htake with ⟨rfl, rfl⟩ |
    ⟨delivery, rest, rfl, hopen, hfly, hque, rfl⟩
  · simpa using h
  · have htil := h.mailbox.queued hopen
    have hlen := h.mailbox.bounded
    have hpub := h.mailbox.published
    rw [hque] at htil hlen hpub
    obtain ⟨hfst, hle, hrest⟩ := htil
    have hrsv : rcv.mailbox.reservedThrough = rcv.mailbox.acknowledgedThrough := by
      simp [Mailbox.reservedThrough, hfly]
    have hack : rcv.mailbox.acknowledgedThrough < delivery.throughSequence := by
      omega
    have hnow : max delivery.throughSequence rcv.mailbox.acknowledgedThrough =
        delivery.throughSequence := max_eq_left hack.le
    obtain ⟨through, htak, hthr⟩ := h.taken
    obtain rfl := hthr hopen
    refine ⟨⟨(Nat.le_succ _).trans hlen, fun _ => ?_, ?_, ?_⟩, ?_, ?_⟩
    · simpa [Mailbox.reservedThrough, hnow] using hrest
    · intro other hoth
      cases hoth
      exact hack
    · exact fun v hvl => hpub v (mem_cons_of_mem _ hvl)
    · refine ⟨_, htak.snoc hfst hle, fun _ => ?_⟩
      simp [Mailbox.reservedThrough, hnow]
    · intro v hvl
      rcases mem_append.mp hvl with hvl | hvl
      · exact h.published v hvl
      · have hsame : Delivery.sample v = delivery := by simpa using hvl
        exact hpub v (hsame ▸ mem_cons_self)

theorem Receiver.Valid.acknowledge (hack : rcv.mailbox.acknowledgeDelivery delivery = .ok mb) :
    ({ rcv with mailbox := mb } : Receiver).Valid backlog hist := by
  obtain ⟨hfly, haft, rfl⟩ := Mailbox.acknowledgeDelivery_ok hack
  have hrsv : rcv.mailbox.reservedThrough = delivery.throughSequence := by
    simp [Mailbox.reservedThrough, hfly, max_eq_left haft.le]
  refine h.withMailbox ⟨h.mailbox.bounded, fun hopen => ?_, by simp, h.mailbox.published⟩
    fun hopen => ⟨hopen, ?_⟩
  · have htil := h.mailbox.queued hopen
    rw [hrsv] at htil
    simpa [Mailbox.reservedThrough] using htil
  · rw [hrsv]
    simp [Mailbox.reservedThrough]

end

end Receiver

/-! ### The whole fanout -/

namespace Fanout

variable {lim : FanoutLimits} {s t : Fanout} {sub : ℕ} {ans : LiveAnswer}

/-- Where the queue of a registered mailbox ends: at the last publication, or at the one on its way
    if that has been at the mailbox. -/
def expectedThrough (s : Fanout) (subscriber : ℕ) : ℕ :=
  match s.publication with
  | none => s.lastPublishedSequence
  | some publication =>
    if subscriber ∈ publication.pending then s.lastPublishedSequence
    else publication.sample.sequence.toNat

structure Inv (limits : FanoutLimits) (s : Fanout) : Prop where
  valid : ∀ subscriber receiver, s.receivers.lookup subscriber = some receiver →
    receiver.Valid limits.maximumBacklog s.history
  fresh : ∀ subscriber receiver, s.receivers.lookup subscriber = some receiver →
    subscriber < s.nextSubscriberId
  registered : ∀ subscriber ∈ s.subscribers, ∃ receiver,
    s.receivers.lookup subscriber = some receiver ∧ (receiver.mailbox.closed = false →
      receiver.mailbox.enqueuedThrough = s.expectedThrough subscriber)
  distinct : s.subscribers.Nodup
  publishing : ∀ publication ∈ s.publication,
    s.lastPublishedSequence < publication.sample.sequence.toNat ∧
      publication.sample ∈ s.history ∧ publication.pending.Nodup ∧
      publication.pending ⊆ s.subscribers

theorem inv_new : new.Inv lim where
  valid _ _ h := by simp [new] at h
  fresh _ _ h := by simp [new] at h
  registered _ h := by simp [new] at h
  distinct := nodup_nil
  publishing _ h := by simp [new] at h

/-- STEP: a change of one mailbox that leaves the end of its queue. -/
theorem Inv.set {rcv' : Receiver} (h : s.Inv lim) (hlk : s.receivers.lookup sub = some rcv)
    (hval : rcv'.Valid lim.maximumBacklog s.history)
    (hkps : rcv'.mailbox.closed = false → rcv.mailbox.closed = false ∧
      rcv'.mailbox.enqueuedThrough = rcv.mailbox.enqueuedThrough) :
    ({ s with receivers := s.receivers.insert sub rcv' } : Fanout).Inv lim where
  valid other found hfd := by
    rcases Table.insert_cases rfl hfd with ⟨-, rfl⟩ | ⟨-, hfd⟩
    · exact hval
    · exact h.valid other found hfd
  fresh other found hfd := by
    rcases Table.insert_cases rfl hfd with ⟨rfl, -⟩ | ⟨-, hfd⟩
    · exact h.fresh other rcv hlk
    · exact h.fresh other found hfd
  registered other hoth := by
    obtain ⟨found, hfd, hthr⟩ := h.registered other hoth
    by_cases hsame : other = sub
    · subst hsame
      cases hfd.symm.trans hlk
      refine ⟨rcv', Finmap.lookup_insert _, fun hopen => ?_⟩
      obtain ⟨hwas, henq⟩ := hkps hopen
      exact henq.trans (hthr hwas)
    · exact ⟨found, (Finmap.lookup_insert_of_ne _ hsame).trans hfd, hthr⟩
  distinct := h.distinct
  publishing := h.publishing

theorem Inv.subscribe (h : s.Inv lim) (hidle : s.publication = none) :
    (s.subscribe lim).1.Inv lim := by
  unfold Fanout.subscribe
  split_ifs with hcld hbd hexh
  · exact h
  · exact h
  · exact h
  · have hnew : s.nextSubscriberId ∉ s.subscribers := by
      intro hmem
      obtain ⟨rcv, hlk, -⟩ := h.registered _ hmem
      exact absurd (h.fresh _ _ hlk) (lt_irrefl _)
    have hexp : ∀ sub, s.expectedThrough sub = s.lastPublishedSequence := by
      intro sub
      simp [expectedThrough, hidle]
    refine ⟨?_, ?_, ?_, ?_, ?_⟩
    · intro sub rcv hlk
      rcases Table.insert_cases rfl hlk with ⟨-, rfl⟩ | ⟨-, hlk⟩
      · refine ⟨⟨Nat.zero_le _, fun _ => ?_, by simp, by simp⟩, ⟨_, rfl, fun _ => ?_⟩, by simp⟩
        · show Tiles _ _ _ [] _
          simp [Tiles, Mailbox.reservedThrough]
        · simp [Mailbox.reservedThrough]
      · exact h.valid sub rcv hlk
    · intro sub rcv hlk
      rcases Table.insert_cases rfl hlk with ⟨rfl, -⟩ | ⟨-, hlk⟩
      · exact Nat.lt_succ_self _
      · exact (h.fresh sub rcv hlk).trans (Nat.lt_succ_self _)
    · intro sub hmem
      rcases mem_snoc.mp hmem with hmem | rfl
      · obtain ⟨rcv, hlk, hthr⟩ := h.registered sub hmem
        have hne : sub ≠ s.nextSubscriberId := fun heq => hnew (heq ▸ hmem)
        exact ⟨rcv, (Finmap.lookup_insert_of_ne _ hne).trans hlk, hthr⟩
      · exact ⟨_, Finmap.lookup_insert _, fun _ => (hexp _).symm⟩
    · exact nodup_append_comm.mp (nodup_cons.mpr ⟨hnew, h.distinct⟩)
    · intro pub hsome
      rw [hidle] at hsome
      cases hsome

theorem Inv.beginPublish (h : s.Inv lim) (hidle : s.publication = none) :
    (s.beginPublish smp).1.Inv lim := by
  unfold Fanout.beginPublish
  split_ifs with hcld hsta hrep
  · exact h
  · exact h
  · exact h
  · refine ⟨fun sub rcv hlk => (h.valid _ _ hlk).mono (by simp), h.fresh, ?_, h.distinct, ?_⟩
    · intro sub hmem
      obtain ⟨rcv, hlk, hthr⟩ := h.registered sub hmem
      refine ⟨rcv, hlk, fun hopen => (hthr hopen).trans ?_⟩
      simp [expectedThrough, hidle, hmem]
    · intro pub hsome
      cases hsome
      have hnew : s.lastPublishedSequence < smp.sequence.toNat := by omega
      exact ⟨hnew, by simp, h.distinct, fun _ hmem => hmem⟩

variable {pub : LivePublication}

/-- A mailbox that the publication has not been at takes the sample: it is closed, or it ends at the
    last publication. -/
theorem Inv.enqueue (h : s.Inv lim) (hpbl : s.publication = some pub) (hpen : sub ∈ pub.pending)
    (hlk : s.receivers.lookup sub = some rcv) :
    ∃ mb gapCreated, rcv.mailbox.enqueueSample pub.sample lim.maximumBacklog =
        .ok (mb, gapCreated) ∧
      ({ rcv with mailbox := mb } : Receiver).Valid lim.maximumBacklog s.history ∧
      (mb.closed = false → mb.enqueuedThrough = pub.sample.sequence.toNat) := by
  obtain ⟨hnew, hsmp, -, hsub⟩ := h.publishing pub hpbl
  have hval := h.valid sub rcv hlk
  cases hcld : rcv.mailbox.closed with
  | true =>
    refine ⟨_, _, Mailbox.enqueueSample_closed hcld, hval, fun hopen => ?_⟩
    exact absurd (hopen.symm.trans hcld) Bool.false_ne_true
  | false =>
    obtain ⟨found, hfd, hthr⟩ := h.registered sub (hsub hpen)
    rw [Option.some.inj (hfd.symm.trans hlk)] at hthr
    have hlast : rcv.mailbox.enqueuedThrough = s.lastPublishedSequence := by
      rw [hthr hcld]
      simp [expectedThrough, hpbl, hpen]
    obtain ⟨queue, gapCreated, henq, hpush⟩ :=
      hval.mailbox.enqueueSample lim.two_le_backlog hcld (hlast ▸ hnew) hsmp
    exact ⟨_, gapCreated, henq, hval.withMailbox hpush fun _ => ⟨hcld, rfl⟩, fun _ => rfl⟩

variable {rest : List ℕ}

/-- STEP: a publication never fails at a mailbox. -/
theorem Inv.deliverTo (wakes : Bool) (h : s.Inv lim) (hpbl : s.publication = some pub)
    (hpen : pub.pending = sub :: rest) (hlk : s.receivers.lookup sub = some rcv) :
    (s.deliverTo lim pub sub rest rcv wakes).1.Inv lim ∧
      (s.deliverTo lim pub sub rest rcv wakes).2 = .done := by
  obtain ⟨mb, gapCreated, henq, hval, hthr⟩ :=
    h.enqueue hpbl (hpen ▸ mem_cons_self) hlk
  obtain ⟨hnew, hsmp, hnd, hsub⟩ := h.publishing pub hpbl
  rw [hpen] at hnd hsub
  have hdone : sub ∉ rest := (nodup_cons.mp hnd).1
  have hnx : ({ rcv with mailbox := if wakes then mb else mb.close } :
      Receiver).Valid lim.maximumBacklog s.history := by
    cases wakes with
    | true => exact hval
    | false => exact hval.close
  unfold Fanout.deliverTo
  rw [henq]
  refine ⟨⟨?_, ?_, ?_, h.distinct, ?_⟩, rfl⟩
  · intro other found hfd
    rcases Table.insert_cases rfl hfd with ⟨-, rfl⟩ | ⟨-, hfd⟩
    · exact hnx
    · exact h.valid other found hfd
  · intro other found hfd
    rcases Table.insert_cases rfl hfd with ⟨rfl, -⟩ | ⟨-, hfd⟩
    · exact h.fresh other rcv hlk
    · exact h.fresh other found hfd
  · intro other hoth
    by_cases hsame : other = sub
    · subst hsame
      refine ⟨_, Finmap.lookup_insert _, fun hopen => ?_⟩
      cases wakes with
      | true => simpa [expectedThrough, hdone] using hthr hopen
      | false => cases hopen
    · obtain ⟨found, hfd, hends⟩ := h.registered other hoth
      refine ⟨found, (Finmap.lookup_insert_of_ne _ hsame).trans hfd, fun hopen => ?_⟩
      rw [hends hopen]
      simp [expectedThrough, hpbl, hpen, hsame, setMailbox]
  · intro other hsome
    cases hsome
    exact ⟨hnew, hsmp, (nodup_cons.mp hnd).2, fun _ hmem => hsub (mem_cons_of_mem _ hmem)⟩

theorem Inv.finishPublish (h : s.Inv lim) (hpbl : s.publication = some pub)
    (hpen : pub.pending = []) : (s.finishPublish pub).1.Inv lim := by
  refine ⟨h.valid, h.fresh, ?_, h.distinct.filter _, fun _ hsome => by cases hsome⟩
  intro sub hmem
  obtain ⟨rcv, hlk, hthr⟩ := h.registered sub (mem_filter.mp hmem).1
  refine ⟨rcv, hlk, fun hopen => ?_⟩
  rw [hthr hopen]
  simp [expectedThrough, hpbl, hpen, Fanout.finishPublish]

theorem Inv.take (h : s.Inv lim) (hlk : s.receivers.lookup sub = some rcv) :
    (s.take sub rcv).1.Inv lim := by
  have hval := h.valid sub rcv hlk
  unfold Fanout.take
  split
  · exact h
  · rename_i mb htake
    have hkps := hval.take htake
    simp only [toList_none, append_nil] at hkps
    refine h.set hlk hkps fun hopen => ?_
    rcases Mailbox.takeDelivery_ok htake with ⟨-, rfl⟩ | ⟨_, _, hno, -⟩
    · exact ⟨hopen, rfl⟩
    · cases hno
  · rename_i mb delivery htake
    refine h.set hlk (hval.take htake) fun hopen => ?_
    rcases Mailbox.takeDelivery_ok htake with ⟨hno, -⟩ | ⟨_, _, -, hwas, -, -, rfl⟩
    · cases hno
    · exact ⟨hwas, rfl⟩

theorem Inv.acknowledge (h : s.Inv lim) (hlk : s.receivers.lookup sub = some rcv) :
    (s.acknowledge sub rcv delivery).1.Inv lim := by
  unfold Fanout.acknowledge
  split
  · exact h
  · rename_i mb hack
    refine h.set hlk ((h.valid _ _ hlk).acknowledge hack) fun hopen => ?_
    obtain ⟨-, -, rfl⟩ := Mailbox.acknowledgeDelivery_ok hack
    exact ⟨hopen, rfl⟩

/-- The subscribers that stay registered stay in step with the publications. -/
theorem Inv.withSubscribers {subscribers : List ℕ} {closed : Bool} (h : s.Inv lim)
    (hidle : s.publication = none) (hsub : subscribers.Sublist s.subscribers) :
    ({ s with closed := closed, subscribers := subscribers } : Fanout).Inv lim := by
  refine ⟨h.valid, h.fresh, fun sub hmem => h.registered sub (hsub.subset hmem),
    h.distinct.sublist hsub, fun pub hsome => ?_⟩
  rw [hidle] at hsome
  cases hsome

variable {act : LiveAction}

/-- STEP: every critical section keeps the invariant, and a publication does not fail in the middle
    of its loop. -/
theorem Inv.step (h : s.Inv lim) (hst : s.step lim act = some (t, ans)) :
    t.Inv lim ∧ ∀ wakes, act = .deliver wakes → ans = .done := by
  cases act with
  | subscribe =>
    rw [Fanout.step] at hst
    split_ifs at hst with hbusy
    obtain rfl := congrArg Prod.fst (Option.some.inj hst)
    exact ⟨h.subscribe (by simpa using hbusy), by simp⟩
  | publish smp =>
    rw [Fanout.step] at hst
    split_ifs at hst with hbusy
    obtain rfl := congrArg Prod.fst (Option.some.inj hst)
    exact ⟨h.beginPublish (by simpa using hbusy), by simp⟩
  | deliver wakes =>
    obtain ⟨pub, hpbl, hst⟩ := bind_eq_some_iff.mp hst
    cases hpen : pub.pending with
    | nil => simp [hpen] at hst
    | cons sub rest =>
      rw [hpen] at hst
      obtain ⟨rcv, hlk, hst⟩ := bind_eq_some_iff.mp hst
      have hdel := h.deliverTo wakes hpbl hpen hlk
      rw [Option.some.inj hst] at hdel
      exact ⟨hdel.1, fun _ _ => hdel.2⟩
  | finish =>
    obtain ⟨pub, hpbl, hst⟩ := bind_eq_some_iff.mp hst
    split_ifs at hst with hpen
    cases hst
    exact ⟨h.finishPublish hpbl hpen, by simp⟩
  | take sub =>
    obtain ⟨rcv, hlk, hst⟩ := bind_eq_some_iff.mp hst
    obtain rfl := congrArg Prod.fst (Option.some.inj hst)
    exact ⟨h.take hlk, by simp⟩
  | acknowledge sub delivery =>
    obtain ⟨rcv, hlk, hst⟩ := bind_eq_some_iff.mp hst
    obtain rfl := congrArg Prod.fst (Option.some.inj hst)
    exact ⟨h.acknowledge hlk, by simp⟩
  | closeMailbox sub =>
    obtain ⟨rcv, hlk, hst⟩ := bind_eq_some_iff.mp hst
    cases hst
    exact ⟨h.set hlk (h.valid _ _ hlk).close (fun hopen => by cases hopen), by simp⟩
  | unregister sub =>
    rw [Fanout.step] at hst
    split_ifs at hst with hbusy
    cases hst
    exact ⟨h.withSubscribers (by simpa using hbusy) filter_sublist, by simp⟩
  | close =>
    rw [Fanout.step] at hst
    split_ifs at hst with hbusy
    cases hst
    exact ⟨h.withSubscribers (by simpa using hbusy) (nil_sublist _), by simp⟩

/-! ### What the subscribers take in a run -/

def takenNow (subscriber : ℕ) : LiveAction × LiveAnswer → List Delivery
  | (.take other, .took delivery) => if other = subscriber then [delivery] else []
  | _ => []

def takenBy (subscriber : ℕ) (tr : List (Fanout × LiveAction × LiveAnswer)) : List Delivery :=
  tr.flatMap fun e => takenNow subscriber e.2

/-- What a step does to the subscribers: nothing, a change of one of them, or a new one. -/
inductive Change (s t : Fanout) (e : LiveAction × LiveAnswer) : Prop
  | none (hsame : t.receivers = s.receivers) (htaken : ∀ subscriber, takenNow subscriber e = [])
      (hold : ∀ subscriber, e ≠ (.subscribe, .subscribed subscriber))
  | one (subscriber : ℕ) (receiver receiver' : Receiver)
      (hlookup : s.receivers.lookup subscriber = some receiver)
      (hinsert : t.receivers = s.receivers.insert subscriber receiver')
      (hafter : receiver'.subscribedAfter = receiver.subscribedAfter)
      (htaken : receiver'.taken = receiver.taken ++ takenNow subscriber e)
      (hothers : ∀ other, other ≠ subscriber → takenNow other e = [])
      (hold : ∀ other, e ≠ (.subscribe, .subscribed other))
  | new (receiver : Receiver) (hstep : e = (.subscribe, .subscribed s.nextSubscriberId))
      (hinsert : t.receivers = s.receivers.insert s.nextSubscriberId receiver)
      (hafter : receiver.subscribedAfter = s.lastPublishedSequence) (htaken : receiver.taken = [])

theorem change_of_deliverTo {wakes : Bool} (hlk : s.receivers.lookup sub = some rcv)
    (hst : s.deliverTo lim pub sub rest rcv wakes = (t, ans)) :
    Change s t (.deliver wakes, ans) := by
  unfold Fanout.deliverTo at hst
  split at hst
  · cases hst
    exact .none rfl (fun _ => rfl) (by simp)
  · cases hst
    exact .one sub rcv _ hlk rfl rfl (by simp [takenNow]) (fun _ _ => rfl) (by simp)

theorem change_of_take (hlk : s.receivers.lookup sub = some rcv)
    (hst : s.take sub rcv = (t, ans)) : Change s t (.take sub, ans) := by
  unfold Fanout.take at hst
  split at hst
  · cases hst
    exact .none rfl (fun _ => rfl) (by simp)
  · cases hst
    exact .one sub rcv _ hlk rfl rfl (by simp [takenNow]) (fun _ _ => rfl) (by simp)
  · cases hst
    refine .one sub rcv _ hlk rfl rfl (by simp [takenNow]) ?_ (by simp)
    intro other hoth
    exact if_neg (Ne.symm hoth)

theorem change_of_step (hst : s.step lim act = some (t, ans)) : Change s t (act, ans) := by
  cases act with
  | subscribe =>
    rw [Fanout.step] at hst
    split_ifs at hst
    replace hst := Option.some.inj hst
    unfold Fanout.subscribe at hst
    split_ifs at hst
    all_goals cases hst
    · exact .none rfl (fun _ => rfl) (by simp)
    · exact .none rfl (fun _ => rfl) (by simp)
    · exact .none rfl (fun _ => rfl) (by simp)
    · exact .new _ rfl rfl rfl rfl
  | publish smp =>
    rw [Fanout.step] at hst
    split_ifs at hst
    replace hst := Option.some.inj hst
    unfold Fanout.beginPublish at hst
    split_ifs at hst
    all_goals
      cases hst
      exact .none rfl (fun _ => rfl) (by simp)
  | deliver wakes =>
    obtain ⟨pub, hpbl, hst⟩ := bind_eq_some_iff.mp hst
    cases hpen : pub.pending with
    | nil => simp [hpen] at hst
    | cons sub rest =>
      rw [hpen] at hst
      obtain ⟨rcv, hlk, hst⟩ := bind_eq_some_iff.mp hst
      exact change_of_deliverTo hlk (Option.some.inj hst)
  | finish =>
    obtain ⟨pub, hpbl, hst⟩ := bind_eq_some_iff.mp hst
    split_ifs at hst
    cases hst
    exact .none rfl (fun _ => rfl) (by simp)
  | take sub =>
    obtain ⟨rcv, hlk, hst⟩ := bind_eq_some_iff.mp hst
    exact change_of_take hlk (Option.some.inj hst)
  | acknowledge sub delivery =>
    obtain ⟨rcv, hlk, hst⟩ := bind_eq_some_iff.mp hst
    replace hst := Option.some.inj hst
    unfold Fanout.acknowledge at hst
    split at hst
    · cases hst
      exact .none rfl (fun _ => rfl) (by simp)
    · cases hst
      exact .one sub rcv _ hlk rfl rfl (by simp [takenNow]) (fun _ _ => rfl) (by simp)
  | closeMailbox sub =>
    obtain ⟨rcv, hlk, hst⟩ := bind_eq_some_iff.mp hst
    cases hst
    exact .one sub rcv _ hlk rfl rfl (by simp [takenNow]) (fun _ _ => rfl) (by simp)
  | unregister sub | close =>
    rw [Fanout.step] at hst
    split_ifs at hst
    cases hst
    exact .none rfl (fun _ => rfl) (by simp)

/-- What is noted about the subscribers is what happened in the run. -/
structure Noted (tr : List (Fanout × LiveAction × LiveAnswer)) (s : Fanout) : Prop where
  taken : ∀ subscriber receiver, s.receivers.lookup subscriber = some receiver →
    receiver.taken = takenBy subscriber tr
  unknown : ∀ subscriber, s.receivers.lookup subscriber = none → takenBy subscriber tr = []
  since : ∀ e ∈ tr, ∀ subscriber, e.2 = (.subscribe, .subscribed subscriber) → ∃ receiver,
    s.receivers.lookup subscriber = some receiver ∧
      receiver.subscribedAfter = e.1.lastPublishedSequence

theorem takenBy_snoc (sub : ℕ) (tr : List (Fanout × LiveAction × LiveAnswer))
    (e : Fanout × LiveAction × LiveAnswer) :
    takenBy sub (tr ++ [e]) = takenBy sub tr ++ takenNow sub e.2 := by
  simp [takenBy]

/-- STEP: the notes are kept. -/
theorem Noted.step {e : LiveAction × LiveAnswer} (h : Noted tr s) (hinv : s.Inv lim)
    (hcha : Change s t e) : Noted (tr ++ [(s, e)]) t := by
  cases hcha with
  | none hsame htak hold =>
    refine ⟨?_, ?_, ?_⟩
    · intro sub rcv hlk
      rw [hsame] at hlk
      rw [takenBy_snoc, htak, append_nil, h.taken sub rcv hlk]
    · intro sub hlk
      rw [hsame] at hlk
      rw [takenBy_snoc, htak, h.unknown sub hlk, append_nil]
    · intro x hx sub hsub
      rw [hsame]
      rcases mem_snoc.mp hx with hx | rfl
      · exact h.since x hx sub hsub
      · exact absurd hsub (hold sub)
  | one changed rcv rcv' hlk hins haft htak hots hold =>
    refine ⟨?_, ?_, ?_⟩
    · intro sub found hfd
      rw [takenBy_snoc]
      rcases Table.insert_cases hins hfd with ⟨rfl, rfl⟩ | ⟨hne, hfd⟩
      · rw [htak, h.taken _ _ hlk]
      · rw [hots _ hne, append_nil, h.taken _ _ hfd]
    · intro sub hno
      rw [hins, Table.lookup_insert_ite] at hno
      split_ifs at hno with hsame
      rw [takenBy_snoc, hots _ hsame, h.unknown sub hno, append_nil]
    · intro x hx sub hsub
      rcases mem_snoc.mp hx with hx | rfl
      · obtain ⟨found, hfd, hsin⟩ := h.since x hx sub hsub
        rw [hins, Table.lookup_insert_ite]
        split_ifs with hsame
        · subst hsame
          cases hlk.symm.trans hfd
          exact ⟨rcv', rfl, haft.trans hsin⟩
        · exact ⟨found, hfd, hsin⟩
      · exact absurd hsub (hold sub)
  | new rcv hst hins haft htak =>
    have hfrh : s.receivers.lookup s.nextSubscriberId = none := by
      cases hlk : s.receivers.lookup s.nextSubscriberId with
      | none => rfl
      | some found => exact absurd (hinv.fresh _ _ hlk) (lt_irrefl _)
    have hnot : ∀ sub, takenNow sub e = [] := fun _ => by rw [hst]; rfl
    refine ⟨?_, ?_, ?_⟩
    · intro sub found hfd
      rw [takenBy_snoc, hnot, append_nil]
      rcases Table.insert_cases hins hfd with ⟨rfl, rfl⟩ | ⟨-, hfd⟩
      · rw [htak, h.unknown _ hfrh]
      · exact h.taken _ _ hfd
    · intro sub hno
      rw [hins, Table.lookup_insert_ite] at hno
      split_ifs at hno with hsame
      rw [takenBy_snoc, hnot, h.unknown sub hno, append_nil]
    · intro x hx sub hsub
      rw [hins, Table.lookup_insert_ite]
      rcases mem_snoc.mp hx with hx | rfl
      · obtain ⟨found, hfd, hsin⟩ := h.since x hx sub hsub
        rw [if_neg (fun hsame => by rw [hsame, hfrh] at hfd; cases hfd)]
        exact ⟨found, hfd, hsin⟩
      · have hid : s.nextSubscriberId = sub := by
          simpa using hst.symm.trans hsub
        rw [if_pos hid.symm]
        exact ⟨rcv, rfl, haft⟩

/-- RUN: the invariant and the notes at the end of every run. -/
theorem Inv.run (hrun : Run (Fanout.step lim) new tr s) : s.Inv lim ∧ Noted tr s := by
  induction hrun with
  | nil => exact ⟨inv_new, by simp [new], by simp [takenBy], by simp⟩
  | snoc _ hst ih => exact ⟨(ih.1.step hst).1, ih.2.step ih.1 (change_of_step hst)⟩

/-- CONTIGUOUS: in every run, what a subscriber takes covers every sequence after its subscription
    exactly once, in order, up to some sequence; its queue is bounded; between publications every
    open registered mailbox ends at the last one; and no publication fails at a mailbox. -/
theorem live_deliveries_contiguous {tr : List (Fanout × LiveAction × LiveAnswer)}
    (hrun : Run (Fanout.step lim) new tr s) :
    (∀ e ∈ tr, ∀ subscriber, e.2 = (.subscribe, .subscribed subscriber) →
      (∃ through, DeliveryTiles e.1.lastPublishedSequence (takenBy subscriber tr) through ∧
        ∀ n, e.1.lastPublishedSequence < n → n ≤ through → ∃! delivery,
          delivery ∈ takenBy subscriber tr ∧ delivery.firstSequence ≤ n ∧
            n ≤ delivery.throughSequence) ∧
      (takenBy subscriber tr).Pairwise (fun d e => d.throughSequence < e.firstSequence) ∧
      ∀ value, .sample value ∈ takenBy subscriber tr → value ∈ s.history) ∧
    (∀ subscriber receiver, s.receivers.lookup subscriber = some receiver →
      receiver.mailbox.queue.length ≤ lim.maximumBacklog) ∧
    (s.publication = none → ∀ subscriber ∈ s.subscribers, ∃ receiver,
      s.receivers.lookup subscriber = some receiver ∧ (receiver.mailbox.closed = false →
        receiver.mailbox.enqueuedThrough = s.lastPublishedSequence)) ∧
    ∀ e ∈ tr, ∀ wakes, e.2.1 = .deliver wakes → e.2.2 = .done := by
  obtain ⟨hinv, hnot⟩ := Inv.run hrun
  refine ⟨?_, ?_, ?_, ?_⟩
  · intro e he subscriber hsub
    obtain ⟨receiver, hlk, haft⟩ := hnot.since e he subscriber hsub
    obtain ⟨through, htil, -⟩ := (hinv.valid subscriber receiver hlk).taken
    rw [hnot.taken subscriber receiver hlk, haft] at htil
    refine ⟨⟨through, htil, fun n hlow hhigh => htil.existsUnique_covering hlow hhigh⟩,
      htil.pairwise, fun value hvl => ?_⟩
    rw [← hnot.taken subscriber receiver hlk] at hvl
    exact (hinv.valid subscriber receiver hlk).published value hvl
  · exact fun subscriber receiver hlk => (hinv.valid subscriber receiver hlk).mailbox.bounded
  · intro hidle subscriber hmem
    obtain ⟨receiver, hlk, hthr⟩ := hinv.registered subscriber hmem
    refine ⟨receiver, hlk, fun hopen => (hthr hopen).trans ?_⟩
    simp [expectedThrough, hidle]
  · intro e he wakes hdel
    obtain ⟨hbef, t, hst⟩ := hrun.step_of (fun _ _ => True) (Inv lim) inv_new
      (fun _ _ => trivial) (fun _ _ _ _ h _ hst => (h.step hst).1) e he
    exact (hbef.step hst).2 wakes hdel

def liveSample (sequence : UInt64) : Sample := ⟨sequence, 1, 1, {}, unknownTelemetry_cores_le⟩

def liveLimits : FanoutLimits := ⟨1, 2, le_rfl⟩

/-- A subscriber that takes a sample while the next ones overflow its queue. -/
def liveActions : List LiveAction :=
  [.subscribe, .publish (liveSample 1), .deliver true, .finish, .take 1, .publish (liveSample 4),
    .deliver true, .finish, .publish (liveSample 5), .deliver true, .finish,
    .acknowledge 1 (.sample (liveSample 1)), .take 1, .acknowledge 1 (.gap 2 4), .take 1]

theorem live_deliveries_contiguous_overflow : ∃ tr s e, Run (Fanout.step liveLimits) new tr s ∧
    e ∈ tr ∧ e.2 = (.subscribe, .subscribed 1) ∧
    takenBy 1 tr = [.sample (liveSample 1), .gap 2 4, .sample (liveSample 5)] ∧
    ∃ through, DeliveryTiles e.1.lastPublishedSequence (takenBy 1 tr) through := by
  obtain ⟨tr, s, hrun, ⟨e, he, hsub⟩, htak⟩ := Run.exists_of_exec
    (Fanout.step liveLimits) new liveActions
    (fun tr _ => (∃ e ∈ tr, e.2 = (.subscribe, .subscribed 1)) ∧
      takenBy 1 tr = [.sample (liveSample 1), .gap 2 4, .sample (liveSample 5)])
    (by decide +kernel)
  obtain ⟨⟨through, htil, -⟩, -⟩ := (live_deliveries_contiguous hrun).1 e he 1 hsub
  exact ⟨tr, s, e, hrun, he, hsub, htak, through, htil⟩

end Fanout

end LetsInfer.Watchdog
