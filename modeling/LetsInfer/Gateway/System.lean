import LetsInfer.Schemes.Runs
import LetsInfer.Gateway.Manager
import LetsInfer.Gateway.UsageStore

/-! @src core/gateway/src/li_gateway_manager.rs | name:Gateway manager as a system | scheme:interleaving

    One Gateway process under concurrent callers. A step is one critical section of one call, or
    one call out to the usage store; everything a caller or a provider decides is in the step's
    label, so a run is one interleaving of any number of calls with any provider behaviour. Calls
    that hold something between two critical sections are part of the state: admissions, polls,
    the reservations handed out (used linearly: an operation on a reservation consumes it), and the
    usage records not yet written. A restart forgets all of it and keeps the database. -/

namespace LetsInfer.Gateway
open Schemes

/-- How far one `admit_public`/`admit_relay` call has come. -/
inductive AdmissionPhase where
  /-- `record_received` has run. -/
  | received
  /-- The credential, the clock and the routes are known, and whether usage must be loaded. -/
  | prepared (arrival : Arrival) (loadUsage : Bool)
  /-- The usage snapshot is known; the admission section is next. -/
  | fetched (arrival : Arrival) (recent : List GatewayUsageRecord)
  /-- The call has failed; its terminal counter is still to be recorded. -/
  | failed (error : GatewayError)

structure AdmissionCall where
  request : GatewayRequest
  phase : AdmissionPhase

/-- One `poll_queue` call between its two critical sections. -/
structure PollCall where
  requestId : Sha256Digest
  now : UnixMilliseconds
  request : GatewayRequest
  deriving DecidableEq

/-- A Gateway process with the calls in flight, and the database behind it. -/
structure Sys where
  state : GatewayState := {}
  /-- Calls to an admission entry point so far; each has its number. -/
  calls : ℕ := 0
  admissions : Table ℕ AdmissionCall := ∅
  polls : List PollCall := []
  held : List GatewayReservation := []
  unrecorded : List GatewayUsageRecord := []
  usage : UsageDatabase := {}

inductive Label where
  | receive (request : GatewayRequest)
  | prepare (call : ℕ) (surface : Surface) (now : Except GatewayError UnixMilliseconds)
      (routes : Except GatewayError (List GatewayRoute)) (safety : PlacementSafety)
  | fetch (call : ℕ) (failure : Option GatewayError)
  | admitSection (call : ℕ)
  | recordFailure (call : ℕ)
  | pollRead (ticket : GatewayQueueTicket) (now : Except GatewayError UnixMilliseconds)
  | pollCommit (poll : PollCall) (routes : Except GatewayError (List GatewayRoute))
      (safety : PlacementSafety)
  | cancelQueue (ticket : GatewayQueueTicket) (now : Except GatewayError UnixMilliseconds)
  | failQueue (ticket : GatewayQueueTicket) (now : Except GatewayError UnixMilliseconds)
  | complete (reservation : GatewayReservation)
      (completedAt : Except GatewayError UnixMilliseconds) (completion : Completion)
  | record (usage : GatewayUsageRecord) (failure : Option GatewayError)
  | cancel (reservation : GatewayReservation) (timing : GatewayTelemetryTiming)
  | retry (reservation : GatewayReservation) (now : Except GatewayError UnixMilliseconds)
      (routes : Except GatewayError (List GatewayRoute)) (safety : PlacementSafety)
  | fail (reservation : GatewayReservation) (now : Except GatewayError UnixMilliseconds)
      (timing : GatewayTelemetryTiming)
  | snapshot (now : Except GatewayError UnixMilliseconds)
  | restart

/-- What a step answers to its caller. -/
inductive Output where
  | silent
  | started (call : ℕ)
  | refused (error : GatewayError)
  | admission (answer : Except GatewayError GatewayAdmission)
  | polling (poll : PollCall)
  | polled (answer : Except GatewayError GatewayQueueStatus)
  | finished (answer : Except GatewayError Unit)
  | completed (answer : Except GatewayError (Option GatewayUsageRecord))

/-- What `admit_public`/`admit_relay` do before the admission section, without the lock. -/
def arrive (mode : GatewayMode) (request : GatewayRequest) (surface : Surface)
    (now : Except GatewayError UnixMilliseconds)
    (routes : Except GatewayError (List GatewayRoute)) (safety : PlacementSafety) :
    Except GatewayError Arrival :=
  match authorizeSurface mode surface with
  | .error e => .error e
  | .ok principal =>
    match now with
    | .error e => .error e
    | .ok now =>
      match currentRoutes mode request.model safety routes with
      | .error e => .error e
      | .ok routes => .ok ⟨request, principal, now, routes⟩

/-- Whether an arrival still has to load its key's usage. -/
def shouldLoadUsage (state : GatewayState) (arrival : Arrival) : Bool :=
  match arrival.principal with
  | none => false
  | some principal => principal.keyId ∉ state.loadedKeys

/-- What the usage store answers to an arrival; nothing is asked when nothing must be loaded. -/
def fetchUsage (usage : UsageDatabase) (arrival : Arrival) (loadUsage : Bool)
    (failure : Option GatewayError) : Except GatewayError (List GatewayUsageRecord) :=
  match arrival.principal with
  | some principal =>
    if loadUsage then
      match failure with
      | some e => .error e
      | none => usage.recent principal.keyId arrival.since
    else .ok []
  | none => .ok []

/-- The same call in its next phase. -/
def Sys.setPhase (s : Sys) (call : ℕ) (request : GatewayRequest) (phase : AdmissionPhase) : Sys :=
  { s with admissions := s.admissions.insert call ⟨request, phase⟩ }

def holdAdmission (held : List GatewayReservation) :
    Except GatewayError GatewayAdmission → List GatewayReservation
  | .ok (.admitted reservation) => reservation :: held
  | _ => held

def holdPoll (held : List GatewayReservation) :
    Except GatewayError GatewayQueueStatus → List GatewayReservation
  | .ok (.admitted reservation) => reservation :: held
  | _ => held

def holdUsage (unrecorded : List GatewayUsageRecord) :
    Except GatewayError (Option GatewayUsageRecord) → List GatewayUsageRecord
  | .ok (some usage) => usage :: unrecorded
  | _ => unrecorded

/-- The admission section of a call, and where it leaves the call. -/
def Sys.admitCall (s : Sys) (call : ℕ) (request : GatewayRequest) (arrival : Arrival)
    (recent : List GatewayUsageRecord) : Sys × Output :=
  let (answer, state) := admitSection s.state arrival recent
  let s : Sys := { s with state := state, held := holdAdmission s.held answer }
  match answer with
  | .error e => (s.setPhase call request (.failed e), .admission answer)
  | .ok _ => ({ s with admissions := s.admissions.erase call }, .admission answer)

/-- One step of the system; `none` when the label names a call or reservation that is not there. -/
def step (mode : GatewayMode) (s : Sys) : Label → Option (Sys × Output)
  | .receive request =>
    some ({ s with
      state := { s.state with telemetry := s.state.telemetry.recordReceived }
      calls := s.calls + 1
      admissions := s.admissions.insert s.calls ⟨request, .received⟩ }, .started s.calls)
  | .prepare call surface now routes safety =>
    match s.admissions.lookup call with
    | some ⟨request, .received⟩ =>
      match arrive mode request surface now routes safety with
      | .error e => some (s.setPhase call request (.failed e), .silent)
      | .ok arrival =>
        some (s.setPhase call request (.prepared arrival (shouldLoadUsage s.state arrival)),
          .silent)
    | _ => none
  | .fetch call failure =>
    match s.admissions.lookup call with
    | some ⟨request, .prepared arrival loadUsage⟩ =>
      match fetchUsage s.usage arrival loadUsage failure with
      | .error e => some (s.setPhase call request (.failed e), .silent)
      | .ok recent => some (s.setPhase call request (.fetched arrival recent), .silent)
    | _ => none
  | .admitSection call =>
    match s.admissions.lookup call with
    | some ⟨request, .fetched arrival recent⟩ => some (s.admitCall call request arrival recent)
    | _ => none
  | .recordFailure call =>
    match s.admissions.lookup call with
    | some ⟨_, .failed e⟩ =>
      some ({ s with
        state := { s.state with telemetry := s.state.telemetry.recordUnroutedFailure }
        admissions := s.admissions.erase call }, .refused e)
    | _ => none
  | .pollRead ticket now =>
    match now, s.state.queued.lookup ticket.requestId with
    | .error e, _ => some (s, .polled (.error e))
    | .ok _, none => some (s, .polled (.error .requestNotFound))
    | .ok now, some queued =>
      let poll : PollCall := ⟨ticket.requestId, now, queued.request⟩
      some ({ s with polls := poll :: s.polls }, .polling poll)
  | .pollCommit poll routes safety =>
    if poll ∈ s.polls then
      let s : Sys := { s with polls := s.polls.erase poll }
      match currentRoutes mode poll.request.model safety routes with
      | .error e => some (s, .polled (.error e))
      | .ok routes =>
        let (answer, state) := pollSection s.state poll.requestId poll.request poll.now routes
        some ({ s with state := state, held := holdPoll s.held answer }, .polled answer)
    else none
  | .cancelQueue ticket now =>
    let (answer, state) := cancelQueue s.state ticket.requestId now
    some ({ s with state := state }, .finished answer)
  | .failQueue ticket now =>
    let (answer, state) := failQueue s.state ticket.requestId now
    some ({ s with state := state }, .finished answer)
  | .complete reservation completedAt completion =>
    if reservation ∈ s.held then
      let (answer, state) := completeRequest s.state reservation completedAt completion
      some ({ s with
        state := state
        held := s.held.erase reservation
        unrecorded := holdUsage s.unrecorded answer }, .completed answer)
    else none
  | .record usage failure =>
    if usage ∈ s.unrecorded then
      let s : Sys := { s with unrecorded := s.unrecorded.erase usage }
      match failure with
      | some e => some (s, .finished (.error e))
      | none =>
        let (answer, database) := s.usage.record usage
        some ({ s with usage := database }, .finished answer)
    else none
  | .cancel reservation timing =>
    if reservation ∈ s.held then
      let (answer, state) := cancelWithTiming s.state reservation timing
      some ({ s with state := state, held := s.held.erase reservation }, .finished answer)
    else none
  | .retry reservation now routes safety =>
    if reservation ∈ s.held then
      let routes := currentRoutes mode reservation.request.model safety routes
      let (answer, state) := retryBeforeOutput s.state reservation now routes
      some ({ s with
        state := state
        held := holdAdmission (s.held.erase reservation) answer }, .admission answer)
    else none
  | .fail reservation now timing =>
    if reservation ∈ s.held then
      let (answer, state) := failReservation s.state reservation now timing
      some ({ s with state := state, held := s.held.erase reservation }, .finished answer)
    else none
  | .snapshot now =>
    match now with
    | .error e => some (s, .finished (.error e))
    | .ok now =>
      some ({ s with
        state := { s.state with telemetry := s.state.telemetry.pruneSamples now } },
        .finished (.ok ()))
  | .restart => some ({ usage := s.usage }, .silent)

end LetsInfer.Gateway
