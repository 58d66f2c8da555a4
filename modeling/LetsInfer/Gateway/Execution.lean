import LetsInfer.Gateway.Invariant

/-! @src core/gateway/src/li_gateway_execution.rs | name:One forwarded request | scheme:process

    `forward_public` and `forward_relay` drive the manager: admission, waiting in the queue, one
    attempt after another, and one manager call that ends the request. A call is a process with a
    stage; each of its actions is at most one critical section of the manager, and between two of
    them other calls take any steps that do not concern this request. What the clock, the routes,
    the safety check, the execution provider, the waiter, the client and the usage store answer is
    part of the action. -/

namespace LetsInfer.Gateway
open Schemes

def maxQueueWaitCycles : ℕ := 4096

def maxExecutionAttempts : ℕ := 64

structure GatewayExactUsage where
  inputTokens : ℕ
  outputTokens : ℕ
  cachedTokens : ℕ
  cached_le : cachedTokens ≤ inputTokens
  total_fits : inputTokens + outputTokens ≤ u64Max
  deriving DecidableEq

/-- Verifies that exact usage matches the admitted token envelope. -/
def GatewayExactUsage.validateFor (usage : GatewayExactUsage) (request : GatewayRequest) :
    Except GatewayError Unit :=
  if usage.inputTokens ≠ request.contextTokens.1 ∨
      request.maximumOutputTokens.1 < usage.outputTokens then
    .error (.invalidContract "exact Engine usage does not match the admitted token envelope")
  else .ok ()

inductive GatewayExecutionFailureKind where
  | retryableBackend
  | terminalBackend
  | client
  deriving DecidableEq

structure GatewayExecutionFailure where
  kind : GatewayExecutionFailureKind
  reason : String
  deriving DecidableEq

/-- What one forwarding attempt ended with, as the bounded response writer and the clock saw it. -/
structure Attempt where
  outcome : Except GatewayExecutionFailure GatewayExactUsage
  statusCode : Option ℕ
  bodyBytes : ℕ
  dispatchedAt : Option ℕ
  firstBodyAt : Option ℕ
  completedAt : Option ℕ

def Attempt.outputStarted (attempt : Attempt) : Bool := attempt.statusCode.isSome

def Attempt.timing (attempt : Attempt) (reservation : GatewayReservation) :
    GatewayTelemetryTiming :=
  .fromObservations reservation.queuedMilliseconds attempt.dispatchedAt attempt.firstBodyAt
    attempt.completedAt

structure GatewayExecutionReceipt where
  placementGroupId : PlacementGroupId
  statusCode : ℕ
  attemptCount : ℕ
  queuedMilliseconds : ℕ
  responseBodyBytes : ℕ
  usage : GatewayExactUsage
  deriving DecidableEq

/-- Maps an execution failure to the Gateway's error. -/
def executionError (failure : GatewayExecutionFailure) (outputStarted : Bool) : GatewayError :=
  .provider (if outputStarted then "execution_after_output" else "execution_before_output")
    failure.reason

/-- How an attempt is settled, with what the call then returns: by a completion, a cancellation or a
    failure, or not at all, by a retry. -/
inductive Settlement where
  | complete (completion : Completion) (receipt : GatewayExecutionReceipt)
  | cancel (error : GatewayError)
  | fail (error : GatewayError)
  | retry

/-- The match on the outcome of an attempt in `forward`. -/
def settle (request : GatewayRequest) (reservation : GatewayReservation) (attemptCount : ℕ)
    (attempt : Attempt) : Settlement :=
  match attempt.outcome with
  | .ok usage =>
    match attempt.statusCode with
    | none => .fail (.provider "execution" "provider completed without a response head")
    | some statusCode =>
      match usage.validateFor request with
      | .error e => .fail e
      | .ok () =>
        .complete ⟨usage.inputTokens, usage.outputTokens, usage.cachedTokens, true,
            attempt.timing reservation⟩
          ⟨reservation.route.placementGroupId, statusCode, attemptCount,
            reservation.queuedMilliseconds, attempt.bodyBytes, usage⟩
  | .error failure =>
    if failure.kind = .client then .cancel (executionError failure attempt.outputStarted)
    else if attempt.outputStarted then .fail (executionError failure true)
    else if failure.kind ≠ .retryableBackend then .fail (executionError failure false)
    else if maxExecutionAttempts ≤ attemptCount then
      .fail (.provider "execution_before_output"
        (if failure.reason = "" then "retry limit reached" else failure.reason))
    else .retry

/-! ### The stages of a call -/

inductive Stage where
  | start
  /-- Inside `admit_public`/`admit_relay`, as the call with this number. -/
  | admitting (call : ℕ)
  /-- At the head of the loop of `wait_for_reservation`. -/
  | waiting (ticket : GatewayQueueTicket) (cycles attempts : ℕ)
  /-- Between the two sections of `poll_queue`. -/
  | polling (ticket : GatewayQueueTicket) (poll : PollCall) (cycles attempts : ℕ)
  /-- The poll has answered that the request must wait. -/
  | parked (ticket : GatewayQueueTicket) (cycles attempts : ℕ)
  /-- `cancel_queue_after_error` is about to call `fail_queue`. -/
  | cleaning (ticket : GatewayQueueTicket) (error : GatewayError)
  | executing (reservation : GatewayReservation) (attemptCount : ℕ)
  /-- Completed; its usage is still to be written. -/
  | recording (usage : GatewayUsageRecord) (receipt : GatewayExecutionReceipt)
  | returned (answer : Except GatewayError GatewayExecutionReceipt)

def Stage.call : Stage → Option ℕ
  | .admitting call => some call
  | _ => none

/-- `reservation`: an admission leads to an attempt or to the queue. -/
def entered (attempts : ℕ) : GatewayAdmission → Stage
  | .admitted reservation => .executing reservation (attempts + 1)
  | .queued ticket => .waiting ticket 0 attempts

/-- The next round of `wait_for_reservation`, or its end. -/
def nextCycle (ticket : GatewayQueueTicket) (cycles attempts : ℕ) : Stage :=
  if cycles + 1 < maxQueueWaitCycles then .waiting ticket (cycles + 1) attempts
  else .cleaning ticket (.provider "queue_wait" "wait cycle bound exceeded")

def afterAdmission (call : ℕ) : Output → Stage
  | .admission (.ok admission) => entered 0 admission
  | .refused e => .returned (.error e)
  | _ => .admitting call

def afterPollRead (ticket : GatewayQueueTicket) (cycles attempts : ℕ) : Output → Stage
  | .polling poll => .polling ticket poll cycles attempts
  | .polled (.error e) => .cleaning ticket e
  | _ => .waiting ticket cycles attempts

def afterPollCommit (ticket : GatewayQueueTicket) (cycles attempts : ℕ) : Output → Stage
  | .polled (.ok (.admitted reservation)) => .executing reservation (attempts + 1)
  | .polled (.error e) => .cleaning ticket e
  | _ => .parked ticket cycles attempts

def afterWait (ticket : GatewayQueueTicket) (cycles attempts : ℕ)
    (connected : Except GatewayExecutionFailure Bool) (wait : Except GatewayError Unit) : Stage :=
  match connected with
  | .ok true =>
    match wait with
    | .ok () => nextCycle ticket cycles attempts
    | .error e => .cleaning ticket e
  | _ => .cleaning ticket (.provider "queue_wait" "client disconnected while queued")

/-- `cancel_queue_after_error` keeps the first error unless the clean-up fails for another reason
    than a missing entry. -/
def afterCleanup (error : GatewayError) : Output → Stage
  | .finished (.error e) => .returned (.error (if e = .requestNotFound then error else e))
  | _ => .returned (.error error)

def afterComplete (receipt : GatewayExecutionReceipt) : Output → Stage
  | .completed (.ok (some usage)) => .recording usage receipt
  | .completed (.error e) => .returned (.error e)
  | _ => .returned (.ok receipt)

/-- A manager call that ends the request and returns an error of its own if it fails. -/
def afterEnd (error : GatewayError) : Output → Stage
  | .finished (.error e) => .returned (.error e)
  | _ => .returned (.error error)

def afterRetry (attempts : ℕ) : Output → Stage
  | .admission (.ok admission) => entered attempts admission
  | .admission (.error e) => .returned (.error e)
  | _ => .returned (.error .stateUnavailable)

def afterRecord (receipt : GatewayExecutionReceipt) : Output → Stage
  | .finished (.error e) => .returned (.error e)
  | _ => .returned (.ok receipt)

/-! ### The process among others -/

/-- A Gateway with one call of interest in it. -/
structure World where
  sys : Sys
  stage : Stage := .start

inductive Act where
  /-- A step of some other call. -/
  | other (label : Label)
  | receive
  /-- A step inside the admission call. -/
  | admission (label : Label)
  | poll (now : Except GatewayError UnixMilliseconds)
  | commit (routes : Except GatewayError (List GatewayRoute)) (safety : PlacementSafety)
  | wait (connected : Except GatewayExecutionFailure Bool) (wait : Except GatewayError Unit)
  | cleanup (now : Except GatewayError UnixMilliseconds)
  /-- An attempt and the manager call that settles it. -/
  | attempt (attempt : Attempt) (now : Except GatewayError UnixMilliseconds)
      (routes : Except GatewayError (List GatewayRoute)) (safety : PlacementSafety)
  | record (failure : Option GatewayError)

def ofCall (call : ℕ) : Label → Bool
  | .prepare n _ _ _ _ => n = call
  | .fetch n _ => n = call
  | .admitSection n => n = call
  | .recordFailure n => n = call
  | _ => false

/-- A step of a call for another request: another identity, and not this admission call. The process
    itself is not restarted. -/
def foreign (id : Sha256Digest) (stage : Stage) : Label → Bool
  | .receive request => request.requestId ≠ id
  | .prepare n _ _ _ _ => stage.call ≠ some n
  | .fetch n _ => stage.call ≠ some n
  | .admitSection n => stage.call ≠ some n
  | .recordFailure n => stage.call ≠ some n
  | .pollRead ticket _ => ticket.requestId ≠ id
  | .pollCommit poll _ _ => poll.requestId ≠ id
  | .cancelQueue ticket _ => ticket.requestId ≠ id
  | .failQueue ticket _ => ticket.requestId ≠ id
  | .complete reservation _ _ => reservation.request.requestId ≠ id
  | .record usage _ => usage.requestId ≠ id
  | .cancel reservation _ => reservation.request.requestId ≠ id
  | .retry reservation _ _ _ => reservation.request.requestId ≠ id
  | .fail reservation _ _ => reservation.request.requestId ≠ id
  | .snapshot _ => true
  | .restart => false

/-- One step of the manager, and the stage its answer leads to. -/
def World.take (mode : GatewayMode) (w : World) (label : Label) (next : Output → Stage) :
    Option (World × Unit) :=
  (step mode w.sys label).map fun r => (⟨r.1, next r.2⟩, ())

/-- One action of the call or of another. -/
def World.step (mode : GatewayMode) (request : GatewayRequest) (w : World) :
    Act → Option (World × Unit)
  | .other label =>
    if foreign request.requestId w.stage label then w.take mode label fun _ => w.stage else none
  | .receive =>
    match w.stage with
    | .start => w.take mode (.receive request) fun _ => .admitting w.sys.calls
    | _ => none
  | .admission label =>
    match w.stage with
    | .admitting call =>
      if ofCall call label then w.take mode label (afterAdmission call) else none
    | _ => none
  | .poll now =>
    match w.stage with
    | .waiting ticket cycles attempts =>
      w.take mode (.pollRead ticket now) (afterPollRead ticket cycles attempts)
    | _ => none
  | .commit routes safety =>
    match w.stage with
    | .polling ticket poll cycles attempts =>
      w.take mode (.pollCommit poll routes safety) (afterPollCommit ticket cycles attempts)
    | _ => none
  | .wait connected wait =>
    match w.stage with
    | .parked ticket cycles attempts =>
      some ({ w with stage := afterWait ticket cycles attempts connected wait }, ())
    | _ => none
  | .cleanup now =>
    match w.stage with
    | .cleaning ticket e => w.take mode (.failQueue ticket now) (afterCleanup e)
    | _ => none
  | .attempt attempt now routes safety =>
    match w.stage with
    | .executing reservation attemptCount =>
      match settle request reservation attemptCount attempt with
      | .complete completion receipt =>
        w.take mode (.complete reservation now completion) (afterComplete receipt)
      | .cancel e =>
        w.take mode (.cancel reservation (attempt.timing reservation)) (afterEnd e)
      | .fail e =>
        w.take mode (.fail reservation now (attempt.timing reservation)) (afterEnd e)
      | .retry => w.take mode (.retry reservation now routes safety) (afterRetry attemptCount)
    | _ => none
  | .record failure =>
    match w.stage with
    | .recording usage receipt => w.take mode (.record usage failure) (afterRecord receipt)
    | _ => none

end LetsInfer.Gateway
