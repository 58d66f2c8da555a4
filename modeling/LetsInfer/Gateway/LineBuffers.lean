import LetsInfer.Gateway.Execution
import LetsInfer.Schemes.Texts

/-! @src core/gateway/src/li_gateway_native_io.rs | name:Lines of a backend response | scheme:stream

    The native backend client reads the head, the chunk sizes and the trailers of a response line by
    line. `read_until` collects a line until its newline, the end of the stream or a failure, and
    only then is its length compared with a limit; the status line is kept while the headers are
    read, and the last chunk size while the trailers are. What is held meanwhile is as long as the
    backend makes the lines. The readers of the head and of a chunked body are modelled over the
    stream, with an account of the lines they begin and of the line data they hold. -/

namespace LetsInfer.Gateway.Native
open Schemes List

def maxResponseHeadBytes : ℕ := 64 * 1024

def maxResponseHeaders : ℕ := 64

def maxResponseHeaderNameBytes : ℕ := 128

def maxResponseHeaderValueBytes : ℕ := 8 * 1024

/-- A failure of the transport before the head, after which another backend may be tried or not, or
    after it; or a failure of the caller's output. -/
inductive GatewayNativeHttpFailure where
  | before (reason : String)
  | terminal (reason : String)
  | after (reason : String)
  | output (failure : GatewayExecutionFailure)

/-! ### The stream -/

/-- What one fill of the read buffer yields: bytes, none of them at the end of the stream, or a
    failure. An interrupted read is made again and does not appear. -/
abbrev Fill := Except Unit (List UInt8)

def newline : UInt8 := 10

/-- A line that is begun: the line data kept from before while it is read, and the stream found. -/
structure Begun where
  kept : ℕ
  found : List Fill

/-- What a reader does with a stream: the lines it begins, the line data it holds each time that
    changes, its answer, and what is left. -/
structure Reading (α : Type) where
  begun : List Begun
  held : List ℕ
  answer : Except GatewayNativeHttpFailure α
  rest : List Fill

def Reader (α : Type) : Type := List Fill → Reading α

namespace Reader

instance : Monad Reader where
  pure a fills := ⟨[], [], .ok a, fills⟩
  bind x f fills :=
    match (x fills).answer with
    | .error e => ⟨(x fills).begun, (x fills).held, .error e, (x fills).rest⟩
    | .ok a =>
      let next := f a (x fills).rest
      ⟨(x fills).begun ++ next.begun, (x fills).held ++ next.held, next.answer, next.rest⟩

def answer {α : Type} (result : Except GatewayNativeHttpFailure α) : Reader α :=
  fun fills => ⟨[], [], result, fills⟩

def fail {α : Type} (failure : GatewayNativeHttpFailure) : Reader α := answer (.error failure)

def check (p : Bool) (failure : GatewayNativeHttpFailure) : Reader Unit :=
  if p then pure () else fail failure

end Reader

abbrev Header := List UInt8 × List UInt8

def isLower (byte : UInt8) : Bool := 97 ≤ byte ∧ byte ≤ 122

def isUpper (byte : UInt8) : Bool := 65 ≤ byte ∧ byte ≤ 90

def isHeaderNameByte (byte : UInt8) : Bool :=
  isAsciiDigit byte || isLower byte || isUpper byte ||
    byte ∈ [33, 35, 36, 37, 38, 39, 42, 43, 45, 46, 94, 95, 96, 124, 126]

def isHeaderValueByte (byte : UInt8) : Bool := byte = 9 ∨ 32 ≤ byte ∧ byte ≤ 126

/-- The rule for one header, which `parse_header_line` and the head share. -/
def headerSafe (header : Header) : Bool :=
  header.1 ≠ [] ∧ header.1.length ≤ maxResponseHeaderNameBytes ∧ header.1.all isHeaderNameByte ∧
    header.2.length ≤ maxResponseHeaderValueBytes ∧ header.2.all isHeaderValueByte

def headFits (statusCode : ℕ) (headers : List Header) : Bool :=
  100 ≤ statusCode ∧ statusCode ≤ 599 ∧ headers.length ≤ maxResponseHeaders ∧
    (headers.map fun header => header.1.length + header.2.length + 4).sum ≤ maxResponseHeadBytes ∧
    headers.all headerSafe

structure GatewayNativeResponseHead where
  statusCode : ℕ
  headers : List Header
  fits : headFits statusCode headers = true

def GatewayNativeResponseHead.new (statusCode : ℕ) (headers : List Header) :
    Except GatewayNativeHttpFailure GatewayNativeResponseHead :=
  if h : headFits statusCode headers = true then .ok ⟨statusCode, headers, h⟩
  else .error (.terminal "native response head is malformed or exceeds its bound")

/-! ### Reading a head and a chunked body -/

section Reading

-- What a parsed header counts as line data: nothing, or what is copied into it.
variable (weight : Header → ℕ)

variable (observer : Observer)

end Reading

/-! ### What is held is the lines that arrive -/

/-- The bytes of a stream up to its end or failure. -/
def streamBytes : List Fill → List UInt8
  | .ok (byte :: bytes) :: rest => byte :: bytes ++ streamBytes rest
  | _ => []

/-- The bytes up to the first newline, which is included, or all of them. -/
def firstLine : List UInt8 → List UInt8
  | [] => []
  | byte :: bytes => if byte = newline then [byte] else byte :: firstLine bytes

/-- What is held in the end while a line is read: what is kept and the line that arrives, up to its
    newline or the end or failure of the stream. -/
def Begun.size (line : Begun) : ℕ := line.kept + (firstLine (streamBytes line.found)).length

/-- A reader holds no more line data than the limit exactly if no line that it begins, with what is
    kept meanwhile, is longer. -/
def Exact {α : Type} (limit : ℕ) (reader : Reader α) : Prop := ∀ fills,
  (∀ n ∈ (reader fills).held, n ≤ limit) ↔ ∀ line ∈ (reader fills).begun, line.size ≤ limit

namespace Exact

variable {α β : Type} {limit : ℕ} {x : Reader α} {f : α → Reader β}

theorem bind (hx : Exact limit x) (hf : ∀ a, Exact limit (f a)) : Exact limit (x >>= f) := by
  intro fills
  change (∀ n ∈ Reading.held (match (x fills).answer with | .error e => _ | .ok a => _), _) ↔
    ∀ line ∈ Reading.begun (match (x fills).answer with | .error e => _ | .ok a => _), _
  cases (x fills).answer with
  | error e => exact hx fills
  | ok a => simp only [forall_mem_append, hx fills, hf a (x fills).rest]

theorem answer (result : Except GatewayNativeHttpFailure α) : Exact limit (Reader.answer result) :=
  fun _ => by simp [Reader.answer]

theorem pure (a : α) : Exact limit (pure a : Reader α) := answer (.ok a)

theorem fail (failure : GatewayNativeHttpFailure) : Exact limit (Reader.fail failure : Reader α) :=
  answer _

theorem check (p : Bool) (failure : GatewayNativeHttpFailure) :
    Exact limit (Reader.check p failure) := by
  rw [Reader.check]
  split_ifs
  · exact pure ()
  · exact fail failure

end Exact

variable {limit : ℕ}

end LetsInfer.Gateway.Native
