import LetsInfer.Gateway.Telemetry
import LetsInfer.Watchdog.Contract
import LetsInfer.Schemes.Checks
import LetsInfer.Schemes.Ordered

/-! @src core/gateway/src/li_gateway_telemetry.rs | name:Telemetry between the services | scheme:codec

    The Gateway writes its counters as lines in alphabetical order, from an array by index; the
    Watchdog reads them by name into an array of its own. Both orders are written by hand. What the
    Watchdog reads is what the Gateway wrote, at the same indices. -/

namespace LetsInfer.Watchdog
open Schemes List

/-! ### Writing -/

structure GatewayTelemetryV2Record where
  activeRequests : UInt32
  connectedClients : UInt32
  queuedRequests : UInt32
  counters : Fin 16 → UInt64

/-- The fields in the order they are written in, which is that of their names. -/
def payloadFields (record : GatewayTelemetryV2Record) : List (String × ℕ) :=
  [("active_requests", record.activeRequests.toNat),
    ("cached_tokens", (record.counters 8).toNat),
    ("connected_clients", record.connectedClients.toNat),
    ("decode_milliseconds", (record.counters 11).toNat),
    ("exact_token_requests", (record.counters 12).toNat),
    ("input_tokens", (record.counters 6).toNat),
    ("output_tokens", (record.counters 7).toNat),
    ("prefix_cache_hits", (record.counters 13).toNat),
    ("queue_milliseconds", (record.counters 9).toNat),
    ("queued_requests", record.queuedRequests.toNat),
    ("requests_admitted", (record.counters 1).toNat),
    ("requests_cancelled", (record.counters 4).toNat),
    ("requests_completed", (record.counters 2).toNat),
    ("requests_failed", (record.counters 3).toNat),
    ("requests_received", (record.counters 0).toNat),
    ("requests_retried", (record.counters 5).toNat),
    ("ttft_milliseconds", (record.counters 10).toNat),
    ("usage_records_dropped", (record.counters 14).toNat),
    ("usage_write_errors", (record.counters 15).toNat)]

def payloadLine (field : String × ℕ) : Text := text field.1 ++ 61 :: decimal field.2

def GatewayTelemetryV2Record.payload (record : GatewayTelemetryV2Record) : Text :=
  joinTerminated 10 (text "version=2" :: (payloadFields record).map payloadLine)

/-- The bound of the Gateway. -/
def telemetryV2MaxBytes : ℕ := 4096

/-! ### Reading -/

/-- The bound of the Watchdog. -/
def watchdogGatewayTelemetryMaxBytes : ℕ := 4096

def watchdogGatewayTelemetryFields : ℕ := 19

structure WatchdogGatewayTelemetry where
  activeRequests : UInt32
  connectedClients : UInt32
  queuedRequests : UInt32
  counters : Fin 16 → UInt64

def gatewayTelemetryError (reason : String) : WatchdogError := .invalidContract reason

/-- One line, after the version seen so far and the fields. -/
def telemetryField (found : Bool × List (Text × Text)) (line : Text) :
    Except WatchdogError (Bool × List (Text × Text)) :=
  match (splitOnce 61 line).filter fun parts => decide (parts.2 ≠ [] ∧ 61 ∉ parts.2) with
  | none => .error (gatewayTelemetryError "gateway telemetry field is malformed")
  | some (name, value) =>
    if name = text "version" then
      if found.1 ∨ value ≠ text "2" then
        .error (gatewayTelemetryError "gateway telemetry version is invalid")
      else .ok (true, found.2)
    else if (lookupKey name found.2).isSome then
      .error (gatewayTelemetryError "gateway telemetry field is duplicated")
    else .ok (found.1, insertKey name value found.2)

def numericField (fields : List (Text × Text)) (name : String) : Except WatchdogError ℕ :=
  match lookupKey (text name) fields with
  | none => .error (gatewayTelemetryError "gateway telemetry field is missing")
  | some value =>
    if !value.all isAsciiDigit then
      .error (gatewayTelemetryError "gateway telemetry value is invalid")
    else if value = [] ∨ u64Bound ≤ decimalValue value then
      .error (gatewayTelemetryError "gateway telemetry value is out of range")
    else .ok (decimalValue value)

def u32Value (fields : List (Text × Text)) (name : String) : Except WatchdogError UInt32 := do
  let value ← numericField fields name
  if 2 ^ 32 ≤ value then throw (gatewayTelemetryError "gateway telemetry value is out of range")
  return .ofNat value

/-- The names of the counters, in the order of their indices. -/
def counterNames : List String :=
  ["requests_received", "requests_admitted", "requests_completed", "requests_failed",
    "requests_cancelled", "requests_retried", "input_tokens", "output_tokens", "cached_tokens",
    "queue_milliseconds", "ttft_milliseconds", "decode_milliseconds", "exact_token_requests",
    "prefix_cache_hits", "usage_records_dropped", "usage_write_errors"]

def parseGatewayTelemetry (source : Text) : Except WatchdogError WatchdogGatewayTelemetry := do
  if !isUtf8 source then throw (gatewayTelemetryError "gateway telemetry text is invalid")
  if 0 ∈ source then throw (gatewayTelemetryError "gateway telemetry framing is invalid")
  let found ← (textLines source).foldlM telemetryField (false, [])
  if found.1 = false ∨ found.2.length ≠ watchdogGatewayTelemetryFields then
    throw (gatewayTelemetryError "gateway telemetry record is incomplete")
  let counters ← counterNames.mapM (numericField found.2)
  let activeRequests ← u32Value found.2 "active_requests"
  let connectedClients ← u32Value found.2 "connected_clients"
  let queuedRequests ← u32Value found.2 "queued_requests"
  return ⟨activeRequests, connectedClients, queuedRequests,
    fun index => .ofNat (counters.getD index 0)⟩

/-! ### Lines of numbers -/

variable {fld : String × ℕ} {found : Bool × List (Text × Text)}

/-- The name of a field: not the version, and without a byte that ends a name or a line. -/
def isFieldName (name : String) : Bool :=
  text name ≠ text "version" ∧ (text name).all fun byte => decide (byte ≤ 0x7F ∧ byte ∉ [0, 10, 13, 61])

theorem digit_bytes : ∀ byte : UInt8, isAsciiDigit byte → byte ≤ 0x7F ∧ byte ∉ [0, 10, 13, 61] := by
  decide +kernel

theorem mem_payloadLine (h : isFieldName fld.1) {byte : UInt8} (hb : byte ∈ payloadLine fld) :
    byte ≤ 0x7F ∧ byte ∉ [0, 10, 13] := by
  simp only [isFieldName, decide_eq_true_eq, all_eq_true] at h
  rcases mem_append.mp hb with hb | hb
  · obtain ⟨hasc, hnot⟩ := h.2 byte hb
    exact ⟨hasc, fun hmem => hnot (by simp at hmem ⊢; tauto)⟩
  · rcases mem_cons.mp hb with rfl | hb
    · decide
    · obtain ⟨hasc, hnot⟩ := digit_bytes byte (isAsciiDigit_of_mem_decimal hb)
      exact ⟨hasc, fun hmem => hnot (by simp at hmem ⊢; tauto)⟩

/-- STEP: a line of a number is added to the fields. -/
theorem telemetryField_payloadLine (h : isFieldName fld.1)
    (hnew : ∀ old ∈ found.2, old.1 < text fld.1) : telemetryField found (payloadLine fld) =
      .ok (found.1, found.2 ++ [(text fld.1, decimal fld.2)]) := by
  simp only [isFieldName, decide_eq_true_eq, all_eq_true] at h
  have hname : (61 : UInt8) ∉ text fld.1 := fun hmem => (h.2 61 hmem).2 (by decide)
  have hvl : (61 : UInt8) ∉ decimal fld.2 :=
    fun hmem => (digit_bytes 61 (isAsciiDigit_of_mem_decimal hmem)).2 (by decide)
  have hfrh : lookupKey (text fld.1) found.2 = none :=
    lookupKey_eq_none.mpr fun old hold => ne_of_lt (hnew old hold)
  rw [telemetryField, payloadLine, splitOnce_append hname]
  simp only [Option.filter_some, decimal_ne_nil, hvl, ne_eq, not_false_eq_true, and_self,
    decide_true, if_true, h.1, if_false, hfrh, Option.isSome_none, Bool.false_eq_true,
    insertKey_eq_append hnew]

/-- RUN: lines of numbers in the order of their names. -/
theorem foldlM_payloadLines {fields : List (String × ℕ)} (h : ∀ fld ∈ fields, isFieldName fld.1)
    (hord : fields.Pairwise fun a b => text a.1 < text b.1)
    (hnew : ∀ fld ∈ fields, ∀ old ∈ found.2, old.1 < text fld.1) :
    (fields.map payloadLine).foldlM telemetryField found =
      .ok (found.1, found.2 ++ fields.map fun fld => (text fld.1, decimal fld.2)) := by
  induction fields generalizing found with
  | nil => simp
  | cons fld fields ih =>
    have hself : fld ∈ fld :: fields := mem_cons_self
    obtain ⟨hhead, htail⟩ := pairwise_cons.mp hord
    rw [map_cons, foldlM_cons, telemetryField_payloadLine (h fld hself) (hnew fld hself),
      ok_bind, ih (fun f hf => h f (mem_cons_of_mem _ hf)) htail]
    · simp
    · intro f hf old hold
      rcases mem_append.mp hold with hold | hold
      · exact hnew f (mem_cons_of_mem _ hf) old hold
      · rw [mem_singleton.mp hold]
        exact hhead f hf

/-! ### The payload -/

section Payload

variable (rcd : GatewayTelemetryV2Record)

theorem payloadFields_names : ∀ fld ∈ payloadFields rcd, isFieldName fld.1 = true := by
  have hnms : ∀ name ∈ (payloadFields rcd).map (·.1), isFieldName name = true := by
    simp only [payloadFields, map_cons, map_nil]
    decide
  exact fun fld hfld => hnms fld.1 (mem_map_of_mem hfld)

theorem payloadFields_ordered : (payloadFields rcd).Pairwise fun a b => text a.1 < text b.1 := by
  have hnms : ((payloadFields rcd).map fun fld => text fld.1).Pairwise (· < ·) := by
    simp only [payloadFields, map_cons, map_nil]
    decide +kernel
  exact pairwise_map.mp hnms

theorem payloadFields_lt : ∀ fld ∈ payloadFields rcd, fld.2 < u64Bound := by
  have hgau : ∀ v : UInt32, v.toNat < u64Bound := fun v =>
    v.toNat_lt.trans (by decide)
  have hcou : ∀ v : UInt64, v.toNat < u64Bound := fun v => v.toNat_lt
  simp only [payloadFields, forall_mem_cons, not_mem_nil, false_imp_iff, forall_true_iff,
    hgau, hcou, and_self]

/-- The fields of a payload that is read. -/
def telemetryTexts (record : GatewayTelemetryV2Record) : List (Text × Text) :=
  (payloadFields record).map fun field => (text field.1, decimal field.2)

theorem foldlM_payload : (textLines rcd.payload).foldlM telemetryField (false, []) =
    .ok (true, telemetryTexts rcd) := by
  have hlin : ∀ line ∈ text "version=2" :: (payloadFields rcd).map payloadLine,
      (10 : UInt8) ∉ line ∧ (13 : UInt8) ∉ line := by
    intro line hline
    rcases mem_cons.mp hline with rfl | hline
    · decide
    · obtain ⟨fld, hfld, rfl⟩ := mem_map.mp hline
      have hname := payloadFields_names rcd fld hfld
      exact ⟨fun hmem => (mem_payloadLine hname hmem).2 (by decide),
        fun hmem => (mem_payloadLine hname hmem).2 (by decide)⟩
  have hver : telemetryField (false, []) (text "version=2") = .ok (true, []) := rfl
  rw [GatewayTelemetryV2Record.payload, textLines_joinTerminated hlin, foldlM_cons, hver,
    ok_bind, foldlM_payloadLines (payloadFields_names rcd) (payloadFields_ordered rcd) (by simp)]
  rfl

theorem telemetryTexts_ordered : Ordered (telemetryTexts rcd) :=
  pairwise_map.mpr (payloadFields_ordered rcd)

theorem numericField_telemetryTexts (h : fld ∈ payloadFields rcd) :
    numericField (telemetryTexts rcd) fld.1 = .ok fld.2 := by
  have hlk : lookupKey (text fld.1) (telemetryTexts rcd) = some (decimal fld.2) :=
    (lookupKey_eq_some (telemetryTexts_ordered rcd)).mpr
      (mem_map_of_mem (f := fun fld : String × ℕ => (text fld.1, decimal fld.2)) h)
  have hdig : (decimal fld.2).all isAsciiDigit :=
    all_eq_true.mpr fun byte hbyte => isAsciiDigit_of_mem_decimal hbyte
  have hbd := not_le.mpr (payloadFields_lt rcd fld h)
  simp only [numericField, hlk, hdig, Bool.not_true, Bool.false_eq_true, if_false,
    decimal_ne_nil, decimalValue_decimal, hbd, or_self]

theorem u32Value_telemetryTexts {name : String} {v : UInt32}
    (h : (name, v.toNat) ∈ payloadFields rcd) : u32Value (telemetryTexts rcd) name = .ok v := by
  have hbd := not_le.mpr v.toNat_lt
  simp only [u32Value, numericField_telemetryTexts rcd h, ok_bind, if_neg hbd, UInt32.ofNat_toNat]
  rfl

/-- The counters by their names in the order of the array. -/
def counterFields (record : GatewayTelemetryV2Record) : List (String × ℕ) :=
  counterNames.zip (List.ofFn fun index => (record.counters index).toNat)

theorem counterFields_subset : counterFields rcd ⊆ payloadFields rcd := by
  intro fld hfld
  simp only [counterFields, counterNames, ofFn_succ, ofFn_zero, zip_cons_cons,
    zip_nil_right, mem_cons, not_mem_nil, or_false] at hfld
  rcases hfld with rfl | rfl | rfl | rfl | rfl | rfl | rfl | rfl | rfl | rfl | rfl | rfl | rfl | rfl |
    rfl | rfl <;> simp [payloadFields]

theorem mapM_numericField : counterNames.mapM (numericField (telemetryTexts rcd)) =
    .ok (List.ofFn fun idx => (rcd.counters idx).toNat) := by
  have hall : List.Forall₂ (fun name v => numericField (telemetryTexts rcd) name = .ok v)
      ((counterFields rcd).map (·.1)) ((counterFields rcd).map (·.2)) := by
    rw [List.forall₂_map_left_iff, List.forall₂_map_right_iff, List.forall₂_same]
    exact fun fld hfld =>
      numericField_telemetryTexts rcd (counterFields_subset rcd hfld)
  exact mapM_ok_iff.mpr hall

theorem payload_ascii : ∀ byte ∈ rcd.payload, byte ≤ 0x7F ∧ byte ≠ 0 := by
  intro byte hb
  obtain ⟨part, hpart, hb⟩ := mem_flatten.mp hb
  obtain ⟨line, hline, rfl⟩ := mem_map.mp hpart
  rcases mem_append.mp hb with hb | hb
  · rcases mem_cons.mp hline with rfl | hline
    · have hver : ∀ byte ∈ text "version=2", byte ≤ 0x7F ∧ byte ≠ 0 := by
        decide +kernel
      exact hver byte hb
    · obtain ⟨fld, hfld, rfl⟩ := mem_map.mp hline
      obtain ⟨hasc, hnot⟩ := mem_payloadLine (payloadFields_names rcd fld hfld) hb
      exact ⟨hasc, fun hzero => hnot (by simp [hzero])⟩
  · rw [mem_singleton.mp hb]
    decide

theorem length_payload_le : rcd.payload.length ≤ 900 := by
  have hline : ∀ line ∈ text "version=2" :: (payloadFields rcd).map payloadLine,
      line.length ≤ 44 := by
    intro line hline
    rcases mem_cons.mp hline with rfl | hline
    · decide
    · obtain ⟨fld, hfld, rfl⟩ := mem_map.mp hline
      have hnms : ∀ name ∈ (payloadFields rcd).map (·.1), (text name).length ≤ 21 := by
        simp only [payloadFields, map_cons, map_nil]
        decide +kernel
      have hname := hnms fld.1 (mem_map_of_mem hfld)
      have hdig : (decimal fld.2).length ≤ 20 :=
        length_decimal_le (by decide) ((payloadFields_lt rcd fld hfld).trans (by decide))
      simp only [payloadLine, length_append, length_cons]
      omega
  calc rcd.payload.length
      ≤ (text "version=2" :: (payloadFields rcd).map payloadLine).length * (44 + 1) :=
        length_joinTerminated_le hline
    _ = 900 := by simp [payloadFields]

end Payload

theorem parse_payload (rcd : GatewayTelemetryV2Record) :
    parseGatewayTelemetry rcd.payload = .ok ⟨rcd.activeRequests, rcd.connectedClients,
      rcd.queuedRequests, rcd.counters⟩ := by
  have hutf := isUtf8_of_ascii fun byte hb => (payload_ascii rcd byte hb).1
  have hzero : (0 : UInt8) ∉ rcd.payload := fun hmem => (payload_ascii rcd 0 hmem).2 rfl
  have hcom : ¬((true, telemetryTexts rcd).1 = false ∨
      (true, telemetryTexts rcd).2.length ≠ watchdogGatewayTelemetryFields) := by
    simp [telemetryTexts, payloadFields, watchdogGatewayTelemetryFields]
  have hctr : (fun idx : Fin 16 => UInt64.ofNat
      ((List.ofFn fun idx => (rcd.counters idx).toNat).getD idx 0)) = rcd.counters := by
    funext idx
    simp only [getD_eq_getElem?_getD, List.getElem?_ofFn, idx.isLt, dif_pos, Option.getD_some,
      UInt64.ofNat_toNat]
  simp only [parseGatewayTelemetry, hutf, hzero, Bool.not_true, Bool.false_eq_true, if_false,
    foldlM_payload rcd, ok_bind, if_neg hcom, mapM_numericField rcd,
    u32Value_telemetryTexts rcd (show ("active_requests", rcd.activeRequests.toNat) ∈
      payloadFields rcd by simp [payloadFields]),
    u32Value_telemetryTexts rcd (show ("connected_clients", rcd.connectedClients.toNat) ∈
      payloadFields rcd by simp [payloadFields]),
    u32Value_telemetryTexts rcd (show ("queued_requests", rcd.queuedRequests.toNat) ∈
      payloadFields rcd by simp [payloadFields]), hctr]
  rfl

/-- AGREEMENT: the Watchdog accepts the payload of every record, within the bounds of both sides,
    and reads the gauges and the counters at the indices they were written from. -/
theorem telemetry_v2_agreement (record : GatewayTelemetryV2Record) :
    parseGatewayTelemetry record.payload = .ok ⟨record.activeRequests, record.connectedClients,
      record.queuedRequests, record.counters⟩ ∧
    record.payload.length ≤ telemetryV2MaxBytes ∧
    record.payload.length ≤ watchdogGatewayTelemetryMaxBytes := by
  have hlen := length_payload_le record
  exact ⟨parse_payload record, hlen.trans (by decide), hlen.trans (by decide)⟩

end LetsInfer.Watchdog
