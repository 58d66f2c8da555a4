import LetsInfer.Watchdog.Contract
import LetsInfer.Schemes.Checks

/-! @src core/watchdog/src/li_watchdog_contract.rs | name:Protection descriptors | scheme:codec

    A protected placement is described by nine lines `name=value` in any order. `parse` accepts a
    text of at most 2048 bytes whose values pass the checks that a `ProtectedEngine` carries; the
    registry writes a placement back in one fixed order, with its numbers in their shortest form and
    a line end after every line. What it writes is read back whenever it is short enough. -/

namespace LetsInfer.Watchdog
open Schemes List

def maxDescriptorBytes : ℕ := 2048

def invalidDescriptor : WatchdogError := .invalidContract "protected placement descriptor is invalid"

/-- The name and the value of each line; no name twice, and no second equals sign. -/
def descriptorFields : List Text → List (Text × Text) → Except WatchdogError (List (Text × Text))
  | [], fields => .ok fields
  | line :: lines, fields =>
    match splitOnce 61 line with
    | none => .error invalidDescriptor
    | some (name, field) =>
      if name = [] ∨ 61 ∈ field ∨ name ∈ fields.map (·.1) then .error invalidDescriptor
      else descriptorFields lines (fields ++ [(name, field)])

def descriptorNames : List Text :=
  ["boot_id", "cgroup", "container_id", "container_name", "generation", "phase", "pid",
    "start_ticks", "version"].map text

def fieldValue (fields : List (Text × Text)) (name : String) : Text :=
  ((fields.find? fun field => field.1 = text name).map (·.2)).getD []

def parsePhase (value : Text) : Except WatchdogError ProtectionPhase :=
  if value = text "pending" then .ok .pending
  else if value = text "starting" then .ok .starting
  else if value = text "armed" then .ok .armed
  else if value = text "disarmed" then .ok .disarmed
  else .error invalidDescriptor

/-- A value, or none for a dash. -/
def optionalText (value : Text) : Option Text := if value = text "-" then none else some value

def optionalPositive (value : Text) (maximum : ℕ) : Except WatchdogError (Option ℕ) :=
  if value = text "-" then .ok none
  else if value = [] ∨ !value.all isAsciiDigit ∨ u64Bound ≤ decimalValue value then
    .error invalidDescriptor
  else if decimalValue value = 0 ∨ maximum < decimalValue value then .error invalidDescriptor
  else .ok (some (decimalValue value))

namespace ProtectedEngine

theorem forall_mem_of_all {α : Type} {P : α → Prop} [DecidablePred P] {val : Option α}
    (h : val.all fun a => decide (P a)) : ∀ a ∈ val, P a := by
  rintro a rfl
  exact of_decide_eq_true h

/-- The checks of a descriptor's values, once they are read. -/
def checked (generation : Text) (phase : ProtectionPhase) (containerName : Text)
    (containerId : Option Text) (processId processStartTicks : Option ℕ) (bootId cgroup : Option Text) :
    Except WatchdogError ProtectedEngine :=
  if h : isLowerHex generation maxGenerationBytes ∧ safeToken containerName maxContainerNameBytes ∧
      (containerId.all fun value => decide (isLowerHex value containerIdBytes)) ∧
      ((processId.map UInt32.ofNat).all fun value =>
        decide (1 < value.toNat ∧ value.toNat ≤ maxProcessId)) ∧
      ((processStartTicks.map UInt64.ofNat).all fun value => decide (0 < value.toNat)) ∧
      (bootId.all fun value =>
        decide (safeToken value bootIdBytes ∧ value.length = bootIdBytes)) ∧
      (cgroup.all fun value => decide (isCgroup value)) ∧
      containerId.isSome = phase.isProcessBound ∧
      (processId.map UInt32.ofNat).isSome = phase.isProcessBound ∧
      (processStartTicks.map UInt64.ofNat).isSome = phase.isProcessBound ∧
      bootId.isSome = phase.isProcessBound ∧ cgroup.isSome = phase.isProcessBound then
    .ok ⟨generation, phase, containerName, containerId, processId.map UInt32.ofNat,
      processStartTicks.map UInt64.ofNat, bootId, cgroup, h.1, h.2.1, forall_mem_of_all h.2.2.1,
      forall_mem_of_all h.2.2.2.1, forall_mem_of_all h.2.2.2.2.1, forall_mem_of_all h.2.2.2.2.2.1,
      forall_mem_of_all h.2.2.2.2.2.2.1, h.2.2.2.2.2.2.2⟩
  else .error invalidDescriptor

def parse (value : Text) : Except WatchdogError ProtectedEngine := do
  if value = [] ∨ maxDescriptorBytes < value.length ∨ 13 ∈ value ∨ 0 ∈ value then
    throw invalidDescriptor
  let fields ← descriptorFields (splitTerminator 10 value) []
  let names := fields.map (·.1)
  if !(names.all (· ∈ descriptorNames) && descriptorNames.all (· ∈ names)) ∨
      fieldValue fields "version" ≠ text "1" then
    throw invalidDescriptor
  let phase ← parsePhase (fieldValue fields "phase")
  let processId ← optionalPositive (fieldValue fields "pid") maxProcessId
  let processStartTicks ← optionalPositive (fieldValue fields "start_ticks") (u64Bound - 1)
  checked (fieldValue fields "generation") phase (fieldValue fields "container_name")
    (optionalText (fieldValue fields "container_id")) processId processStartTicks
    (optionalText (fieldValue fields "boot_id")) (optionalText (fieldValue fields "cgroup"))

end ProtectedEngine

/-! ### Writing a descriptor -/

def protectionPhaseText : ProtectionPhase → String
  | .pending => "pending"
  | .starting => "starting"
  | .armed => "armed"
  | .disarmed => "disarmed"

/-- The names and values of a descriptor, in the order they are written in. -/
def descriptorValues (target : ProtectedEngine) : List (String × Text) :=
  [("version", text "1"), ("generation", target.generation),
    ("phase", text (protectionPhaseText target.phase)), ("container_name", target.containerName),
    ("container_id", target.containerId.getD (text "-")),
    ("pid", (target.processId.map fun value => decimal value.toNat).getD (text "-")),
    ("start_ticks", (target.processStartTicks.map fun value => decimal value.toNat).getD (text "-")),
    ("boot_id", target.bootId.getD (text "-")), ("cgroup", target.cgroup.getD (text "-"))]

def descriptorLine (field : String × Text) : Text := text field.1 ++ 61 :: field.2

def targetDescriptor (target : ProtectedEngine) : Text :=
  joinTerminated 10 ((descriptorValues target).map descriptorLine)

/-! ### Reading it back -/

/-- An ASCII byte that is no end of line, no equals sign and no zero. -/
def isPlain (byte : UInt8) : Bool := byte ≤ 0x7F ∧ byte ∉ [0, 10, 13, 61]

variable {val : Text} {mx : ℕ} {tgt : ProtectedEngine}

theorem plain_of_all {p : UInt8 → Bool} (hp : ∀ byte, p byte → isPlain byte) (h : val.all p) :
    val.all isPlain :=
  all_eq_true.mpr fun byte hbyte => hp byte (all_eq_true.mp h byte hbyte)

theorem plain_of_isLowerHex {length : ℕ} (h : isLowerHex val length) : val.all isPlain := by
  simp only [isLowerHex, decide_eq_true_iff] at h
  exact plain_of_all (by decide +kernel) h.2

theorem plain_of_safeToken (h : safeToken val mx) : val.all isPlain := by
  simp only [safeToken, decide_eq_true_iff] at h
  exact plain_of_all (by decide +kernel) h.2.2

theorem plain_of_isCgroup (h : isCgroup val) : val.all isPlain := by
  simp only [isCgroup, decide_eq_true_iff] at h
  exact plain_of_all (by decide +kernel) h.2.2

theorem plain_decimal (n : ℕ) : (decimal n).all isPlain := by
  have hdig : ∀ byte : UInt8, isAsciiDigit byte → isPlain byte := by decide +kernel
  exact all_eq_true.mpr fun byte hbyte => hdig byte (isAsciiDigit_of_mem_decimal hbyte)

theorem plain_getD {val : Option Text} (h : ∀ v ∈ val, v.all isPlain) :
    (val.getD (text "-")).all isPlain := by
  cases val with
  | none => decide
  | some v => exact h v rfl

theorem plain_descriptorValues (tgt : ProtectedEngine) :
    ∀ f ∈ descriptorValues tgt, f.2.all isPlain := by
  have hph : (text (protectionPhaseText tgt.phase)).all isPlain := by
    cases tgt.phase <;> decide
  have hpid : ∀ v ∈ tgt.processId.map fun val => decimal val.toNat, v.all isPlain := by
    rintro v hv
    obtain ⟨val, -, rfl⟩ := Option.map_eq_some_iff.mp hv
    exact plain_decimal _
  have htic : ∀ v ∈ tgt.processStartTicks.map fun val => decimal val.toNat, v.all isPlain := by
    rintro v hv
    obtain ⟨val, -, rfl⟩ := Option.map_eq_some_iff.mp hv
    exact plain_decimal _
  simp only [descriptorValues, forall_mem_cons, not_mem_nil, false_imp_iff, forall_true_iff,
    and_true]
  exact ⟨by decide, plain_of_isLowerHex tgt.generation_hex, hph,
    plain_of_safeToken tgt.containerName_safe,
    plain_getD fun v hv => plain_of_isLowerHex (tgt.containerId_hex v hv), plain_getD hpid,
    plain_getD htic, plain_getD fun v hv => plain_of_safeToken (tgt.bootId_safe v hv).1,
    plain_getD fun v hv => plain_of_isCgroup (tgt.cgroup_valid v hv)⟩

theorem descriptorFields_append {fields found : List (Text × Text)}
    (hfds : ∀ f ∈ fields, f.1 ≠ [] ∧ 61 ∉ f.1 ∧ 61 ∉ f.2)
    (hnd : ((found ++ fields).map (·.1)).Nodup) :
    descriptorFields (fields.map fun f => f.1 ++ 61 :: f.2) found = .ok (found ++ fields) := by
  induction fields generalizing found with
  | nil => simp [descriptorFields]
  | cons f fields ih =>
    obtain ⟨hname, hequ, hvl⟩ := hfds f mem_cons_self
    have hnew : f.1 ∉ found.map (·.1) := by
      intro hmem
      rw [map_append, map_cons] at hnd
      exact (nodup_append.mp hnd).2.2 _ hmem _ mem_cons_self rfl
    rw [map_cons, descriptorFields, splitOnce_append hequ]
    simp only [hname, hvl, hnew, or_self, if_false]
    rw [ih (fun f hfld => hfds f (mem_cons_of_mem _ hfld)) (by simpa using hnd)]
    simp

/-- The fields of a written descriptor, as they are read. -/
def descriptorTexts (target : ProtectedEngine) : List (Text × Text) :=
  (descriptorValues target).map fun field => (text field.1, field.2)

theorem descriptorTexts_names (tgt : ProtectedEngine) : (descriptorTexts tgt).map (·.1) =
    ["version", "generation", "phase", "container_name", "container_id", "pid", "start_ticks",
      "boot_id", "cgroup"].map text := rfl

theorem not_mem_of_plain {byte : UInt8} (h : val.all isPlain) (hbyte : isPlain byte = false) :
    byte ∉ val := by
  intro hmem
  exact Bool.false_ne_true (hbyte.symm.trans (all_eq_true.mp h byte hmem))

theorem mem_descriptorTexts {f : Text × Text} (h : f ∈ descriptorTexts tgt) :
    f.1 ≠ [] ∧ f.1.all isPlain ∧ f.2.all isPlain := by
  have hnms : ∀ name ∈ (descriptorTexts tgt).map (·.1), name ≠ [] ∧ name.all isPlain := by
    rw [descriptorTexts_names]
    decide
  obtain ⟨hne, hpla⟩ := hnms f.1 (mem_map_of_mem h)
  obtain ⟨source, hsou, rfl⟩ := mem_map.mp h
  exact ⟨hne, hpla, plain_descriptorValues tgt source hsou⟩

theorem targetDescriptor_eq (tgt : ProtectedEngine) : targetDescriptor tgt =
    joinTerminated 10 ((descriptorTexts tgt).map fun f => f.1 ++ 61 :: f.2) := by
  rw [targetDescriptor, descriptorTexts, map_map]
  rfl

/-- The bytes of a written descriptor: plain ones, equals signs and ends of lines. -/
theorem mem_targetDescriptor {byte : UInt8} (h : byte ∈ targetDescriptor tgt) :
    isPlain byte ∨ byte = 61 ∨ byte = 10 := by
  rw [targetDescriptor_eq, joinTerminated] at h
  obtain ⟨line, hline, hbyte⟩ := mem_flatten.mp h
  obtain ⟨body, hbody, rfl⟩ := mem_map.mp hline
  obtain ⟨f, hfld, rfl⟩ := mem_map.mp hbody
  obtain ⟨-, hname, hvl⟩ := mem_descriptorTexts hfld
  simp only [mem_append, mem_cons, not_mem_nil, or_false] at hbyte
  rcases hbyte with (hbyte | hbyte | hbyte) | hbyte
  · exact .inl (all_eq_true.mp hname byte hbyte)
  · exact .inr (.inl hbyte)
  · exact .inl (all_eq_true.mp hvl byte hbyte)
  · exact .inr (.inr hbyte)

theorem descriptorFields_targetDescriptor (tgt : ProtectedEngine) :
    descriptorFields (splitTerminator 10 (targetDescriptor tgt)) [] =
      .ok (descriptorTexts tgt) := by
  rw [targetDescriptor_eq, splitTerminator_joinTerminated]
  · refine descriptorFields_append (fun f hfld => ?_) ?_
    · obtain ⟨hne, hname, hvl⟩ := mem_descriptorTexts hfld
      exact ⟨hne, not_mem_of_plain hname (by decide), not_mem_of_plain hvl (by decide)⟩
    · rw [nil_append, descriptorTexts_names]
      decide
  · intro line hline
    obtain ⟨f, hfld, rfl⟩ := mem_map.mp hline
    obtain ⟨-, hname, hvl⟩ := mem_descriptorTexts hfld
    have hten : (10 : UInt8) ≠ 61 := by decide
    simp only [mem_append, mem_cons, hten, false_or]
    exact not_or.mpr ⟨not_mem_of_plain hname (by decide), not_mem_of_plain hvl (by decide)⟩

theorem parsePhase_text (phase : ProtectionPhase) :
    parsePhase (text (protectionPhaseText phase)) = .ok phase := by
  cases phase <;> rfl

theorem optionalPositive_decimal {n : ℕ} (hpos : 0 < n) (hle : n ≤ mx)
    (hbd : n < u64Bound) : optionalPositive (decimal n) mx = .ok (some n) := by
  have hdig : (decimal n).all isAsciiDigit :=
    all_eq_true.mpr fun byte hbyte => isAsciiDigit_of_mem_decimal hbyte
  have hdash : decimal n ≠ text "-" := by
    intro heq
    rw [heq] at hdig
    exact absurd hdig (by decide)
  rw [optionalPositive, if_neg hdash, decimalValue_decimal, if_neg, if_neg]
  · omega
  · simp only [decimal_ne_nil, hdig, Bool.not_true, Bool.false_eq_true, false_or, not_le]
    exact hbd

/-- A value is written as itself and a missing one as a dash, which no value is. -/
theorem optionalText_getD {val : Option Text} (h : ∀ v ∈ val, v ≠ text "-") :
    optionalText (val.getD (text "-")) = val := by
  cases val with
  | none => rfl
  | some v => exact if_neg (h v rfl)

theorem optionalPositive_getD {val : Option ℕ} (hmax : mx < u64Bound)
    (h : ∀ n ∈ val, 0 < n ∧ n ≤ mx) :
    optionalPositive ((val.map decimal).getD (text "-")) mx = .ok val := by
  cases val with
  | none => rfl
  | some n =>
    obtain ⟨hpos, hle⟩ := h n rfl
    exact optionalPositive_decimal hpos hle (by omega)

theorem ne_dash_of_length (h : val.length ≠ 1) : val ≠ text "-" := by
  rintro rfl
  exact h rfl

theorem length_of_isLowerHex {length : ℕ} (h : isLowerHex val length) : val.length = length := by
  simp only [isLowerHex, decide_eq_true_iff] at h
  exact h.1

theorem all_of_forall_mem {α : Type} {P : α → Prop} [DecidablePred P] {val : Option α}
    (h : ∀ a ∈ val, P a) : val.all fun a => decide (P a) := by
  cases val with
  | none => rfl
  | some a => exact decide_eq_true (h a rfl)

theorem checked_self (tgt : ProtectedEngine) :
    ProtectedEngine.checked tgt.generation tgt.phase tgt.containerName tgt.containerId
      (tgt.processId.map UInt32.toNat) (tgt.processStartTicks.map UInt64.toNat) tgt.bootId
      tgt.cgroup = .ok tgt := by
  have hpid : (tgt.processId.map UInt32.toNat).map UInt32.ofNat = tgt.processId := by
    simp [Option.map_map, Function.comp_def]
  have htic : (tgt.processStartTicks.map UInt64.toNat).map UInt64.ofNat =
      tgt.processStartTicks := by
    simp [Option.map_map, Function.comp_def]
  simp only [ProtectedEngine.checked, hpid, htic]
  exact dif_pos ⟨tgt.generation_hex, tgt.containerName_safe,
    all_of_forall_mem tgt.containerId_hex, all_of_forall_mem tgt.processId_bounds,
    all_of_forall_mem tgt.processStartTicks_pos, all_of_forall_mem tgt.bootId_safe,
    all_of_forall_mem tgt.cgroup_valid, tgt.process_bound⟩

/-- READ BACK: a written descriptor that is short enough is read as the placement it describes. -/
theorem parse_targetDescriptor (h : (targetDescriptor tgt).length ≤ maxDescriptorBytes) :
    ProtectedEngine.parse (targetDescriptor tgt) = .ok tgt := by
  have hbs : ¬(targetDescriptor tgt = [] ∨ maxDescriptorBytes < (targetDescriptor tgt).length ∨
      13 ∈ targetDescriptor tgt ∨ 0 ∈ targetDescriptor tgt) := by
    rintro (hnil | hlong | hret | hzero)
    · exact cons_ne_nil _ _ hnil
    · omega
    · exact absurd (mem_targetDescriptor hret) (by decide)
    · exact absurd (mem_targetDescriptor hzero) (by decide)
  have hnms : ¬((!(((descriptorTexts tgt).map (·.1)).all (· ∈ descriptorNames) &&
      descriptorNames.all (· ∈ (descriptorTexts tgt).map (·.1)))) = true ∨
        fieldValue (descriptorTexts tgt) "version" ≠ text "1") := by
    rw [descriptorTexts_names]
    have hver : fieldValue (descriptorTexts tgt) "version" = text "1" := rfl
    rw [hver]
    decide
  have hpid : optionalPositive (fieldValue (descriptorTexts tgt) "pid") maxProcessId =
      .ok (tgt.processId.map UInt32.toNat) := by
    have hvl : fieldValue (descriptorTexts tgt) "pid" =
        ((tgt.processId.map UInt32.toNat).map decimal).getD (text "-") := by
      rw [Option.map_map]
      rfl
    rw [hvl]
    refine optionalPositive_getD (by decide) fun n hn => ?_
    obtain ⟨val, hvl, rfl⟩ := Option.map_eq_some_iff.mp hn
    have hbou := tgt.processId_bounds val hvl
    omega
  have htic : optionalPositive (fieldValue (descriptorTexts tgt) "start_ticks") (u64Bound - 1) =
      .ok (tgt.processStartTicks.map UInt64.toNat) := by
    have hvl : fieldValue (descriptorTexts tgt) "start_ticks" =
        ((tgt.processStartTicks.map UInt64.toNat).map decimal).getD (text "-") := by
      rw [Option.map_map]
      rfl
    rw [hvl]
    refine optionalPositive_getD (by decide) fun n hn => ?_
    obtain ⟨val, hvl, rfl⟩ := Option.map_eq_some_iff.mp hn
    have hpos := tgt.processStartTicks_pos val hvl
    have hbd := val.toNat_lt
    simp only [u64Bound]
    omega
  have hcon : optionalText (fieldValue (descriptorTexts tgt) "container_id") = tgt.containerId :=
    optionalText_getD fun val hvl => ne_dash_of_length (by
      rw [length_of_isLowerHex (tgt.containerId_hex val hvl)]
      decide)
  have hboot : optionalText (fieldValue (descriptorTexts tgt) "boot_id") = tgt.bootId :=
    optionalText_getD fun val hvl => ne_dash_of_length (by
      rw [(tgt.bootId_safe val hvl).2]
      decide)
  have hcg : optionalText (fieldValue (descriptorTexts tgt) "cgroup") = tgt.cgroup := by
    refine optionalText_getD fun val hvl heq => ?_
    have hval := tgt.cgroup_valid val hvl
    rw [heq] at hval
    exact absurd hval (by decide)
  refine throw_if_ok_iff.mpr ⟨hbs, ?_⟩
  refine bind_ok_iff.mpr ⟨_, descriptorFields_targetDescriptor tgt, ?_⟩
  refine throw_if_ok_iff.mpr ⟨hnms, ?_⟩
  refine bind_ok_iff.mpr ⟨_, parsePhase_text tgt.phase, bind_ok_iff.mpr ⟨_, hpid, ?_⟩⟩
  refine bind_ok_iff.mpr ⟨_, htic, ?_⟩
  rw [hcon, hboot, hcg]
  exact checked_self tgt

theorem parse_targetDescriptor_long (h : maxDescriptorBytes < (targetDescriptor tgt).length) :
    ProtectedEngine.parse (targetDescriptor tgt) = .error invalidDescriptor :=
  if_pos (.inr (.inl h))

end LetsInfer.Watchdog
