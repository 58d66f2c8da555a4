import LetsInfer.Watchdog.ControllerRegistry
import LetsInfer.Schemes.Checks

/-! @src core/watchdog/src/li_watchdog_controller_registry.rs | name:Snapshots of the registry | scheme:codec

    What reading makes of a written snapshot. The writer and the reader each have their own idea of
    a right state; read back, a snapshot gives the entries it was written from, or is refused because
    of what the reader checks and the writer does not: the allowlist it is read with, the bound, and
    the length of a descriptor. A text that is read gives a state that meets every rule. -/

namespace LetsInfer.Watchdog
open Schemes List

/-! ### States that meet the rules -/

/-- An entry of an allowlisted controller; its binding is for that controller. -/
structure EntryOk (allowlist : ControllerAllowlist) (entry : Text × ControllerEntry) : Prop where
  certificate : ∃ certificate, lookupKey entry.1 allowlist.controllers = some certificate ∧
    ∀ binding ∈ entry.2.binding, binding.controllerId = entry.1 ∧
      binding.certificateSha256 = certificate ∧
      binding.sessionGeneration = entry.2.sessionGeneration
  generation : 0 < entry.2.sessionGeneration ∧ entry.2.sessionGeneration < u64Bound

/-- No two controllers share a protected process. -/
def Apart (entries : ControllerEntries) : Prop :=
  ∀ first ∈ entries, ∀ second ∈ entries, first.1 ≠ second.1 → ∀ left ∈ first.2.binding,
    ∀ right ∈ second.2.binding, targetsConflict left.target right.target = false

structure RegistryState.Valid (allowlist : ControllerAllowlist) (maximumActiveBindings : ℕ)
    (state : RegistryState) : Prop where
  bound : 0 < maximumActiveBindings ∧ maximumActiveBindings ≤ maximumWatchdogTargets
  ordered : Ordered state.entries
  entryOk : ∀ entry ∈ state.entries, EntryOk allowlist entry
  apart : Apart state.entries
  active : activeBindingCount state.entries ≤ maximumActiveBindings
  revision : state.entries.length < state.revision ∧ state.revision < u64Bound

variable {al rd : ControllerAllowlist} {st : RegistryState}
  {id cert val snap : Text} {es : ControllerEntries}
  {ent : Text × ControllerEntry} {found found' : ControllerEntries × Option Text}
  {bound : ℕ}

/-- The rules do not say what was written last. -/
theorem RegistryState.Valid.persisted {mx : ℕ} (h : st.Valid al mx) (snap : Option Text) :
    { st with persistedSnapshot := snap }.Valid al mx :=
  ⟨h.bound, h.ordered, h.entryOk, h.apart, h.active, h.revision⟩

/-- Every descriptor is short enough to be read again. -/
def RegistryState.Fits (state : RegistryState) : Prop :=
  ∀ entry ∈ state.entries, ∀ binding ∈ entry.2.binding,
    (targetDescriptor binding.target).length ≤ maxDescriptorBytes

theorem ControllerAllowlist.authorizes_iff :
    al.authorizes id cert = true ↔ lookupKey id al.controllers = some cert := by
  simp [ControllerAllowlist.authorizes]

theorem ControllerAllowlist.hex_of_lookup (h : lookupKey id al.controllers = some cert) :
    isLowerHex id controllerIdBytes ∧ isLowerHex cert controllerFingerprintBytes :=
  al.controllers_hex _ ((lookupKey_eq_some al.ordered).mp h)

theorem targetsConflict_comm (left right : ProtectedEngine) :
    targetsConflict left right = targetsConflict right left := by
  simp only [targetsConflict, eq_comm]

theorem rejectTargetConflict_ok_iff {cand : ControllerBinding} :
    rejectTargetConflict es cand = .ok () ↔
      ∀ ent ∈ es, ent.1 ≠ cand.controllerId → ∀ bnd ∈ ent.2.binding,
        targetsConflict bnd.target cand.target = false := by
  rw [rejectTargetConflict, error_if_ok_iff]
  simp only [any_eq_true, Bool.and_eq_true, decide_eq_true_eq, Option.any_eq_true, not_exists,
    not_and, Bool.not_eq_true, and_true]
  exact ⟨fun h ent he hne bnd hb => h ent he hne bnd hb,
    fun h ent he hne bnd hb => h ent he hne bnd hb⟩

/-! ### Lines -/

def isFieldByte (byte : UInt8) : Bool := isLowerHexByte byte ∨ byte = 45

/-- A byte of a line: neither its end nor outside of ASCII. -/
def isLineByte (byte : UInt8) : Bool := byte ≤ 0x7F ∧ byte ≠ 0 ∧ byte ≠ 10

theorem isLineByte_of_isFieldByte : ∀ byte : UInt8, isFieldByte byte → isLineByte byte := by
  decide +kernel

theorem fieldBytes_of_isLowerHex {length : ℕ} (h : isLowerHex val length) :
    val.all isFieldByte := by
  have hbyte : ∀ byte : UInt8, isLowerHexByte byte → isFieldByte byte := by decide +kernel
  simp only [isLowerHex, decide_eq_true_iff] at h
  exact all_eq_true.mpr fun byte hb => hbyte byte (all_eq_true.mp h.2 byte hb)

theorem fieldBytes_decimal (n : ℕ) : (decimal n).all isFieldByte := by
  have hdig : ∀ byte : UInt8, isAsciiDigit byte → isFieldByte byte := by decide +kernel
  exact all_eq_true.mpr fun byte hb => hdig byte (isAsciiDigit_of_mem_decimal hb)

theorem isLowerHexByte_hexDigit {digit : ℕ} (h : digit < 16) : isLowerHexByte (hexDigit digit) := by
  interval_cases digit <;> decide

theorem fieldBytes_hexEncode (bs : Text) : (hexEncode bs).all isFieldByte := by
  refine all_eq_true.mpr fun byte hb => ?_
  obtain ⟨digit, hdig, rfl⟩ := mem_hexEncode hb
  simp [isFieldByte, isLowerHexByte_hexDigit hdig]

theorem isLowerHex_hexWord (cnt n : ℕ) : isLowerHex (hexWord cnt n) cnt = true := by
  have hall : (hexWord cnt n).all isLowerHexByte := by
    refine all_eq_true.mpr fun byte hb => ?_
    obtain ⟨digit, hdig, rfl⟩ := mem_hexWord hb
    exact isLowerHexByte_hexDigit hdig
  simp only [isLowerHex, length_hexWord, hall, decide_true, and_self]

theorem parsePositive_decimal {n : ℕ} (h : 0 < n ∧ n < u64Bound) (reason : String) :
    parsePositive (decimal n) reason = .ok n := by
  have hdig : (decimal n).all isAsciiDigit :=
    all_eq_true.mpr fun byte hbyte => isAsciiDigit_of_mem_decimal hbyte
  have hhead := head?_decimal_ne (Nat.pos_iff_ne_zero.mp h.1)
  rw [parsePositive, if_neg, decimalValue_decimal, if_neg (not_le.mpr h.2),
    if_neg (Nat.pos_iff_ne_zero.mp h.1)]
  simp only [hdig, decimal_ne_nil, hhead, and_false, or_false, Bool.not_true, Bool.false_eq_true,
    not_false_iff]

theorem parsePositive_ok {reason : String} {n : ℕ} (h : parsePositive val reason = .ok n) :
    0 < n ∧ n < u64Bound := by
  obtain ⟨-, h⟩ := error_if_ok_iff.mp h
  obtain ⟨hbd, h⟩ := error_if_ok_iff.mp h
  obtain ⟨hzero, h⟩ := error_if_ok_iff.mp h
  rw [← Except.ok.inj h]
  exact ⟨Nat.pos_of_ne_zero hzero, not_le.mp hbd⟩

/-- The state and the descriptor of an entry line. -/
def bindingFields : Option ControllerBinding → Text × Text
  | some binding => (text "1", hexEncode (targetDescriptor binding.target))
  | none => (text "0", text "-")

theorem fieldBytes_bindingFields (bnd : Option ControllerBinding) :
    (bindingFields bnd).1.all isFieldByte ∧ (bindingFields bnd).2.all isFieldByte := by
  cases bnd with
  | none => exact ⟨by decide, by decide⟩
  | some bnd => exact ⟨show (text "1").all isFieldByte by decide, fieldBytes_hexEncode _⟩

/-- The fields of the line of an entry whose controller has a certificate. -/
def entryValues (certificate : Text) (entry : Text × ControllerEntry) : List Text :=
  [entry.1, certificate, decimal entry.2.sessionGeneration, (bindingFields entry.2.binding).1,
    (bindingFields entry.2.binding).2]

theorem EntryOk.line (h : EntryOk al ent) : ∃ cert, lookupKey ent.1 al.controllers = some cert ∧
      (∀ bnd ∈ ent.2.binding, bnd.controllerId = ent.1 ∧
        bnd.certificateSha256 = cert ∧
        bnd.sessionGeneration = ent.2.sessionGeneration) ∧
      entryLine al ent = text "entry=" ++ List.intercalate [44] (entryValues cert ent) := by
  obtain ⟨cert, hlk, hbin⟩ := h.certificate
  refine ⟨cert, hlk, hbin, ?_⟩
  cases hcase : ent.2.binding with
  | none => simp [entryLine, entryFields, entryValues, bindingFields, hcase, hlk]
  | some bnd =>
    obtain ⟨-, hcrt, -⟩ := hbin bnd hcase
    simp [entryLine, entryFields, entryValues, bindingFields, hcase, hcrt]

theorem fieldBytes_entryValues (h : lookupKey ent.1 al.controllers = some cert) :
    ∀ val ∈ entryValues cert ent, val.all isFieldByte := by
  obtain ⟨hid, hcrt⟩ := ControllerAllowlist.hex_of_lookup h
  obtain ⟨hact, hdes⟩ := fieldBytes_bindingFields ent.2.binding
  simp only [entryValues, forall_mem_cons, not_mem_nil, false_imp_iff, forall_true_iff, and_true]
  exact ⟨fieldBytes_of_isLowerHex hid, fieldBytes_of_isLowerHex hcrt, fieldBytes_decimal _,
    hact, hdes⟩

theorem mem_intercalate_comma {values : List Text} {byte : UInt8}
    (h : byte ∈ List.intercalate [44] values) : byte = 44 ∨ ∃ val ∈ values, byte ∈ val := by
  induction values with
  | nil => simp at h
  | cons val values ih =>
    cases values with
    | nil => exact .inr ⟨val, mem_cons_self, by simpa using h⟩
    | cons next values =>
      rw [intercalate_cons_cons] at h
      simp only [mem_append, mem_singleton] at h
      rcases h with (h | h) | h
      · exact .inr ⟨val, mem_cons_self, h⟩
      · exact .inl h
      · rcases ih h with h | ⟨found, hfd, h⟩
        · exact .inl h
        · exact .inr ⟨found, mem_cons_of_mem _ hfd, h⟩

theorem lineBytes_entryLine (h : EntryOk al ent) : (entryLine al ent).all isLineByte := by
  obtain ⟨cert, hlk, -, hline⟩ := h.line
  rw [hline, all_append, Bool.and_eq_true]
  refine ⟨by decide, all_eq_true.mpr fun byte hb => ?_⟩
  rcases mem_intercalate_comma hb with rfl | ⟨val, hvl, hb⟩
  · decide
  · exact isLineByte_of_isFieldByte byte
      (all_eq_true.mp (fieldBytes_entryValues hlk val hvl) byte hb)

/-- The lines of a state that meets the rules. -/
theorem lineBytes_snapshotLines (h : ∀ ent ∈ st.entries, EntryOk al ent) :
    ∀ line ∈ snapshotLines al st, line.all isLineByte := by
  have happ : ∀ {start val : Text}, start.all isLineByte → val.all isFieldByte →
      (start ++ val).all isLineByte := by
    intro start val hstr hvl
    rw [all_append, Bool.and_eq_true]
    exact ⟨hstr, all_eq_true.mpr fun byte hb =>
      isLineByte_of_isFieldByte byte (all_eq_true.mp hvl byte hb)⟩
  intro line hline
  rcases mem_append.mp hline with hline | hline
  · simp only [mem_cons, not_mem_nil, or_false] at hline
    rcases hline with rfl | rfl | rfl | rfl | rfl
    · decide
    · decide
    · exact happ (by decide) (fieldBytes_of_isLowerHex al.installationId_hex)
    · exact happ (by decide) (fieldBytes_of_isLowerHex al.sha256_hex)
    · exact happ (by decide) (fieldBytes_decimal _)
  · obtain ⟨ent, hen, rfl⟩ := mem_map.mp hline
    exact lineBytes_entryLine (h ent hen)

/-! ### The checksum -/

variable {lines : List Text}

theorem mem_joinTerminated_lines (h : ∀ line ∈ lines, line.all isLineByte) {byte : UInt8}
    (hb : byte ∈ joinTerminated 10 lines) : isLineByte byte ∨ byte = 10 := by
  obtain ⟨part, hpart, hb⟩ := mem_flatten.mp hb
  obtain ⟨line, hline, rfl⟩ := mem_map.mp hpart
  rcases mem_append.mp hb with hb | hb
  · exact .inl (all_eq_true.mp (h line hline) byte hb)
  · exact .inr (mem_singleton.mp hb)

/-- The checksum line begins the last occurrence of its own name: there is one `h` in it. -/
theorem rfind_checksum (body : Text) (n : ℕ) :
    rfind (text "checksum=") (body ++ (text "checksum=" ++ hexWord 8 n ++ [10])) =
      some body.length := by
  have hnot : (104 : UInt8) ∉ text "ecksum=" ++ hexWord 8 n ++ [10] := by
    intro hmem
    simp only [mem_append] at hmem
    rcases hmem with (hmem | hmem) | hmem
    · revert hmem
      decide
    · obtain ⟨digit, hdig, heq⟩ := mem_hexWord hmem
      revert heq
      interval_cases digit <;> decide
    · revert hmem
      decide
  have hlat : rfind (text "checksum=") (104 :: (text "ecksum=" ++ hexWord 8 n ++ [10])) = none := by
    rw [rfind, rfind_eq_none (a := 104) (by decide) hnot]
    rfl
  have hhead : (text "checksum=").isPrefixOf
      (99 :: 104 :: (text "ecksum=" ++ hexWord 8 n ++ [10])) = true :=
    isPrefixOf_iff_prefix.mpr ⟨hexWord 8 n ++ [10], rfl⟩
  exact rfind_append hhead hlat

theorem isUtf8_of_lines (h : ∀ byte ∈ val, isLineByte byte ∨ byte = 10) : isUtf8 val = true := by
  refine isUtf8_of_ascii fun byte hb => ?_
  rcases h byte hb with hline | rfl
  · simp only [isLineByte, decide_eq_true_iff] at hline
    exact hline.1
  · decide

theorem validatedSnapshotBody_append (h : ∀ line ∈ lines, line.all isLineByte) (hne : lines ≠ [])
    (hlen : (joinTerminated 10 lines ++
      checksumLine (joinTerminated 10 lines)).length ≤ controllerSnapshotMaxBytes) :
    validatedSnapshotBody (joinTerminated 10 lines ++ checksumLine (joinTerminated 10 lines)) =
      .ok (joinTerminated 10 lines) := by
  obtain ⟨before, hbody⟩ : ∃ before, joinTerminated 10 lines = before ++ [10] := by
    obtain ⟨init, last, rfl⟩ := eq_nil_or_concat lines |>.resolve_left hne
    exact ⟨joinTerminated 10 init ++ last, by simp [joinTerminated]⟩
  have hbs : ∀ byte ∈ joinTerminated 10 lines, isLineByte byte ∨ byte = 10 :=
    fun byte hb => mem_joinTerminated_lines h hb
  generalize joinTerminated 10 lines = body at *
  have hword := isLowerHex_hexWord 8 (watchdogCrc32 body).toNat
  have hall : ∀ byte ∈ body ++ checksumLine body, isLineByte byte ∨ byte = 10 := by
    intro byte hb
    simp only [checksumLine, mem_append, mem_singleton] at hb
    rcases hb with hb | (hb | hb) | hb
    · exact hbs byte hb
    · have hname : (text "checksum=").all isLineByte := by decide
      exact .inl (all_eq_true.mp hname byte hb)
    · exact .inl (isLineByte_of_isFieldByte byte
        (all_eq_true.mp (fieldBytes_of_isLowerHex hword) byte hb))
    · exact .inr hb
  have hfra : ¬(body ++ checksumLine body = [] ∨
      controllerSnapshotMaxBytes < (body ++ checksumLine body).length ∨
      (body ++ checksumLine body).getLast? ≠ some 10 ∨ 0 ∈ body ++ checksumLine body) := by
    rintro (hnil | hlong | hlast | hzero)
    · simp [hbody] at hnil
    · exact absurd hlong (not_lt.mpr hlen)
    · exact hlast (by simp [checksumLine])
    · rcases hall 0 hzero with hbyte | hbyte
      · revert hbyte
        decide
      · revert hbyte
        decide
  have hfind : rfind (text "checksum=") (body ++ checksumLine body) = some body.length :=
    rfind_checksum body _
  have hplc : ¬(body.length = 0 ∨ (body ++ checksumLine body)[body.length - 1]? ≠ some 10) := by
    rintro (hzero | hbef)
    · simp [hbody] at hzero
    · refine hbef ?_
      rw [getElem?_append_left (by simp [hbody])]
      simp [hbody]
  have hstr : stripPrefix (text "checksum=") ((body ++ checksumLine body).drop body.length).dropLast =
      some (hexWord 8 (watchdogCrc32 body).toNat) := by
    rw [drop_left, checksumLine, dropLast_concat, stripPrefix_append]
  have hvl : hexValue (hexWord 8 (watchdogCrc32 body).toNat) = (watchdogCrc32 body).toNat :=
    hexValue_hexWord (UInt32.toNat_lt _)
  simp only [validatedSnapshotBody, if_neg hfra, isUtf8_of_lines hall, hfind, if_neg hplc, hstr,
    hword, hvl, take_left, Bool.not_true, Bool.false_eq_true, if_false, ne_eq, not_true_eq_false]
  rfl

/-! ### Reading an entry -/

variable {gen : ℕ} {bnd : Option ControllerBinding}

/-- What reading the line of an entry comes down to, for a certificate that stands in the line. -/
def acceptEntry (allowlist : ControllerAllowlist) (found : ControllerEntries × Option Text)
    (certificate : Text) (entry : Text × ControllerEntry) :
    Except WatchdogError (ControllerEntries × Option Text) := do
  if !allowlist.authorizes entry.1 certificate ∨ allowlist.controllers.length ≤ found.1.length ∨
      (lookupKey entry.1 found.1).isSome then
    throw (controllerError "controller registry snapshot entry is invalid")
  if found.2.any fun previous => decide (entry.1 ≤ previous) then
    throw (controllerError "controller registry snapshot order is invalid")
  match entry.2.binding with
  | some binding =>
    if maxDescriptorBytes < (targetDescriptor binding.target).length then throw invalidDescriptor
    rejectTargetConflict found.1 binding
  | none => pure ()
  return (insertKey entry.1 entry.2 found.1, some entry.1)

theorem isUtf8_targetDescriptor (tgt : ProtectedEngine) : isUtf8 (targetDescriptor tgt) = true := by
  have hpla : ∀ byte : UInt8, isPlain byte → byte ≤ 0x7F := by decide +kernel
  refine isUtf8_of_ascii fun byte hb => ?_
  rcases mem_targetDescriptor hb with hb | rfl | rfl
  · exact hpla byte hb
  · decide
  · decide

theorem hexEncode_targetDescriptor_ne_nil (tgt : ProtectedEngine) :
    hexEncode (targetDescriptor tgt) ≠ [] := by
  intro hnil
  have hdec := hexDecode_hexEncode (targetDescriptor tgt)
  rw [hnil] at hdec
  cases Option.some.inj hdec

theorem ControllerBinding.new_self (bnd : ControllerBinding) :
    ControllerBinding.new bnd.controllerId bnd.certificateSha256 bnd.sessionGeneration
      bnd.target = .ok bnd := by
  rw [ControllerBinding.new, dif_pos ⟨bnd.controllerId_hex, bnd.certificate_hex,
    bnd.generation_bounds, bnd.target_bound⟩]

theorem parseBinding_bindingFields
    (h : ∀ b ∈ bnd, b.controllerId = id ∧ b.certificateSha256 = cert ∧ b.sessionGeneration = gen) :
    parseBinding id cert gen (bindingFields bnd).1 (bindingFields bnd).2 =
      if bnd.any fun b => decide (maxDescriptorBytes < (targetDescriptor b.target).length) then
        .error invalidDescriptor
      else .ok bnd := by
  cases bnd with
  | none => simp [parseBinding, bindingFields]
  | some b =>
    obtain ⟨rfl, rfl, rfl⟩ := h b rfl
    have hzero : text "1" ≠ text "0" := by decide
    rw [parseBinding, bindingFields, if_neg fun hcase => hzero hcase.1, if_pos rfl,
      if_neg (hexEncode_targetDescriptor_ne_nil _), hexDecode_hexEncode]
    simp only [isUtf8_targetDescriptor, Bool.not_true, Bool.false_eq_true, if_false,
      Option.any_some, decide_eq_true_eq]
    split_ifs with hlong
    · rw [parse_targetDescriptor_long hlong]
      rfl
    · rw [parse_targetDescriptor (not_lt.mp hlong)]
      simp [ControllerBinding.new_self]

theorem parseEntry_entryLine (h : EntryOk al ent) (rd : ControllerAllowlist)
    (found : ControllerEntries × Option Text) : ∃ cert, lookupKey ent.1 al.controllers = some cert ∧
      parseEntry rd found (entryLine al ent) = acceptEntry rd found cert ent := by
  obtain ⟨cert, hlk, hbin, hline⟩ := h.line
  have hcom : ∀ val ∈ entryValues cert ent, (44 : UInt8) ∉ val := by
    intro val hvl hmem
    have hbyte := all_eq_true.mp (fieldBytes_entryValues hlk val hvl) 44 hmem
    revert hbyte
    decide
  have hspl := splitOn_intercalate 44 hcom (by simp [entryValues])
  refine ⟨cert, hlk, ?_⟩
  have hgen := parsePositive_decimal h.generation
    "controller registry snapshot generation is invalid"
  have hprs := parseBinding_bindingFields hbin
  rw [parseEntry, hline, stripPrefix_append]
  simp only [hspl]
  simp only [entryValues, getD_cons_zero, getD_cons_succ, length_cons,
    length_nil, Nat.reduceAdd, Nat.lt_irrefl, false_or, hgen, ok_bind, acceptEntry]
  refine if_congr Iff.rfl rfl (if_congr Iff.rfl rfl ?_)
  rw [hprs]
  rcases ent with ⟨id, gen, _ | bnd⟩
  · rfl
  · simp only [Option.any_some, decide_eq_true_eq]
    split_ifs
    · rfl
    · rfl

theorem acceptEntry_ok (h : acceptEntry rd found cert ent = .ok found') :
    found' = (insertKey ent.1 ent.2 found.1, some ent.1) := by
  obtain ⟨-, h⟩ := throw_if_ok_iff.mp h
  obtain ⟨-, h⟩ := throw_if_ok_iff.mp h
  cases hcase : ent.2.binding with
  | none =>
    rw [hcase] at h
    exact (Except.ok.inj h).symm
  | some bnd =>
    rw [hcase] at h
    obtain ⟨-, h⟩ := throw_if_ok_iff.mp h
    change (rejectTargetConflict found.1 bnd >>= fun _ => _) = _ at h
    obtain ⟨-, -, h⟩ := bind_ok_iff.mp h
    exact (Except.ok.inj h).symm

/-- RUN: entries that are read are taken over as they were written. -/
theorem foldlM_entryLine_ok (hens : ∀ ent ∈ es, EntryOk al ent)
    (hord : Ordered es) (hbef : ∀ old ∈ found.1, ∀ ent ∈ es, old.1 < ent.1)
    (h : (es.map (entryLine al)).foldlM (parseEntry rd) found = .ok found') :
    found'.1 = found.1 ++ es := by
  induction es generalizing found with
  | nil =>
    cases h
    simp
  | cons ent es ih =>
    rw [map_cons, foldlM_cons] at h
    obtain ⟨next, hnx, hrest⟩ := bind_ok_iff.mp h
    obtain ⟨cert, -, hprs⟩ :=
      parseEntry_entryLine (hens ent mem_cons_self) rd found
    have hins := acceptEntry_ok (hprs ▸ hnx)
    rw [insertKey_eq_append fun old hold => hbef old hold ent mem_cons_self] at hins
    subst hins
    have hrest := ih (fun e he => hens e (mem_cons_of_mem _ he)) hord.tail ?_ hrest
    · rw [hrest, append_assoc]
      rfl
    · intro old hold e he
      rcases mem_append.mp hold with hold | hold
      · exact hbef old hold e (mem_cons_of_mem _ he)
      · rw [mem_singleton.mp hold]
        exact hord.head e he

/-- RUN: entries that are in order, few enough, apart and with short descriptors are all read. -/
theorem foldlM_entryLine_of (found : ControllerEntries × Option Text)
    (hens : ∀ ent ∈ es, EntryOk al ent) (hord : Ordered es)
    (hbef : ∀ old ∈ found.1, ∀ ent ∈ es, old.1 < ent.1)
    (hprv : ∀ prev ∈ found.2, ∀ ent ∈ es, prev < ent.1)
    (hcnt : found.1.length + es.length ≤ al.controllers.length)
    (hfits : ∀ ent ∈ es, ∀ bnd ∈ ent.2.binding, (targetDescriptor
      bnd.target).length ≤ maxDescriptorBytes) (hapa : Apart (found.1 ++ es)) :
    ∃ prev, (es.map (entryLine al)).foldlM (parseEntry al) found = .ok (found.1 ++ es, prev) := by
  induction es generalizing found with
  | nil => exact ⟨found.2, by simp⟩
  | cons ent es ih =>
    have hself : ent ∈ ent :: es := mem_cons_self
    obtain ⟨cert, hlk, hprs⟩ :=
      parseEntry_entryLine (hens ent hself) al found
    have hlat : ∀ old ∈ found.1, old.1 < ent.1 := fun old hold => hbef old hold ent hself
    have hacc : acceptEntry al found cert ent = .ok (found.1 ++ [ent], some ent.1) := by
      have hnew : lookupKey ent.1 found.1 = none :=
        lookupKey_eq_none.mpr fun old hold => ne_of_lt (hlat old hold)
      have haut := ControllerAllowlist.authorizes_iff.mpr hlk
      have hroom : ¬al.controllers.length ≤ found.1.length := by
        simp only [length_cons] at hcnt
        omega
      have horr : ¬(found.2.any fun prev => decide (ent.1 ≤ prev)) = true := by
        intro hany
        obtain ⟨prev, hp, hle⟩ := Option.any_eq_true _ _ |>.mp hany
        exact absurd (of_decide_eq_true hle) (not_le.mpr (hprv prev hp ent hself))
      have hbin : ∀ bnd ∈ ent.2.binding, rejectTargetConflict found.1 bnd = .ok () := by
        intro bnd hb
        refine rejectTargetConflict_ok_iff.mpr fun old hold hne other hoth => ?_
        exact hapa old (mem_append_left _ hold) ent (mem_append_right _ hself)
          (ne_of_lt (hlat old hold)) other hoth bnd hb
      have hins := insertKey_eq_append (v := ent.2) hlat
      simp only [acceptEntry, haut, hnew, hroom, horr, Bool.not_true, Bool.false_eq_true,
        Option.isSome_none, or_self, if_false, hins]
      cases hcase : ent.2.binding with
      | none => rfl
      | some bnd =>
        have hsho := hfits ent hself bnd hcase
        simp only [if_neg (not_lt.mpr hsho), hbin bnd hcase]
        rfl
    have hrest : ∀ old ∈ found.1 ++ [ent], ∀ e ∈ es, old.1 < e.1 := by
      intro old hold e he
      rcases mem_append.mp hold with hold | hold
      · exact hbef old hold e (mem_cons_of_mem _ he)
      · rw [mem_singleton.mp hold]
        exact hord.head e he
    obtain ⟨prev, hfold⟩ := ih (found.1 ++ [ent], some ent.1)
      (fun e he => hens e (mem_cons_of_mem _ he)) hord.tail hrest
      (fun last hlast e he => Option.some.inj hlast ▸ hord.head e he)
      (by simp only [length_append, length_cons, length_nil] at hcnt ⊢; omega)
      (fun e he => hfits e (mem_cons_of_mem _ he)) (by simpa using hapa)
    refine ⟨prev, ?_⟩
    rw [map_cons, foldlM_cons, hprs, hacc, ok_bind, hfold]
    simp

/-! ### Reading a snapshot -/

section

variable (henc : encodeSnapshot al st = .ok snap)
include henc

theorem lines_of_encodeSnapshot (hens : ∀ ent ∈ st.entries, EntryOk al ent) :
    validatedSnapshotBody snap = .ok (snapshotBody al st) ∧
      splitTerminator 10 (snapshotBody al st) = snapshotLines al st := by
  obtain ⟨hlen, henc⟩ := error_if_ok_iff.mp henc
  have hlin := lineBytes_snapshotLines hens
  constructor
  · rw [← Except.ok.inj henc]
    exact validatedSnapshotBody_append hlin (by simp [snapshotLines]) (not_lt.mp hlen)
  · refine splitTerminator_joinTerminated fun line hline hmem => ?_
    have hbyte := all_eq_true.mp (hlin line hline) 10 hmem
    revert hbyte
    decide

theorem entries_of_isEmptyInitialSnapshot (hens : ∀ ent ∈ st.entries, EntryOk al ent)
    (hemp : isEmptyInitialSnapshot snap = true) : st.entries = [] := by
  obtain ⟨hbody, hspl⟩ := lines_of_encodeSnapshot henc hens
  simp only [isEmptyInitialSnapshot, hbody, hspl] at hemp
  split at hemp
  · next hlin =>
    have hlen := congrArg List.length hlin
    simpa [snapshotLines] using hlen
  · cases hemp

/-- What reading a snapshot comes down to: the entries are taken one by one. -/
theorem parseSnapshot_encodeSnapshot
    (hens : ∀ ent ∈ st.entries, EntryOk al ent) (hrev : 0 < st.revision ∧ st.revision < u64Bound)
    (hbd : 0 < bound ∧ bound ≤ maximumWatchdogTargets) :
    parseSnapshot rd bound snap =
      if al.installationId ≠ rd.installationId ∨ al.sha256 ≠ rd.sha256 then
        .error (controllerError "controller registry snapshot identity is invalid")
      else do
        let found ← (st.entries.map (entryLine al)).foldlM (parseEntry rd) ([], none)
        if bound < activeBindingCount found.1 ∨ st.revision ≤ found.1.length then
          throw (controllerError "controller registry snapshot exceeds its bound")
        return ⟨st.revision, found.1, none⟩ := by
  obtain ⟨hbody, hspl⟩ := lines_of_encodeSnapshot henc hens
  have hnot : ¬(bound = 0 ∨ maximumWatchdogTargets < bound) := by
    omega
  have hpos := parsePositive_decimal hrev "controller registry snapshot revision is invalid"
  simp only [parseSnapshot, if_neg hnot, hbody, ok_bind, hspl, snapshotLines, cons_append,
    nil_append, stripPrefix_append, head?_cons, Option.bind_some, hpos, tail_cons,
    ne_eq, not_true_eq_false, false_or, Option.some.injEq]
  rfl

end

theorem parseSnapshot_of_valid (hval : st.Valid al bound)
    (hfits : st.Fits) (henc : encodeSnapshot al st = .ok snap) :
    parseSnapshot al bound snap = .ok ⟨st.revision, st.entries, none⟩ := by
  have hkeys : st.entries.length ≤ al.controllers.length := by
    have hsub : st.entries.map (·.1) ⊆ al.controllers.map (·.1) := by
      intro id hid
      obtain ⟨ent, hen, rfl⟩ := mem_map.mp hid
      obtain ⟨cert, hlk, -⟩ := (hval.entryOk ent hen).certificate
      exact mem_map_of_mem ((lookupKey_eq_some al.ordered).mp hlk)
    have hlen := (hval.ordered.nodup_keys.subperm hsub).length_le
    simpa using hlen
  have hrev : 0 < st.revision ∧ st.revision < u64Bound :=
    ⟨Nat.zero_lt_of_lt hval.revision.1, hval.revision.2⟩
  obtain ⟨prev, hfold⟩ := foldlM_entryLine_of ([], none) hval.entryOk hval.ordered
    (by simp) (by simp) (by simpa using hkeys) hfits hval.apart
  have hnot : ¬(bound < activeBindingCount ([] ++ st.entries) ∨
      st.revision ≤ ([] ++ st.entries).length) := by
    have hact := hval.active
    have hlen := hval.revision.1
    rw [nil_append]
    omega
  rw [parseSnapshot_encodeSnapshot henc hval.entryOk hrev hval.bound, if_neg (by simp),
    hfold, ok_bind, if_neg hnot]
  rfl

theorem entries_of_parseSnapshot {parsed : RegistryState}
    (hens : ∀ ent ∈ st.entries, EntryOk al ent) (hord : Ordered st.entries)
    (hrev : 0 < st.revision ∧ st.revision < u64Bound) (henc : encodeSnapshot al st = .ok snap)
    (hprs : parseSnapshot rd bound snap = .ok parsed) : parsed.entries = st.entries := by
  have hbd : 0 < bound ∧ bound ≤ maximumWatchdogTargets := by
    obtain ⟨hbd, -⟩ := throw_if_ok_iff.mp hprs
    omega
  rw [parseSnapshot_encodeSnapshot henc hens hrev hbd] at hprs
  obtain ⟨-, hprs⟩ := error_if_ok_iff.mp hprs
  obtain ⟨found, hfold, hprs⟩ := bind_ok_iff.mp hprs
  obtain ⟨-, hprs⟩ := throw_if_ok_iff.mp hprs
  have hfd := foldlM_entryLine_ok hens hord (by simp) hfold
  rwa [← Except.ok.inj hprs]

/-! ### What is read meets the rules -/

theorem parseBinding_ok {active desc : Text} (h : parseBinding id cert gen active desc = .ok bnd) :
    ∀ b ∈ bnd, b.controllerId = id ∧ b.certificateSha256 = cert ∧ b.sessionGeneration = gen ∧
      (targetDescriptor b.target).length ≤ maxDescriptorBytes := by
  intro b hb
  rw [parseBinding] at h
  split_ifs at h
  · rw [← Except.ok.inj h] at hb
    cases hb
  · split at h
    · cases h
    · next source _ =>
      obtain ⟨-, h⟩ := throw_if_ok_iff.mp h
      obtain ⟨tgt, htgt, h⟩ := bind_ok_iff.mp h
      obtain ⟨hcnl, h⟩ := throw_if_ok_iff.mp h
      obtain ⟨found, hnew, h⟩ := bind_ok_iff.mp h
      obtain rfl : found = b := by
        rw [← Except.ok.inj h] at hb
        exact Option.some.inj hb
      rw [ControllerBinding.new] at hnew
      split_ifs at hnew
      · cases hnew
        refine ⟨rfl, rfl, rfl, ?_⟩
        by_contra hlong
        have herr := parse_targetDescriptor_long (not_le.mp hlong)
        rw [not_not.mp hcnl, htgt] at herr
        cases herr

/-- STEP: what an entry line that is read adds. -/
theorem parseEntry_ok {line : Text} (h : parseEntry al found line = .ok found') :
    ∃ ent : Text × ControllerEntry, found'.1 = insertKey ent.1 ent.2 found.1 ∧
      EntryOk al ent ∧ ∀ bnd ∈ ent.2.binding,
        (targetDescriptor bnd.target).length ≤ maxDescriptorBytes ∧
        rejectTargetConflict found.1 bnd = .ok () := by
  rw [parseEntry] at h
  split at h
  · cases h
  · next val _ =>
    obtain ⟨hen, h⟩ := throw_if_ok_iff.mp h
    obtain ⟨-, h⟩ := throw_if_ok_iff.mp h
    obtain ⟨gen, hgen, h⟩ := bind_ok_iff.mp h
    obtain ⟨bnd, hbin, h⟩ := bind_ok_iff.mp h
    have hfds := parseBinding_ok hbin
    have haut : al.authorizes ((val.splitOn 44).getD 0 []) ((val.splitOn 44).getD 1 []) = true := by
      by_contra hnot
      exact hen (.inr (.inl (by simpa using hnot)))
    have hres : found' = (insertKey ((val.splitOn 44).getD 0 []) ⟨gen, bnd⟩ found.1,
        some ((val.splitOn 44).getD 0 [])) ∧
        ∀ b ∈ bnd, rejectTargetConflict found.1 b = .ok () := by
      cases bnd with
      | none => exact ⟨(Except.ok.inj h).symm, by simp⟩
      | some b =>
        obtain ⟨_, hcon, h⟩ := bind_ok_iff.mp h
        exact ⟨(Except.ok.inj h).symm, fun other hoth => Option.some.inj hoth ▸ hcon⟩
    refine ⟨((val.splitOn 44).getD 0 [], ⟨gen, bnd⟩), ?_, ⟨⟨_,
      ControllerAllowlist.authorizes_iff.mp haut, fun b hb => ?_⟩, parsePositive_ok hgen⟩,
      fun b hb => ⟨(hfds b hb).2.2.2, hres.2 b hb⟩⟩
    · rw [hres.1]
    · obtain ⟨hid, hcrt, hses, -⟩ := hfds b hb
      exact ⟨hid, hcrt, hses⟩

theorem Apart.insertKey {ent : ControllerEntry} (h : Apart es) (hord : Ordered es)
    (hnew : ∀ bnd ∈ ent.binding, ∀ old ∈ es, old.1 ≠ id → ∀ other ∈ old.2.binding,
      targetsConflict other.target bnd.target = false) : Apart (Schemes.insertKey id ent es) := by
  intro first hfst second hsnd hne left hleft right hrig
  rcases (mem_insertKey hord).mp hfst with rfl | ⟨hfst, hfir⟩
  · rcases (mem_insertKey hord).mp hsnd with rfl | ⟨hsnd, hsec⟩
    · exact absurd rfl hne
    · rw [targetsConflict_comm]
      exact hnew left hleft second hsnd hsec right hrig
  · rcases (mem_insertKey hord).mp hsnd with rfl | ⟨hsnd, -⟩
    · exact hnew right hrig first hfst hfir left hleft
    · exact h first hfst second hsnd hne left hleft right hrig

/-- RUN: every text that is read gives a state that meets the rules. -/
theorem valid_of_parseSnapshot (h : parseSnapshot al bound snap = .ok st) :
    st.Valid al bound ∧ st.Fits := by
  obtain ⟨hbd, h⟩ := throw_if_ok_iff.mp h
  obtain ⟨body, -, h⟩ := bind_ok_iff.mp h
  split at h
  · obtain ⟨-, h⟩ := throw_if_ok_iff.mp h
    split at h
    · cases h
    · change (parsePositive _ _ >>= fun _ => _) = _ at h
      obtain ⟨rev, hrev, h⟩ := bind_ok_iff.mp h
      obtain ⟨found, hfold, h⟩ := bind_ok_iff.mp h
      obtain ⟨hexc, h⟩ := throw_if_ok_iff.mp h
      have hens := foldlM_ok_of (fun found : ControllerEntries × Option Text =>
        Ordered found.1 ∧ (∀ ent ∈ found.1, EntryOk al ent ∧
          ∀ bnd ∈ ent.2.binding,
            (targetDescriptor bnd.target).length ≤ maxDescriptorBytes) ∧ Apart found.1) hfold
        ⟨List.Pairwise.nil, by simp, by simp [Apart]⟩ ?_
      · obtain ⟨hord, hen, hapa⟩ := hens
        rw [← Except.ok.inj h]
        exact ⟨⟨by omega, hord, fun ent he => (hen ent he).1, hapa,
          not_lt.mp fun hmore => hexc (.inl hmore),
          ⟨not_le.mp fun hle => hexc (.inr hle), (parsePositive_ok hrev).2⟩⟩,
          fun ent he => (hen ent he).2⟩
      · rintro before line - after ⟨hord, hen, hapa⟩ hst
        obtain ⟨ent, haft, hok, hbin⟩ := parseEntry_ok hst
        obtain ⟨_, _, hid⟩ := hok.certificate
        rw [haft]
        refine ⟨ordered_insertKey hord, fun e he => ?_, hapa.insertKey hord ?_⟩
        · rcases (mem_insertKey hord).mp he with rfl | ⟨he, -⟩
          · exact ⟨hok, fun bnd hb => (hbin bnd hb).1⟩
          · exact hen e he
        · intro bnd hb old hold hne other hoth
          have hne' : old.1 ≠ bnd.controllerId := (hid bnd hb).1 ▸ hne
          exact rejectTargetConflict_ok_iff.mp (hbin bnd hb).2 old hold hne' other hoth
  · cases h

end LetsInfer.Watchdog
