import LetsInfer.Authentication.Concurrent
import LetsInfer.Schemes.Codecs
import LetsInfer.Schemes.Fields

/-! @src core/authentication/src/li_authentication_manager.rs
      core/node/src/li_authentication_database.rs | name:Revocation is permanent | scheme:programs

    The guarantees of API keys over every run of managers that share a key store. -/

namespace LetsInfer.Authentication
open Schemes Interface Database List Function

variable {sha : Sha256} {sha256 : Interface.Octets → Block 32} {json : AuthenticationJson}

/-- What a call has achieved when it returns. -/
def requestPost (json : AuthenticationJson) (sha256 : Interface.Octets → Block 32) :
    Request → Response → Store → Prop
  | .create _ _, .issued (.ok change), s =>
    OpenedBy json sha256 change.value.apiKey.keyId change.value.secret s
  | .rotate keyId _, .issued (.ok change), s | .rotatePreservingName keyId, .issued (.ok change), s =>
    RevokedKey json s keyId ∧
      OpenedBy json sha256 change.value.apiKey.keyId change.value.secret s
  | .revoke keyId, .key (.ok _), s => RevokedKey json s keyId
  | .authenticateIdentity token, .principal (.ok principal), _
  | .authenticate token _, .principal (.ok principal), _ =>
    ∃ parsed, ParsedApiKey.parse token = some parsed ∧ principal.keyId = parsed.keyId
  | .create _ _, .issued (.error _), _ | .rotate _ _, .issued (.error _), _
  | .rotatePreservingName _, .issued (.error _), _ | .revoke _, .key (.error _), _
  | .authenticateIdentity _, .principal (.error _), _ | .authenticate _ _, .principal (.error _), _
  | .updatePolicy _ _, .key _, _ => True
  | _, _, _ => False

theorem requestProgram_safe (req : Request) :
    KeySafe sha json (requestPost json sha256 req) (fun _ => True) (requestProgram sha256 req) := by
  cases req with
  | create name policy =>
    refine (create_safe name policy).map ?_
    rintro (e | change) s - h
    · trivial
    · exact h
  | updatePolicy keyId policy => exact (updatePolicy_safe keyId policy).map fun _ _ _ _ => trivial
  | rotate keyId name =>
    refine (rotate_safe keyId name).map ?_
    rintro (e | change) s - h
    · trivial
    · exact h
  | rotatePreservingName keyId =>
    refine (rotatePreservingName_safe keyId).map ?_
    rintro (e | change) s - h
    · trivial
    · exact h
  | revoke keyId =>
    refine (revoke_safe keyId).map ?_
    rintro (e | change) s - h
    · trivial
    · exact h
  | authenticateIdentity token =>
    refine (authenticateIdentity_safe token).map ?_
    rintro (e | p) s - h
    · trivial
    · exact h
  | authenticate token model =>
    refine (authenticate_of_identity (authenticateIdentity_safe token)).map ?_
    rintro (e | p) s - h
    · trivial
    · exact h

/-! ### Tokens -/

theorem underscore_not_mem_hex {v : Interface.Octets} (h : ∀ byte ∈ v, isLowerHexByte byte) :
    (95 : UInt8) ∉ v := by
  intro hmem
  have := h 95 hmem
  revert this
  decide

/-- ROUND TRIP: a token names the key and the secret it was made of. -/
theorem parse_takeToken (issued : IssuedApiKey) :
    ParsedApiKey.parse issued.takeToken = some ⟨issued.apiKey.keyId, issued.secret⟩ := by
  have hkid : (95 : UInt8) ∉ issued.apiKey.keyId.asStr :=
    underscore_not_mem_hex (all_eq_true.mp (Bool.and_eq_true_iff.mp issued.apiKey.keyId.valid).2)
  have hsec : (95 : UInt8) ∉ hexEncode issued.secret.1 :=
    underscore_not_mem_hex (all_eq_true.mp
      (Bool.and_eq_true_iff.mp (isLowerHex_hexEncode issued.secret.1)).2)
  have hdec : decodeHexadecimal 32 (hexEncode issued.secret.1) = some issued.secret := by
    rw [decodeHexadecimal, hexDecode_hexEncode]
    exact dif_pos issued.secret.2
  rw [ParsedApiKey.parse, IssuedApiKey.takeToken, append_assoc, stripPrefix_append]
  simp only [Option.bind_eq_bind, Option.bind_some, splitOnce_append hkid,
    ApiKeyId.parse_asStr, hdec, contains_iff_mem, hsec, if_false]
  rfl

/-! ### Rotations -/

variable {env : StoreEnvironment} {s : Store} {keyId : ApiKeyId} {m : AuthenticationMachine}
  {tr : List (AuthenticationMachine × Move Request ManagerEnvironment × Option (Request × Response))}

/-- The step revokes the key by the rotation that makes the successor. -/
def RotatesIn (json : AuthenticationJson) (m : AuthenticationMachine)
    (move : Move Request ManagerEnvironment) (m' : AuthenticationMachine)
    (keyId successor : ApiKeyId) : Prop :=
  ∃ revoked expected replacement, m.operation move = some (.rotate revoked expected replacement) ∧
    revoked.apiKey.keyId = keyId ∧ replacement.apiKey.keyId = successor ∧
    ActiveKey json m.shared keyId ∧ RevokedKey json m'.shared keyId

theorem rotate_of_added {env : ManagerEnvironment} {op : Operation}
    {suc : ApiKeyId} (hs : KeyRows json s) (hbef : keyTable json s suc = none)
    (haft : keyTable json (perform sha json env s op).2 suc ≠ none) (hact : ActiveKey json s keyId)
    (hrvk : RevokedKey json (perform sha json env s op).2 keyId) :
    ∃ revoked exp rep, op = .rotate revoked exp rep ∧
      revoked.apiKey.keyId = keyId ∧ rep.apiKey.keyId = suc := by
  obtain ⟨active, rev, hkey, hnot⟩ := hact
  have hmov : ∀ s', RevokedKey json s' keyId → keyTable json s' keyId ≠ keyTable json s keyId :=
    fun s' hgone heq => not_active_of_revoked hgone ⟨active, rev, heq.trans hkey, hnot⟩
  generalize hs' : (perform sha json env s op).2 = s' at haft hrvk
  cases op with
  | now | fill | read key => exact absurd (hs' ▸ hbef) haft
  | create rcd =>
    have hmade : storeCreate sha json env.store s rcd = (_, s') := Prod.ext rfl hs'
    rcases storeCreate_cases hs rcd hmade with
      ⟨rfl, -⟩ | ⟨hno, -, -, htb⟩
    · exact absurd hbef haft
    · have hne : keyId ≠ rcd.apiKey.keyId := by
        rintro rfl
        cases hno.symm.trans hkey
      exact absurd (by rw [htb, update_of_ne hne]) (hmov s' hrvk)
  | replace rcd exp =>
    have hmade : storeReplace sha json env.store s rcd exp = (_, s') :=
      Prod.ext rfl hs'
    rcases storeReplace_cases hs rcd exp hmade with
      ⟨rfl, -⟩ | ⟨hrev, -, -, -, htb⟩
    · exact absurd hbef haft
    · have hne : suc ≠ rcd.apiKey.keyId := by
        rintro rfl
        rw [hbef] at hrev
        cases hrev
      exact absurd (by rw [htb, update_of_ne hne, hbef]) haft
  | rotate revoked exp rep =>
    have hmade : storeRotate sha json env.store s revoked exp rep = (_, s') :=
      Prod.ext rfl hs'
    rcases storeRotate_cases hs revoked rep exp hmade with
      ⟨rfl, -⟩ | ⟨hrev, hno, -, -, -, htb⟩
    · exact absurd hbef haft
    · refine ⟨revoked, exp, rep, rfl, ?_, ?_⟩
      · by_contra hne
        have hne' : keyId ≠ rep.apiKey.keyId := by
          rintro rfl
          cases hno.symm.trans hkey
        refine hmov s' hrvk ?_
        rw [htb, update_of_ne hne', update_of_ne (Ne.symm hne)]
      · by_contra hne
        have hne' : suc ≠ revoked.apiKey.keyId := by
          rintro rfl
          rw [hbef] at hrev
          cases hrev
        refine haft ?_
        rw [htb, update_of_ne (Ne.symm hne), update_of_ne hne', hbef]

theorem added_of_rotate {exp : UInt64} {revoked rep : AuthenticationRecord}
    (hs : KeyRows json s) (hact : ActiveKey json s revoked.apiKey.keyId) (hrvk : RevokedKey json
      (storeRotate sha json env s revoked exp rep).2 revoked.apiKey.keyId) :
    keyTable json s rep.apiKey.keyId = none ∧
      keyTable json (storeRotate sha json env s revoked exp rep).2
        rep.apiKey.keyId = some (rep, 1) := by
  generalize hs' : (storeRotate sha json env s revoked exp rep).2 = s' at hrvk
  have hmade : storeRotate sha json env s revoked exp rep = (_, s') :=
    Prod.ext rfl hs'
  rcases storeRotate_cases hs revoked rep exp hmade with
    ⟨rfl, -⟩ | ⟨-, hno, -, -, -, htb⟩
  · exact absurd hact (not_active_of_revoked hrvk)
  · exact ⟨hno, by rw [htb, update_self]⟩

abbrev KeyLegit (sha : Sha256) (sha256 : Interface.Octets → Block 32) (json : AuthenticationJson)
    (m : AuthenticationMachine) : Prop :=
  Legit (perform sha json) (KeyStore json) (KeyChanges json) (requestPost json sha256) m

/-- STEP: the successors after a step are those before it and those of its rotation. -/
theorem successor_step {m' : AuthenticationMachine} {move : Move Request ManagerEnvironment}
    {output : Option (Request × Response)} (h : KeyLegit sha sha256 json m)
    (hst : authenticationStep sha256 sha json m move = some (m', output))
    (keyId suc : ApiKeyId) : SuccessorOf json m'.shared keyId suc ↔
      SuccessorOf json m.shared keyId suc ∨ RotatesIn json m move m' keyId suc := by
  obtain ⟨hlgt', hchg, -⟩ := h.step KeyChanges.refl requestProgram_safe hst
  constructor
  · intro hsuc
    rcases hchg.successor_cases hsuc with hold | ⟨hbef, hact, hrvk⟩
    · exact .inl hold
    · obtain ⟨rcd, rev, hkey, -⟩ := hsuc
      cases machineStep_moves hst with
      | start req | returns env found => cases hbef.symm.trans hkey
      | operates env found =>
        obtain ⟨revoked, exp, rep, rfl, hkid, hsuc⟩ :=
          rotate_of_added h.inv.rows hbef (by simp [hkey]) hact hrvk
        refine .inr ⟨revoked, exp, rep, ?_, hkid, hsuc, hact, hrvk⟩
        rw [Machine.operation, found]
  · rintro (hold | ⟨revoked, exp, rep, hope, rfl, rfl, hact, hrvk⟩)
    · exact hchg.successor hold
    · cases machineStep_moves hst with
      | start req => cases hope
      | returns env found =>
        rw [Machine.operation, found] at hope
        cases hope
      | operates env found =>
        rw [Machine.operation, found] at hope
        cases hope
        obtain ⟨hno, hadd⟩ := added_of_rotate h.inv.rows hact hrvk
        exact ⟨rep, 1, hadd, (hchg.added _ _ _ hno hadd _).mpr ⟨hact, hrvk⟩⟩

section

variable (hrun : Run (authenticationStep sha256 sha json) ⟨.blank, []⟩ tr m)
include hrun

theorem legit_of_run : KeyLegit sha sha256 json m :=
  (Legit.idle KeyStore.blank).run KeyChanges.refl requestProgram_safe hrun

/-- RUN: the successors are those of the rotations of the run. -/
theorem successor_run (keyId suc : ApiKeyId) : SuccessorOf json m.shared keyId suc ↔
      ∃ e ∈ tr, ∃ m', authenticationStep sha256 sha json e.1 e.2.1 = some (m', e.2.2) ∧
        RotatesIn json e.1 e.2.1 m' keyId suc := by
  induction hrun with
  | nil =>
    simp only [not_mem_nil, false_and, exists_false, iff_false]
    rintro ⟨_, _, ⟨⟩, _⟩
  | @snoc tr s t a o hrun hst ih =>
    rw [successor_step (legit_of_run hrun) hst, ih]
    constructor
    · rintro (⟨e, he, hrot⟩ | hrot)
      · exact ⟨e, mem_append_left _ he, hrot⟩
      · exact ⟨_, mem_concat_self, t, hst, hrot⟩
    · rintro ⟨e, he, m', hst', hrot⟩
      rcases mem_snoc.mp he with he | rfl
      · exact .inl ⟨e, he, m', hst', hrot⟩
      · cases hst.symm.trans hst'
        exact .inr hrot

end

/-! ### A token at work -/

variable {token : Interface.Octets} {parsed : ParsedApiKey} {req : Request}
  {rcd : AuthenticationRecord}

/-- What a request to authenticate is told once its key was recognised. -/
def Grants (principal : AuthenticationPrincipal) (token : Interface.Octets) (request : Request)
    (granted : Except AuthenticationError AuthenticationPrincipal) : Prop :=
  (request = .authenticateIdentity token ∧ granted = .ok principal) ∨
    ∃ model, request = .authenticate token model ∧
      granted = if principal.policy.modelScope.permits model then .ok principal
        else .error .unauthorized

def foundRecord (keyId : ApiKeyId) (missing : AuthenticationError) :
    Except AuthenticationStoreError (Option VersionedAuthenticationRecord) →
      Except AuthenticationError VersionedAuthenticationRecord
  | .error error => .error (.store error)
  | .ok none => .error missing
  | .ok (some current) => (requireReadRecord current keyId).map fun _ => current

theorem requiredRecord_eq (keyId : ApiKeyId) (missing : AuthenticationError) :
    (requiredRecord keyId missing).run =
      .call (.read keyId) fun ans => .done (foundRecord keyId missing ans) := by
  refine congrArg (Prog.call (Operation.read keyId)) (funext fun ans => ?_)
  rcases ans with e | found
  · rfl
  · cases found with
    | none => rfl
    | some cur =>
      show (do Program.ofExcept (requireReadRecord cur keyId); pure cur : Program _) = _
      rw [foundRecord]
      cases requireReadRecord cur keyId <;> rfl

section

variable (hprs : ParsedApiKey.parse token = some parsed)
include hprs

theorem authenticateIdentity_eq :
    (authenticateIdentity sha256 token).run = .call (.read parsed.keyId) fun ans =>
      match foundRecord parsed.keyId .unauthorized ans with
      | .error e => .done (.error e)
      | .ok stored => .call .now fun clock =>
        .done (clock.bind (verdict sha256 stored.record parsed.secret)) := by
  rw [authenticateIdentity, hprs]
  show Prog.bind (requiredRecord parsed.keyId .unauthorized).run _ = _
  rw [requiredRecord_eq, Prog.bind]
  refine congrArg (Prog.call (Operation.read parsed.keyId)) (funext fun ans => ?_)
  cases foundRecord parsed.keyId .unauthorized ans with
  | error e => rfl
  | ok stored =>
    refine congrArg (Prog.call Operation.now) (funext fun clock => ?_)
    rcases clock with e | time <;> rfl

/-- The steps of a request to authenticate: a read of the key, the time, and the answer. -/
theorem authenticate_steps {p : AuthenticationPrincipal}
    {granted : Except AuthenticationError AuthenticationPrincipal} (hgra : Grants p token req granted) :
    ∃ next, requestProgram sha256 req = .call (.read parsed.keyId) next ∧
      ∀ ans stored, foundRecord parsed.keyId .unauthorized ans = .ok stored →
        ∃ next', next ans = .call .now next' ∧
          ∀ time, verdict sha256 stored.record parsed.secret time = .ok p →
            next' (.ok time) = .done (.principal granted) := by
  rcases hgra with ⟨rfl, rfl⟩ | ⟨model, rfl, rfl⟩
  · rw [requestProgram, authenticateIdentity_eq hprs]
    refine ⟨_, rfl, fun ans stored hfd => ?_⟩
    simp only [hfd]
    refine ⟨_, rfl, fun time hvdt => ?_⟩
    show Prog.done (Response.principal (verdict sha256 stored.record parsed.secret time)) = _
    rw [hvdt]
  · rw [requestProgram, authenticate]
    show ∃ next, Prog.bind (Prog.bind (authenticateIdentity sha256 token).run _) _ = _ ∧ _
    rw [authenticateIdentity_eq hprs]
    refine ⟨_, rfl, fun ans stored hfd => ?_⟩
    simp only [hfd]
    refine ⟨_, rfl, fun time hvdt => ?_⟩
    show Prog.bind (Prog.bind (.done (verdict sha256 stored.record parsed.secret time)) _) _ = _
    rw [hvdt]
    simp only [Prog.bind, ExceptT.bindCont]
    split <;> rfl

end

/-- One step of a run: the machine before it, the move, and what was returned. -/
abbrev Entry :=
  AuthenticationMachine × Move Request ManagerEnvironment × Option (Request × Response)

/-- A call is started, reads its key, takes the time and returns; other calls go on in between. -/
structure Attempt (request : Request) (read clock ended : Entry)
    (environment environment' : ManagerEnvironment) (tr : List Entry) : Prop where
  steps : ∃ started idle idle' idle'' after last,
    tr = started :: (idle ++ read :: (idle' ++ clock :: (idle'' ++ ended :: after))) ∧
      started.2.1 = .start request ∧
      read.2.1 = .advance started.1.calls.length environment ∧
      clock.2.1 = .advance started.1.calls.length environment' ∧
      ended.2.1 = .advance started.1.calls.length last ∧
      ∀ e ∈ idle ++ idle' ++ idle'', ∀ other, e.2.1 ≠ .advance started.1.calls.length other

theorem verdict_ok {secret : Block 32} {time : ℕ} (hrvk : rcd.apiKey.revokedAt = none)
    (hexp : rcd.apiKey.policy.expiresAt.any (· ≤ time) = false)
    (hver : rcd.verifier = apiKeyVerifier sha256 rcd.salt secret) :
    verdict sha256 rcd secret time = .ok ⟨rcd.apiKey.keyId, rcd.apiKey.policy⟩ := by
  simp [verdict, hrvk, hexp, hver]

theorem foundRecord_storeRead {missing : AuthenticationError} {rev : ℕ} (hs : KeyRows json s)
    (hflt : env.readFault = none) (hkey : keyTable json s keyId = some (rcd, rev)) :
    foundRecord keyId missing (storeRead json env s keyId) = .ok ⟨rcd, UInt64.ofNat rev⟩ := by
  have hrev : s.records.revision (json.contract.collection, keyId.asStr) = some rev := by
    rw [← hs.revision_eq keyId, hkey]
    rfl
  have hpos : UInt64.ofNat rev ≠ 0 := by
    intro hzero
    have hnat := toNat_ofNat_of_lt (revision_lt hrev)
    rw [hzero] at hnat
    exact (revision_pos hrev).ne hnat
  rw [storeRead_eq hs hflt, hkey, Option.map_some, foundRecord, requireReadRecord,
    if_neg (by simp [hpos, hs.keyId_eq hkey])]
  rfl

/-- A token is granted its key as long as the record that was read says so. -/
theorem Attempt.granted {m m' : AuthenticationMachine} {tr : List Entry}
    {read clock ended : Entry} {env env' : ManagerEnvironment} {rev time : ℕ}
    {granted : Except AuthenticationError AuthenticationPrincipal}
    (h : Attempt req read clock ended env env' tr)
    (hlgt : KeyLegit sha sha256 json m) (hrun : Run (authenticationStep sha256 sha json) m tr m')
    (hprs : ParsedApiKey.parse token = some parsed)
    (hope : OpenedBy json sha256 parsed.keyId parsed.secret m.shared)
    (hflt : env.store.readFault = none) (hclo : env'.clock = .ok time)
    (hkey : keyTable json read.1.shared parsed.keyId = some (rcd, rev))
    (hrvk : rcd.apiKey.revokedAt = none) (hexp : rcd.apiKey.policy.expiresAt.any (· ≤ time) = false)
    (hgra : Grants ⟨parsed.keyId, rcd.apiKey.policy⟩ token req granted) :
    ended.2.2 = some (req, .principal granted) := by
  obtain ⟨started, idle, idle', idle'', after, last, rfl, hstr, hread, hnow, hend, hidle⟩ :=
    h.steps
  obtain ⟨next, hprg, hnx⟩ := authenticate_steps hprs hgra
  obtain ⟨rfl, m₁, hst₁, hrun⟩ := hrun.uncons
  obtain ⟨m₂, hrun₂, hrun⟩ := hrun.split
  obtain ⟨rfl, m₃, hst₃, hrun⟩ := hrun.uncons
  obtain ⟨m₄, hrun₄, hrun⟩ := hrun.split
  obtain ⟨rfl, m₅, hst₅, hrun⟩ := hrun.uncons
  obtain ⟨m₆, hrun₆, hrun⟩ := hrun.split
  obtain ⟨rfl, m₇, hst₇, -⟩ := hrun.uncons
  -- The record that is read was made with the secret of the token.
  have hlgt₁ := (hlgt.step KeyChanges.refl requestProgram_safe hst₁)
  have hlgt₂ := hlgt₁.1.run KeyChanges.refl requestProgram_safe hrun₂
  have hope₁ := stable_openedBy _ _ _ _ hlgt.inv hlgt₁.1.inv hlgt₁.2.1 hope
  obtain ⟨opened, rev', hopn, hver⟩ := hlgt₁.1.stable_run KeyChanges.refl
    requestProgram_safe hrun₂ (stable_openedBy _ _) hope₁
  cases hopn.symm.trans hkey
  have hkid := hlgt₂.inv.rows.keyId_eq hkey
  have hvdt := verdict_ok hrvk hexp hver
  rw [hkid] at hvdt
  -- The call goes through its three steps.
  rw [hstr] at hst₁
  have hcall₁ := call_of_start hst₁
  have hcall₂ := call_kept hrun₂ (fun e he => hidle e (by simp [he])) hcall₁
  rw [hprg] at hcall₂
  rw [hread] at hst₃
  have hcall₃ := operates_of_call hcall₂ hst₃
  obtain ⟨next', hnow', hdone⟩ := hnx _ _ (foundRecord_storeRead hlgt₂.inv.rows hflt hkey)
  have hcall₄ := call_kept hrun₄ (fun e he => hidle e (by simp [he])) hcall₃
  rw [show (perform sha json env read.1.shared (.read parsed.keyId)).1 =
    storeRead json env.store read.1.shared parsed.keyId from rfl, hnow'] at hcall₄
  rw [hnow] at hst₅
  have hcall₅ := operates_of_call hcall₄ hst₅
  have hcall₆ := call_kept hrun₆ (fun e he => hidle e (by simp [he])) hcall₅
  rw [show (perform sha json env' clock.1.shared .now).1 = env'.clock from rfl,
    hclo, hdone time hvdt] at hcall₆
  rw [hend] at hst₇
  exact returns_of_done hcall₆ hst₇

/-! ### The guarantees -/

/-- The call has revoked the key, on its own or by a rotation. -/
def Retires (keyId : ApiKeyId) : Request → Response → Prop
  | .revoke key, .key (.ok _) => key = keyId
  | .rotate key _, .issued (.ok _) => key = keyId
  | .rotatePreservingName key, .issued (.ok _) => key = keyId
  | _, _ => False

theorem Retires.revoked {resp : Response} (h : Retires keyId req resp)
    (hpost : requestPost json sha256 req resp s) : RevokedKey json s keyId := by
  unfold Retires at h
  split at h
  · exact h ▸ hpost
  · exact h ▸ hpost.1
  · exact h ▸ hpost.1
  · exact h.elim

def Issues (issued : IssuedApiKey) : Response → Prop
  | .issued (.ok change) => change.value = issued
  | _ => False

theorem Issues.opened {issued : IssuedApiKey} {req : Request} {resp : Response} {s : Store}
    (h : Issues issued resp) (hpost : requestPost json sha256 req resp s) :
    OpenedBy json sha256 issued.apiKey.keyId issued.secret s := by
  unfold Issues at h
  split at h
  · subst h
    cases req with
    | create name policy => exact hpost
    | rotate keyId name => exact hpost.2
    | rotatePreservingName keyId => exact hpost.2
    | updatePolicy keyId policy => exact hpost.elim
    | revoke keyId => exact hpost.elim
    | authenticateIdentity token => exact hpost.elim
    | authenticate token model => exact hpost.elim
  · exact h.elim

def Presents (token : Interface.Octets) (request : Request) : Prop :=
  request = .authenticateIdentity token ∨ ∃ model, request = .authenticate token model

theorem Presents.refused (h : Presents token req) (hprs : ParsedApiKey.parse token = some parsed) :
    KeySafe sha json (fun resp _ => ∃ e, resp = .principal (.error e))
      (fun s => RevokedKey json s parsed.keyId) (requestProgram sha256 req) := by
  have hidt : KeySafe sha json (Safe.onOk fun _ _ => False)
      (fun s => RevokedKey json s parsed.keyId) (authenticateIdentity sha256 token) :=
    authenticateIdentity_revoked hprs
  rcases h with rfl | ⟨model, rfl⟩
  · refine hidt.map ?_
    rintro (e | p) s - h
    · exact ⟨e, rfl⟩
    · exact h.elim
  · refine (authenticate_of_identity hidt).map ?_
    rintro (e | p) s - h
    · exact ⟨e, rfl⟩
    · exact h.elim

def RevokedAt (json : AuthenticationJson) (s : Store) (keyId : ApiKeyId) (time : ℕ) : Prop :=
  ∃ record revision, keyTable json s keyId = some (record, revision) ∧
    record.apiKey.revokedAt = some time

theorem stable_revokedAt (keyId : ApiKeyId) (time : ℕ) :
    KeyStable json fun s => RevokedAt json s keyId time := by
  rintro s s' - - hchg ⟨rcd, rev, hkey, hrvk⟩
  obtain ⟨⟨later, rev'⟩, hlat, hfol⟩ := hchg.follows keyId _ hkey
  exact ⟨later, rev', hlat, (hfol.revoked (by simp [hrvk])).trans hrvk⟩

/-- RUN: whatever the managers do side by side, a call that presents the token of a key after a call
    has retired the key is refused; a key stays revoked, with its time; a key has at most one
    successor, and the successors are those of the rotations that revoked their key; and an issued
    token authenticates to its own key only, and does so as long as the key is neither revoked nor
    expired. -/
theorem revocation_permanent {tr : List Entry} {m : AuthenticationMachine}
    (hrun : Run (authenticationStep sha256 sha json) ⟨.blank, []⟩ tr m) :
    (∀ before returned between started after,
      tr = before ++ returned :: (between ++ started :: after) →
      ∀ retired response token parsed request, returned.2.2 = some (retired, response) →
        ParsedApiKey.parse token = some parsed → Retires parsed.keyId retired response →
        started.2.1 = .start request → Presents token request →
        ∀ ended ∈ after, ∀ environment answered answer,
          ended.2.1 = .advance started.1.calls.length environment →
          ended.2.2 = some (answered, answer) → ∃ error, answer = .principal (.error error)) ∧
    (∀ before e after, tr = before ++ e :: after → ∀ keyId time,
      RevokedAt json e.1.shared keyId time →
        RevokedAt json m.shared keyId time ∧
          ∀ later ∈ after, RevokedAt json later.1.shared keyId time) ∧
    (∀ keyId successor, SuccessorOf json m.shared keyId successor →
      RevokedKey json m.shared keyId ∧
        ∀ other, SuccessorOf json m.shared keyId other → other = successor) ∧
    (∀ keyId successor, SuccessorOf json m.shared keyId successor ↔
      ∃ e ∈ tr, ∃ m', authenticationStep sha256 sha json e.1 e.2.1 = some (m', e.2.2) ∧
        RotatesIn json e.1 e.2.1 m' keyId successor) ∧
    ∀ before returned after, tr = before ++ returned :: after →
      ∀ asked response issued, returned.2.2 = some (asked, response) → Issues issued response →
        (∀ e ∈ tr, ∀ request principal, e.2.2 = some (request, .principal (.ok principal)) →
          Presents issued.takeToken request → principal.keyId = issued.apiKey.keyId) ∧
        ∀ idle attempt, after = idle ++ attempt →
          ∀ request read clock ended environment environment' record revision time granted,
            Attempt request read clock ended environment environment' attempt →
            environment.store.readFault = none → environment'.clock = .ok time →
            keyTable json read.1.shared issued.apiKey.keyId = some (record, revision) →
            record.apiKey.revokedAt = none → record.apiKey.policy.expiresAt.any (· ≤ time) = false →
            Grants ⟨issued.apiKey.keyId, record.apiKey.policy⟩ issued.takeToken request granted →
            ended.2.2 = some (request, .principal granted) := by
  have hidle : KeyLegit sha sha256 json ⟨.blank, []⟩ := Legit.idle KeyStore.blank
  have hret := hidle.returns KeyChanges.refl requestProgram_safe hrun
  have hlgt := legit_of_run hrun
  refine ⟨?_, ?_, ?_, successor_run hrun, ?_⟩
  · rintro before returned between started after rfl retired response token parsed request
      hrtd hprs hrtr hstr hpre
    have hrvk := hrtr.revoked (hret returned (by simp) _ _ hrtd)
    have hlat := (hidle.stable_after KeyChanges.refl requestProgram_safe hrun
      (stable_revoked _) hrvk).2 started (by simp)
    have hass : before ++ returned :: (between ++ started :: after) =
        (before ++ returned :: between) ++ started :: after := by simp
    rw [hass] at hrun
    exact hidle.returns_of_start KeyChanges.refl requestProgram_safe hrun hstr
      (hpre.refused hprs) (stable_revoked _) hlat
  · rintro before e after rfl keyId time hrvk
    exact hidle.stable_after KeyChanges.refl requestProgram_safe hrun (stable_revokedAt _ _) hrvk
  · intro keyId successor hsuc
    exact ⟨hlgt.inv.succession _ _ hsuc, fun other hoth => hlgt.inv.unique _ _ _ hoth hsuc⟩
  · rintro before returned after rfl asked response issued hrtd hiss
    have hope := hiss.opened (hret returned (by simp) _ _ hrtd)
    constructor
    · intro e he request principal hpri hpre
      have hpost := hret e he _ _ hpri
      have hpar : ∃ parsed, ParsedApiKey.parse issued.takeToken = some parsed ∧
          principal.keyId = parsed.keyId := by
        rcases hpre with rfl | ⟨model, rfl⟩
        · exact hpost
        · exact hpost
      obtain ⟨parsed, hprs, hkid⟩ := hpar
      rw [parse_takeToken] at hprs
      cases hprs
      exact hkid
    · rintro idle attempt rfl request read clock ended environment environment' record revision time
        granted hatt hflt hclo hkey hrvk hexp hgra
      have hass : before ++ returned :: (idle ++ attempt) =
          (before ++ returned :: idle) ++ attempt := by simp
      rw [hass] at hrun
      obtain ⟨middle, hbef, hrest⟩ := hrun.split
      have hope' := (hidle.stable_after KeyChanges.refl requestProgram_safe hbef
        (stable_openedBy _ _) hope).1
      exact hatt.granted (legit_of_run hbef) hrest (parse_takeToken issued) hope' hflt
        hclo hkey hrvk hexp hgra

/-! ### A key that is created, revoked and presented again -/

/-- A writing of the database records, field after field. -/
def authenticationCodec : Codec AuthenticationDatabaseRecord :=
  let text : Codec Interface.Octets := Codec.list Codec.byte
  let number : Codec (Option ℕ) := Codec.option Codec.nat
  let fields := ((text.pair Codec.nat).pair (text.pair text)).pair
    ((Codec.option (Codec.list text)).pair (((number.pair number).pair
      (number.pair number)).pair (((number.pair (Codec.option text)).pair
      ((Codec.option text).pair Codec.nat)).pair ((number.pair (Codec.option text)).pair
      ((text.sub (·.length = 16)).pair (text.sub (·.length = 32)))))))
  fields.via
    (fun r => (((r.schema.name, r.schema.version), (r.keyId, r.name)), (r.selectedModels,
      (((r.expiresAtUnixMilliseconds, r.requestsPerMinute), (r.tokensPerMinute, r.concurrency)),
      (((r.contextTokens, r.tenant), (r.application, r.createdAtUnixMilliseconds)),
        ((r.revokedAtUnixMilliseconds, r.rotatedFrom), (r.salt, r.verifier)))))))
    (fun f => some ⟨⟨f.1.1.1, f.1.1.2⟩, f.1.2.1, f.1.2.2, f.2.1, f.2.2.1.1.1, f.2.2.1.1.2,
      f.2.2.1.2.1, f.2.2.1.2.2, f.2.2.2.1.1.1, f.2.2.2.1.1.2, f.2.2.2.1.2.1, f.2.2.2.1.2.2,
      f.2.2.2.2.1.1, f.2.2.2.2.1.2, f.2.2.2.2.2.1, f.2.2.2.2.2.2⟩) fun _ => rfl

def fieldwiseJson : AuthenticationJson :=
  ⟨authenticationCodec.write, authenticationCodec.readAll, authenticationCodec.readAll_write⟩

def zeros (n : ℕ) : Block n := ⟨(Bytes.zero n).bytes, (Bytes.zero n).length_eq⟩

theorem length_takeLast (inp : Interface.Octets) :
    ((inp.reverse ++ replicate 32 0).take 32).length = 32 := by simp

def lastBytes32 (input : Interface.Octets) : Block 32 :=
  ⟨(input.reverse ++ replicate 32 0).take 32, length_takeLast input⟩

def plainEnvironment (time : ℕ) : ManagerEnvironment :=
  ⟨.ok time, .ok ⟨zeros 16, zeros 32, zeros 16⟩, ⟨none, ⟨.ok time, none⟩⟩⟩

theorem isLowerHex_zeros : isLowerHex (hexEncode (zeros 16).1) identityLength = true := by decide

theorem isBoundedText_a : isBoundedText (utf8 "a") maxDisplayNameBytes true = true := by decide

def plainKey : IssuedApiKey :=
  ⟨⟨⟨hexEncode (zeros 16).1, isLowerHex_zeros⟩, ⟨utf8 "a", isBoundedText_a⟩,
    ⟨.all, none, ⟨none, none, none, none⟩, none, none⟩, 5, none, none, rfl, rfl⟩, zeros 32⟩

/-- A key is created and revoked, and its token is presented. -/
def revokedSession : List (Move Request ManagerEnvironment) :=
  .start (.create plainKey.apiKey.name plainKey.apiKey.policy) ::
    replicate 4 (.advance 0 (plainEnvironment 5)) ++
  .start (.revoke plainKey.apiKey.keyId) :: replicate 4 (.advance 1 (plainEnvironment 6)) ++
  .start (.authenticateIdentity plainKey.takeToken) ::
    replicate 3 (.advance 2 (plainEnvironment 7))

def endsSession (tr : List Entry) : Bool :=
  match (tr[9]? : Option Entry), (tr[10]? : Option Entry), (tr[13]? : Option Entry) with
  | some (_, _, some (.revoke key, .key (.ok _))), some (m, _, _), some (_, _, some _) =>
    decide (key = plainKey.apiKey.keyId ∧ m.calls.length = 2)
  | _, _, _ => false

theorem endsSession_facts {tr : List Entry} (h : endsSession tr = true) :
    ∃ m m' m'' move move' move'' change output answered ans,
      tr[9]? = some (m, move, some (.revoke plainKey.apiKey.keyId, .key (.ok change))) ∧
      tr[10]? = some (m', move', output) ∧ m'.calls.length = 2 ∧
      tr[13]? = some (m'', move'', some (answered, ans)) := by
  unfold endsSession at h
  split at h
  · next h9 h10 h13 =>
    obtain ⟨rfl, hlen⟩ := of_decide_eq_true h
    exact ⟨_, _, _, _, _, _, _, _, _, _, h9, h10, hlen, h13⟩
  · cases h

theorem revocation_permanent_revoked :
    ∃ (tr : List Entry) (m : AuthenticationMachine),
      Run (authenticationStep lastBytes32 lastBytes fieldwiseJson) ⟨.blank, []⟩ tr m ∧
      tr.map (fun e => e.2.1) = revokedSession ∧
      ∃ ended ∈ tr, ∃ environment answered error, ended.2.1 = .advance 2 environment ∧
        ended.2.2 = some (answered, .principal (.error error)) := by
  obtain ⟨tr, m, hrun, hlbs, hchk⟩ := Run.exists_labelled_of_exec
    (authenticationStep lastBytes32 lastBytes fieldwiseJson) ⟨.blank, []⟩ revokedSession
    (fun tr _ => endsSession tr) (by decide +kernel)
  obtain ⟨m₁, m₂, m₃, move₁, move₂, move₃, change, output, answered, ans, hrev, hstr,
    hlen, hend⟩ := endsSession_facts hchk
  have hmove : ∀ (i : ℕ) (e : Entry), tr[i]? = some e → revokedSession[i]? = some e.2.1 := by
    intro i e h
    rw [← hlbs, getElem?_map, h, Option.map_some]
  have hrest : (tr.drop 10)[0]? = some (m₂, move₂, output) := by
    rwa [getElem?_drop]
  have hspl := eq_take_append hrev
  rw [eq_take_append hrest] at hspl
  have hended : (m₃, move₃, some (answered, ans)) ∈ (tr.drop 10).drop 1 := by
    rw [mem_iff_getElem?]
    exact ⟨2, by rw [getElem?_drop, getElem?_drop]; exact hend⟩
  have hadv : move₃ = .advance 2 (plainEnvironment 7) :=
    (Option.some.inj (hmove 13 _ hend)).symm
  obtain ⟨error, rfl⟩ := (revocation_permanent hrun).1 _ _ _ _ _ hspl _ _ _ _ _ rfl
    (parse_takeToken plainKey) rfl (Option.some.inj (hmove 10 _ hstr)).symm (.inl rfl) _ hended
    (plainEnvironment 7) _ _ (by rw [hlen]; exact hadv) rfl
  exact ⟨tr, m, hrun, hlbs, _, mem_of_getElem? hend, _, _, error, hadv, rfl⟩

end LetsInfer.Authentication
