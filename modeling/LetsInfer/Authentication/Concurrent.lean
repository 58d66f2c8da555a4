import LetsInfer.Authentication.Revocation

/-! @src core/authentication/src/li_authentication_manager.rs
      core/node/src/li_authentication_database.rs | name:Managers side by side | scheme:programs

    A triple for every operation of the manager, and what they give for runs in which any number of
    calls are under way at once. -/

namespace LetsInfer.Authentication
open Schemes Interface Database

variable {sha : Sha256} {sha256 : Interface.Octets → Block 32} {json : AuthenticationJson}

abbrev KeySafe {α : Type} (sha : Sha256) (json : AuthenticationJson) (Q : α → Store → Prop)
    (P : Store → Prop) (p : Prog Operation Operation.Answer α) : Prop :=
  Safe (perform sha json) (KeyStore json) (KeyChanges json) Q P p

/-! ### Stable knowledge -/

/-- The record of the key was made with this secret. -/
def OpenedBy (json : AuthenticationJson) (sha256 : Interface.Octets → Block 32) (keyId : ApiKeyId)
    (secret : Block 32) (store : Store) : Prop :=
  ∃ record revision, keyTable json store keyId = some (record, revision) ∧
    record.verifier = apiKeyVerifier sha256 record.salt secret

abbrev KeyStable (json : AuthenticationJson) (P : Store → Prop) : Prop :=
  Stable (KeyStore json) (KeyChanges json) P

theorem stable_knows (k : ApiKeyId) (e : AuthenticationRecord × ℕ) :
    KeyStable json (Knows json k e) := by
  rintro s s' - - hchg ⟨later, hlat, hfol⟩
  obtain ⟨latest, hlts, hfol'⟩ := hchg.follows k later hlat
  exact ⟨latest, hlts, hfol.trans hfol'⟩

theorem stable_revoked (k : ApiKeyId) : KeyStable json fun s => RevokedKey json s k :=
  fun _ _ _ _ hchg => hchg.revoked

theorem stable_openedBy (k : ApiKeyId) (secret : Block 32) :
    KeyStable json (OpenedBy json sha256 k secret) := by
  rintro s s' - - hchg ⟨r, rev, hkey, hver⟩
  obtain ⟨⟨later, rev'⟩, hlat, hfol⟩ := hchg.follows k _ hkey
  exact ⟨later, rev', hlat, by rw [hfol.verifier, hfol.salt, hver]⟩

/-! ### Triples of the building blocks -/

variable {k : ApiKeyId} {cur : VersionedAuthenticationRecord}

section Blocks

variable {α : Type} {P : Store → Prop} {Q : α → Store → Prop}

theorem pure_safe {a : α} (h : ∀ s, KeyStore json s → P s → Q a s) :
    KeySafe sha json (Safe.onOk Q) P (pure a : Program α) := .done h

theorem throw_safe (e : AuthenticationError) :
    KeySafe sha json (Safe.onOk Q) P (throw e : Program α) := .done fun _ _ _ => trivial

theorem ofExcept_safe {x : Except AuthenticationError α}
    (h : ∀ a, x = .ok a → ∀ s, KeyStore json s → P s → Q a s) :
    KeySafe sha json (Safe.onOk Q) P (Program.ofExcept x) := by
  cases x with
  | error e => exact throw_safe e
  | ok a => exact .done (h a rfl)

/-- A check of values only: what follows may use that it passed. -/
theorem ofExcept_bind_safe {β : Type} {x : Except AuthenticationError β} {f : β → Program α}
    (h : ∀ b, x = .ok b → KeySafe sha json (Safe.onOk Q) P (f b)) :
    KeySafe sha json (Safe.onOk Q) P (Program.ofExcept x >>= f : Program α) := by
  cases x with
  | error e => exact throw_safe e
  | ok b => exact h b rfl

theorem lift_safe {x : Prog Operation Operation.Answer α} (h : KeySafe sha json Q P x) :
    KeySafe sha json (Safe.onOk Q) P (ExceptT.lift x : Program α) := h.map fun _ _ _ hQ => hQ

theorem ofStore_safe {x : Prog Operation Operation.Answer (Except AuthenticationStoreError α)}
    (h : KeySafe sha json (Safe.onOk Q) P x) :
    KeySafe sha json (Safe.onOk Q) P (Program.ofStore x) := by
  refine Safe.bindOk (lift_safe h) ?_
  intro res
  cases res with
  | ok a => exact pure_safe fun _ _ hQ => hQ
  | error e => exact throw_safe _

theorem operate_safe (op : Operation) {R : op.Answer → Store → Prop}
    (stable : ∀ ans, KeyStable json (R ans)) (own : ∀ env s, KeyStore json s → P s →
      KeyStore json (perform sha json env s op).2 ∧
        KeyChanges json s (perform sha json env s op).2 ∧
        R (perform sha json env s op).1
          (perform sha json env s op).2) :
    KeySafe sha json R P (operate op) := Safe.ask stable own

/-- Nothing is claimed of an error, so only the answers that succeed have to be stable. -/
theorem stable_onOk {ε : Type} (h : ∀ a, KeyStable json (Q a)) :
    ∀ ans : Except ε α, KeyStable json (Safe.onOk Q ans)
  | .error _ => .true
  | .ok a => h a

theorem onOk_of {ε : Type} {ans : Except ε α} {s : Store}
    (h : ∀ a, ans = .ok a → Q a s) : Safe.onOk Q ans s := by
  cases ans with
  | error e => trivial
  | ok a => exact h a rfl

theorem now_safe (hP : KeyStable json P) : KeySafe sha json (Safe.onOk fun _ => P) P now :=
  operate_safe .now (stable_onOk fun _ => hP) fun _ s hs hP =>
    ⟨hs, .refl s, onOk_of fun _ _ => hP⟩

theorem fill_safe (hP : KeyStable json P) : KeySafe sha json (Safe.onOk fun _ => P) P fill :=
  operate_safe .fill (stable_onOk fun _ => hP) fun _ s hs hP =>
    ⟨hs, .refl s, onOk_of fun _ _ => hP⟩

theorem generateMaterial_safe (hP : KeyStable json P) :
    KeySafe sha json (Safe.onOk fun _ => P) P generateMaterial := by
  refine Safe.bindOk (fill_safe hP) fun material => ?_
  refine ofExcept_bind_safe fun k _ => ?_
  exact pure_safe fun _ _ hP => hP

/-- What a call knows of a record it was given. -/
def Seen (json : AuthenticationJson) (keyId : ApiKeyId) (P : Store → Prop)
    (Φ : AuthenticationRecord → Prop) (current : VersionedAuthenticationRecord) (s : Store) : Prop :=
  P s ∧ Knows json keyId (current.record, current.revision.toNat) s ∧
    current.record.apiKey.keyId = keyId ∧ Φ current.record

theorem stable_seen {Φ : AuthenticationRecord → Prop} (hP : KeyStable json P) :
    KeyStable json (Seen json k P Φ cur) := by
  rintro s s' hs hs' hchg ⟨hpre, hkno, hkid, hΦ⟩
  exact ⟨hP s s' hs hs' hchg hpre, stable_knows _ _ s s' hs hs' hchg hkno, hkid, hΦ⟩

/-- READ: the record that is there, with all that is said of it before. -/
theorem requiredRecord_safe {missing : AuthenticationError} (Φ : AuthenticationRecord → Prop)
    (hP : KeyStable json P) (hΦ : ∀ s, P s → ∀ r rev, keyTable json s k = some (r, rev) →
      Φ r) : KeySafe sha json (Safe.onOk (Seen json k P Φ)) P (requiredRecord k missing) := by
  have hread : KeySafe sha json (Safe.onOk fun found s => ∀ cur, found = some cur →
      Seen json k P Φ cur s) P (operate (.read k)) := by
    refine operate_safe (.read k) (stable_onOk fun found => ?_) fun env s hs hpre =>
      ⟨hs, .refl s, onOk_of ?_⟩
    · intro s s' hs hs' hchg hseen cur hcur
      exact stable_seen hP s s' hs hs' hchg (hseen cur hcur)
    · rintro found hfd cur rfl
      have hkey := storeRead_some hs.rows hfd
      exact ⟨hpre, ⟨_, hkey, .refl _⟩, hs.rows.keyId_eq hkey, hΦ s hpre _ _ hkey⟩
  refine Safe.bindOk (ofStore_safe hread) fun found => ?_
  cases found with
  | none => exact throw_safe missing
  | some cur =>
    refine ofExcept_bind_safe fun _ _ => ?_
    exact pure_safe fun s _ hseen => hseen cur rfl

/-- READ, with nothing said before. -/
theorem seenRecord_safe {missing : AuthenticationError} :
    KeySafe sha json (Safe.onOk (Seen json k (fun _ => True) fun _ => True)) (fun _ => True)
      (requiredRecord k missing) :=
  requiredRecord_safe _ .true fun _ _ _ _ _ => trivial

end Blocks

/-! ### Triples of the manager -/

variable {token : Interface.Octets}

theorem create_safe (name : DisplayName) (policy : ApiKeyPolicy) :
    KeySafe sha json (Safe.onOk fun change s =>
      OpenedBy json sha256 change.value.apiKey.keyId change.value.secret s) (fun _ => True)
      (create sha256 name policy) := by
  refine Safe.bindOk (now_safe .true) fun created => ?_
  refine Safe.bindOk (generateMaterial_safe .true) fun material => ?_
  refine ofExcept_bind_safe fun apiKey hnew => ?_
  obtain ⟨-, -, hfrom⟩ := ApiKey.new_eq hnew
  have hcre : KeySafe sha json (Safe.onOk fun _ s =>
      OpenedBy json sha256 apiKey.keyId material.secret s) (fun _ => True)
      (operate (.create (newRecord sha256 apiKey material))) := by
    refine operate_safe (.create _) (stable_onOk fun _ => stable_openedBy _ _) fun env s hs _ => ?_
    obtain ⟨hs', hchg, hsto⟩ := storeCreate_keeps hs env.store
      (newRecord sha256 apiKey material) hfrom
    exact ⟨hs', hchg, onOk_of fun stored hres => ⟨_, _, hsto stored hres, rfl⟩⟩
  refine Safe.bindOk (ofStore_safe hcre) fun stored => ?_
  refine ofExcept_bind_safe fun _ _ => ?_
  exact pure_safe fun _ _ hope => hope

/-- REPLACE: once the wanted record, or one as wanted, was there, the assertion holds. -/
theorem replaceOrObserve_safe {wanted : AuthenticationRecord} {ev : AuthenticationEvent}
    {asWanted : ApiKey → Bool} {R : Store → Prop} (hR : KeyStable json R)
    (hkid : cur.record.apiKey.keyId = k) (hder : Derived cur.record wanted)
    (hact : cur.record.apiKey.revokedAt = none)
    (hcom : ∀ s rev, keyTable json s k = some (wanted, rev) → R s)
    (hobs : ∀ s r rev, Knows json k (r, rev) s → asWanted r.apiKey = true → R s) : KeySafe sha json
      (Safe.onOk fun _ => R) (Knows json k (cur.record, cur.revision.toNat))
      (replaceOrObserve k wanted cur.revision ev asWanted) := by
  subst hkid
  have hrep : KeySafe sha json (Safe.onOk fun _ => R)
      (Knows json cur.record.apiKey.keyId (cur.record, cur.revision.toNat))
      (operate (.replace wanted cur.revision)) := by
    refine operate_safe (.replace wanted cur.revision) (stable_onOk fun _ => hR)
      fun env s hs hkno => ?_
    obtain ⟨hs', hchg, hsto⟩ :=
      storeReplace_keeps hs env.store hkno hder hact
    exact ⟨hs', hchg, onOk_of fun stored hres => hcom _ _ (hsto stored hres)⟩
  refine Safe.bindOk (lift_safe hrep) ?_
  rintro (e | stored)
  · cases e with
    | conflict =>
      refine Safe.bindOk seenRecord_safe fun obs => ?_
      by_cases hwan : asWanted obs.record.apiKey = true
      · rw [if_pos hwan]
        exact pure_safe fun s _ hseen => hobs s _ _ hseen.2.1 hwan
      · rw [if_neg hwan]
        exact throw_safe _
    | corrupt => exact throw_safe _
    | unavailable => exact throw_safe _
  · refine ofExcept_bind_safe fun _ _ => ?_
    exact pure_safe fun _ _ hR => hR

theorem not_isSome {revokedAt : Option ℕ} (h : ¬ revokedAt.isSome = true) : revokedAt = none :=
  Option.not_isSome_iff_eq_none.mp h

theorem updatePolicy_safe (k : ApiKeyId) (policy : ApiKeyPolicy) :
    KeySafe sha json (Safe.onOk fun _ _ => True) (fun _ => True) (updatePolicy k policy) := by
  refine Safe.bindOk seenRecord_safe fun cur => ?_
  split_ifs with hrvk hpol
  · exact throw_safe _
  · exact pure_safe fun _ _ _ => trivial
  · refine ofExcept_bind_safe fun updated hupd => ?_
    refine Safe.of_fact (fun _ _ hseen => hseen.2.2.1) fun hkid => ?_
    refine Safe.pre (replaceOrObserve_safe .true hkid (changedRecord_derived hupd).1
      (not_isSome hrvk) ?_ ?_) fun _ _ hseen => hseen.2.1
    · exact fun _ _ _ => trivial
    · exact fun _ _ _ _ _ => trivial

theorem Knows.revoked {r : AuthenticationRecord} {rev : ℕ} {s : Store}
    (h : Knows json k (r, rev) s) (hrvk : r.apiKey.revokedAt ≠ none) : RevokedKey json s k := by
  obtain ⟨⟨later, rev'⟩, hlat, hfol⟩ := h
  exact ⟨later, rev', hlat, hfol.revoked hrvk ▸ hrvk⟩

/-- REVOKE: it returns with the key revoked. -/
theorem revoke_safe (k : ApiKeyId) :
    KeySafe sha json (Safe.onOk fun _ s => RevokedKey json s k) (fun _ => True) (revoke k) := by
  refine Safe.bindOk (now_safe .true) fun revokedAt => ?_
  refine Safe.bindOk seenRecord_safe fun cur => ?_
  split_ifs with hrvk
  · refine pure_safe fun s _ hseen => hseen.2.1.revoked ?_
    exact Option.isSome_iff_ne_none.mp hrvk
  · refine ofExcept_bind_safe fun revoked hcha => ?_
    obtain ⟨hder, hat⟩ := changedRecord_derived hcha
    refine Safe.of_fact (fun _ _ hseen => hseen.2.2.1) fun hkid => ?_
    refine (replaceOrObserve_safe (stable_revoked k) hkid hder (not_isSome hrvk)
      ?_ ?_).pre fun _ _ hseen => hseen.2.1
    · intro s rev hkey
      exact ⟨revoked, rev, hkey, by simp [hat]⟩
    · intro s r rev hkno hwan
      exact hkno.revoked (Option.isSome_iff_ne_none.mp hwan)

/-- ROTATE: it returns with the key revoked and a new key that its secret opens. -/
theorem rotateRecord_safe (cur : VersionedAuthenticationRecord) (name : DisplayName)
    (archivedName : Option DisplayName) (hact : cur.record.apiKey.revokedAt = none) :
    KeySafe sha json (Safe.onOk fun change s =>
        RevokedKey json s cur.record.apiKey.keyId ∧
          OpenedBy json sha256 change.value.apiKey.keyId change.value.secret s)
      (Knows json cur.record.apiKey.keyId (cur.record, cur.revision.toNat))
      (rotateRecord sha256 cur name archivedName) := by
  refine Safe.bindOk (now_safe (stable_knows _ _)) fun rotatedAt => ?_
  refine Safe.bindOk (generateMaterial_safe (stable_knows _ _)) fun material => ?_
  refine ofExcept_bind_safe fun rep hnew => ?_
  refine ofExcept_bind_safe fun revoked hcha => ?_
  obtain ⟨-, -, hfrom⟩ := ApiKey.new_eq hnew
  obtain ⟨hder, hat⟩ := changedRecord_derived hcha
  have hrvk : revoked.apiKey.revokedAt ≠ none := by simp [hat]
  have hrot : KeySafe sha json (Safe.onOk fun _ s =>
        RevokedKey json s cur.record.apiKey.keyId ∧
          OpenedBy json sha256 rep.keyId material.secret s)
      (Knows json cur.record.apiKey.keyId (cur.record, cur.revision.toNat))
      (operate (.rotate revoked cur.revision (newRecord sha256 rep material))) := by
    refine operate_safe (.rotate _ _ _)
      (stable_onOk fun _ => (stable_revoked _).and (stable_openedBy _ _)) fun env s hs hkno => ?_
    obtain ⟨hs', hchg, hsto⟩ := storeRotate_keeps hs env.store hkno hder hact hrvk
      (show (newRecord sha256 rep material).apiKey.rotatedFrom = _ from hfrom)
    refine ⟨hs', hchg, onOk_of fun rotation hres => ?_⟩
    obtain ⟨hgone, hnew⟩ := hsto rotation hres
    exact ⟨hgone, _, _, hnew, rfl⟩
  refine Safe.bindOk (ofStore_safe hrot) fun rotation => ?_
  refine ofExcept_bind_safe fun _ _ => ofExcept_bind_safe fun _ _ => ?_
  exact pure_safe fun _ _ hrtt => hrtt

theorem activeRecord_safe (k : ApiKeyId) :
    KeySafe sha json (Safe.onOk (Seen json k (fun _ => True)
      fun r => r.apiKey.revokedAt = none)) (fun _ => True) (activeRecord k) := by
  refine Safe.bindOk seenRecord_safe fun cur => ?_
  split_ifs with hrvk
  · exact throw_safe _
  · exact pure_safe fun _ _ hseen => ⟨trivial, hseen.2.1, hseen.2.2.1, not_isSome hrvk⟩

theorem rotate_safe (k : ApiKeyId) (name : DisplayName) :
    KeySafe sha json (Safe.onOk fun change s => RevokedKey json s k ∧
        OpenedBy json sha256 change.value.apiKey.keyId change.value.secret s)
      (fun _ => True) (rotate sha256 k name) := by
  refine Safe.bindOk (activeRecord_safe k) fun cur => ?_
  refine Safe.of_fact (fun _ _ hseen => hseen.2.2) ?_
  rintro ⟨rfl, hact⟩
  exact (rotateRecord_safe cur name none hact).pre fun _ _ hseen => hseen.2.1

theorem rotatePreservingName_safe (k : ApiKeyId) :
    KeySafe sha json (Safe.onOk fun change s => RevokedKey json s k ∧
        OpenedBy json sha256 change.value.apiKey.keyId change.value.secret s)
      (fun _ => True) (rotatePreservingName sha256 k) := by
  refine Safe.bindOk (activeRecord_safe k) fun cur => ?_
  refine Safe.of_fact (fun _ _ hseen => hseen.2.2) ?_
  rintro ⟨rfl, hact⟩
  refine ofExcept_bind_safe fun archivedName _ => ?_
  exact (rotateRecord_safe cur cur.record.apiKey.name (some archivedName) hact).pre
    fun _ _ hseen => hseen.2.1

/-- AUTHENTICATE: the principal is the key that the token names. -/
theorem authenticateIdentity_safe (token : Interface.Octets) :
    KeySafe sha json (Safe.onOk fun p _ => ∃ parsed,
        ParsedApiKey.parse token = some parsed ∧ p.keyId = parsed.keyId)
      (fun _ => True) (authenticateIdentity sha256 token) := by
  rw [authenticateIdentity]
  cases hprs : ParsedApiKey.parse token with
  | none => exact throw_safe _
  | some parsed =>
    refine Safe.bindOk seenRecord_safe fun stored => ?_
    refine Safe.bindOk (now_safe (stable_seen .true)) fun time => ?_
    refine ofExcept_safe fun p hvdt s _ hseen => ⟨parsed, rfl, ?_⟩
    rw [verdict] at hvdt
    split_ifs at hvdt
    cases hvdt
    exact hseen.2.2.1

/-- AUTHENTICATE: a token of a revoked key is refused. -/
theorem authenticateIdentity_revoked {parsed : ParsedApiKey}
    (hprs : ParsedApiKey.parse token = some parsed) :
    KeySafe sha json (Safe.onOk fun _ _ => False) (fun s => RevokedKey json s parsed.keyId)
      (authenticateIdentity sha256 token) := by
  rw [authenticateIdentity, hprs]
  have hrvk : ∀ s, RevokedKey json s parsed.keyId → ∀ r rev,
      keyTable json s parsed.keyId = some (r, rev) → r.apiKey.revokedAt ≠ none := by
    rintro s ⟨r, rev, hkey, hne⟩ r' rev' hkey'
    cases hkey.symm.trans hkey'
    exact hne
  refine Safe.bindOk (requiredRecord_safe _ (stable_revoked _) hrvk) fun stored => ?_
  refine Safe.bindOk (now_safe (stable_seen (stable_revoked _))) fun time => ?_
  refine ofExcept_safe fun p hvdt s _ hseen => ?_
  have hsome := Option.isSome_iff_ne_none.mpr hseen.2.2.2
  rw [verdict, hsome] at hvdt
  cases hvdt

theorem authenticate_of_identity {model : LogicalModelName} {P : Store → Prop}
    {Q : AuthenticationPrincipal → Store → Prop}
    (h : KeySafe sha json (Safe.onOk Q) P (authenticateIdentity sha256 token)) :
    KeySafe sha json (Safe.onOk Q) P (authenticate sha256 token model) := by
  refine Safe.bindOk h fun p => ?_
  split_ifs
  · exact pure_safe fun _ _ hQ => hQ
  · exact throw_safe _

end LetsInfer.Authentication
