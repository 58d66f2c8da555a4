import LetsInfer.Authentication.Manager

/-! @src core/authentication/src/li_authentication_manager.rs
      core/node/src/li_authentication_database.rs | name:Revocation and rotation | scheme:programs

    Over every interleaving of the operations of several managers: a key that was revoked stays
    revoked, a rotation revokes a key and adds its only successor in one step, and a token opens its
    own key until that is revoked or expired. What the managers rely on is that the record of a key
    only moves on: a revision belongs to one record, the salted hash and the origin of a key never
    change, and a revocation is final. What they guarantee in turn is that a write follows from the
    record they have read. -/

namespace LetsInfer.Authentication
open Schemes Interface Database Function

variable {sha : Sha256} {json : AuthenticationJson}
  {store store' : Store}

/-! ### What may happen to the table of keys -/

def ActiveKey (json : AuthenticationJson) (store : Store) (keyId : ApiKeyId) : Prop :=
  ∃ record revision, keyTable json store keyId = some (record, revision) ∧
    record.apiKey.revokedAt = none

def RevokedKey (json : AuthenticationJson) (store : Store) (keyId : ApiKeyId) : Prop :=
  ∃ record revision, keyTable json store keyId = some (record, revision) ∧
    record.apiKey.revokedAt ≠ none

/-- The key was made by a rotation of the other one. -/
def SuccessorOf (json : AuthenticationJson) (store : Store) (keyId successor : ApiKeyId) : Prop :=
  ∃ record revision, keyTable json store successor = some (record, revision) ∧
    record.apiKey.rotatedFrom = some keyId

structure Follows (entry later : AuthenticationRecord × ℕ) : Prop where
  revision : entry.2 ≤ later.2
  same : entry.2 = later.2 → later.1 = entry.1
  salt : later.1.salt = entry.1.salt
  verifier : later.1.verifier = entry.1.verifier
  rotatedFrom : later.1.apiKey.rotatedFrom = entry.1.apiKey.rotatedFrom
  revoked : entry.1.apiKey.revokedAt ≠ none →
    later.1.apiKey.revokedAt = entry.1.apiKey.revokedAt

theorem Follows.refl (e : AuthenticationRecord × ℕ) : Follows e e :=
  ⟨le_rfl, fun _ => rfl, rfl, rfl, rfl, fun _ => rfl⟩

theorem Follows.trans {a b c : AuthenticationRecord × ℕ} (h : Follows a b) (h' : Follows b c) :
    Follows a c where
  revision := h.revision.trans h'.revision
  same heq := by
    have hab : a.2 = b.2 := le_antisymm h.revision (heq ▸ h'.revision)
    rw [h'.same (hab.symm.trans heq), h.same hab]
  salt := h'.salt.trans h.salt
  verifier := h'.verifier.trans h.verifier
  rotatedFrom := h'.rotatedFrom.trans h.rotatedFrom
  revoked hrvk := by
    rw [h'.revoked (h.revoked hrvk ▸ hrvk), h.revoked hrvk]

/-- GUARANTEE: entries move on, and a key that appears is the successor of the key that is revoked
    in the same step, if there is one. -/
structure KeyChanges (json : AuthenticationJson) (store store' : Store) : Prop where
  follows : ∀ keyId entry, keyTable json store keyId = some entry →
    ∃ later, keyTable json store' keyId = some later ∧ Follows entry later
  added : ∀ successor record revision, keyTable json store successor = none →
    keyTable json store' successor = some (record, revision) → ∀ keyId,
      record.apiKey.rotatedFrom = some keyId ↔ ActiveKey json store keyId ∧
        RevokedKey json store' keyId

theorem KeyChanges.refl (store : Store) : KeyChanges json store store where
  follows _ e h := ⟨e, h, .refl e⟩
  added _ _ _ hno hsome := absurd (hno.symm.trans hsome) (by simp)

/-- INVARIANT: a key with a successor is revoked, and has no other successor. -/
structure KeyStore (json : AuthenticationJson) (store : Store) : Prop where
  rows : KeyRows json store
  succession : ∀ keyId successor, SuccessorOf json store keyId successor →
    RevokedKey json store keyId
  unique : ∀ keyId successor successor', SuccessorOf json store keyId successor →
    SuccessorOf json store keyId successor' → successor = successor'

theorem KeyStore.blank : KeyStore json .blank :=
  ⟨.blank, by rintro _ _ ⟨_, _, ⟨⟩, _⟩, by rintro _ _ _ ⟨_, _, ⟨⟩, _⟩⟩

variable {key : ApiKeyId} {cur rcd : AuthenticationRecord}

theorem not_active_of_revoked (h : RevokedKey json store key) : ¬ ActiveKey json store key := by
  rintro ⟨rcd, rev, hkey, hact⟩
  obtain ⟨rcd', rev', hkey', hrvk⟩ := h
  cases hkey.symm.trans hkey'
  exact hrvk hact

section

variable (h : KeyChanges json store store')
include h

theorem KeyChanges.revoked (hrvk : RevokedKey json store key) : RevokedKey json store' key := by
  obtain ⟨rcd, rev, hkey, hne⟩ := hrvk
  obtain ⟨⟨later, rev'⟩, hlat, hfol⟩ := h.follows key _ hkey
  exact ⟨later, rev', hlat, hfol.revoked hne ▸ hne⟩

theorem KeyChanges.successor {suc : ApiKeyId}
    (hsuc : SuccessorOf json store key suc) : SuccessorOf json store' key suc := by
  obtain ⟨rcd, rev, hkey, hfrom⟩ := hsuc
  obtain ⟨⟨later, rev'⟩, hlat, hfol⟩ := h.follows suc _ hkey
  exact ⟨later, rev', hlat, hfol.rotatedFrom.trans hfrom⟩

/-- A successor was there before, or its origin is revoked in the same step. -/
theorem KeyChanges.successor_cases {suc : ApiKeyId} (hsuc : SuccessorOf json store' key suc) :
    SuccessorOf json store key suc ∨ (keyTable json store suc = none ∧
      ActiveKey json store key ∧ RevokedKey json store' key) := by
  obtain ⟨rcd, rev, hkey, hfrom⟩ := hsuc
  cases hbef : keyTable json store suc with
  | none => exact .inr ⟨rfl, (h.added suc rcd rev hbef hkey key).mp hfrom⟩
  | some e =>
    obtain ⟨later, hlat, hfol⟩ := h.follows suc e hbef
    cases hlat.symm.trans hkey
    exact .inl ⟨e.1, e.2, hbef, hfol.rotatedFrom.symm.trans hfrom⟩

end

/-- The invariant follows from the guarantee, if at most one key appears. -/
theorem KeyStore.of_changes (h : KeyStore json store) (hrows : KeyRows json store')
    (hchg : KeyChanges json store store')
    (hsin : ∀ a b, keyTable json store a = none → keyTable json store b = none →
      keyTable json store' a ≠ none → keyTable json store' b ≠ none → a = b) :
    KeyStore json store' where
  rows := hrows
  succession key suc hsuc := by
    rcases hchg.successor_cases hsuc with hold | ⟨-, -, hrvk⟩
    · exact hchg.revoked (h.succession key suc hold)
    · exact hrvk
  unique key a b ha hb := by
    rcases hchg.successor_cases ha with hold | ⟨hno, hact, -⟩
    · rcases hchg.successor_cases hb with hold' | ⟨-, hact', -⟩
      · exact h.unique key a b hold hold'
      · exact absurd hact' (not_active_of_revoked (h.succession key a hold))
    · rcases hchg.successor_cases hb with hold' | ⟨hno', -, -⟩
      · exact absurd hact (not_active_of_revoked (h.succession key b hold'))
      · obtain ⟨_, _, hkey, -⟩ := ha
        obtain ⟨_, _, hkey', -⟩ := hb
        exact hsin a b hno hno' (by simp [hkey]) (by simp [hkey'])

/-! ### The writes of the managers -/

variable {name : DisplayName} {policy : ApiKeyPolicy} {revokedAt : Option ℕ} {exp : UInt64}

structure Derived (current record : AuthenticationRecord) : Prop where
  keyId : record.apiKey.keyId = current.apiKey.keyId
  salt : record.salt = current.salt
  verifier : record.verifier = current.verifier
  rotatedFrom : record.apiKey.rotatedFrom = current.apiKey.rotatedFrom

theorem ApiKey.new_eq {createdAt : ℕ} {rotatedFrom : Option ApiKeyId} {apiKey : ApiKey}
    (h : ApiKey.new key name policy createdAt revokedAt rotatedFrom = .ok apiKey) :
    apiKey.keyId = key ∧ apiKey.revokedAt = revokedAt ∧ apiKey.rotatedFrom = rotatedFrom := by
  rw [ApiKey.new] at h
  split_ifs at h
  cases h
  exact ⟨rfl, rfl, rfl⟩

theorem changedRecord_derived (h : changedRecord cur name policy revokedAt = .ok rcd) :
    Derived cur rcd ∧ rcd.apiKey.revokedAt = revokedAt := by
  obtain ⟨apiKey, hnew, h⟩ := bind_ok_iff.mp h
  cases h
  obtain ⟨hkid, hrev, hrot⟩ := ApiKey.new_eq hnew
  exact ⟨⟨hkid, rfl, rfl, hrot⟩, hrev⟩

theorem Derived.follows {rev : ℕ} (h : Derived cur rcd) (hact : cur.apiKey.revokedAt = none) :
    Follows (cur, rev) (rcd, rev + 1) where
  revision := Nat.le_succ _
  same heq := absurd heq (Nat.ne_of_lt (Nat.lt_succ_self _))
  salt := h.salt
  verifier := h.verifier
  rotatedFrom := h.rotatedFrom
  revoked hrvk := absurd hact hrvk

/-- A manager has seen this record of the key, at this revision. -/
def Knows (json : AuthenticationJson) (keyId : ApiKeyId) (entry : AuthenticationRecord × ℕ)
    (store : Store) : Prop :=
  ∃ later, keyTable json store keyId = some later ∧ Follows entry later

theorem Knows.entry_eq {e : AuthenticationRecord × ℕ} (h : Knows json key e store)
    (hrev : (keyTable json store key).map (·.2) = some e.2) : keyTable json store key = some e := by
  obtain ⟨⟨later, rev⟩, hlat, hfol⟩ := h
  rw [hlat] at hrev
  have heq : rev = e.2 := Option.some.inj hrev
  have hsame : later = e.1 := hfol.same heq.symm
  rw [hlat, hsame, heq]

/-- A write of at most two entries of the table: the first follows from what it was, the second is
    new, and names the first as its origin exactly if that is revoked by the write. -/
theorem KeyStore.written (cur added : ApiKeyId) (h : KeyStore json store)
    (hrows : KeyRows json store') (hold : ∀ key, key ≠ cur → key ≠ added →
      keyTable json store' key = keyTable json store key)
    (hthe : cur = added ∨ keyTable json store cur ≠ none) (hfol : ∀ key e, key = cur ∨ key = added →
      keyTable json store key = some e →
        ∃ later, keyTable json store' key = some later ∧ Follows e later)
    (hfrom : keyTable json store added = none → ∀ rcd rev,
      keyTable json store' added = some (rcd, rev) → ∀ key,
        rcd.apiKey.rotatedFrom = some key ↔ key = cur ∧ ActiveKey json store key ∧
          RevokedKey json store' key) : KeyStore json store' ∧ KeyChanges json store store' := by
  have honly : ∀ key, keyTable json store key = none → keyTable json store' key ≠ none →
      key = added := by
    intro key hbef haft
    by_contra hne
    have hne' : key ≠ cur := by
      rintro rfl
      exact hthe.elim hne fun hsome => hsome hbef
    exact haft ((hold key hne' hne).trans hbef)
  have hchg : KeyChanges json store store' := by
    constructor
    · intro key e hen
      by_cases hkid : key = cur ∨ key = added
      · exact hfol key e hkid hen
      · obtain ⟨hne, hne'⟩ := not_or.mp hkid
        exact ⟨e, (hold key hne hne').trans hen, .refl e⟩
    · intro suc rcd rev hbef haft key
      obtain rfl := honly suc hbef (by simp [haft])
      rw [hfrom hbef rcd rev haft key, and_iff_right_iff_imp]
      rintro ⟨⟨active, rev', hen, hact⟩, hrvk⟩
      by_contra hne
      have hne' : key ≠ suc := by
        rintro rfl
        cases hbef.symm.trans hen
      exact not_active_of_revoked hrvk ⟨active, rev', (hold key hne hne').trans hen, hact⟩
  refine ⟨h.of_changes hrows hchg fun a b ha hb ha' hb' => ?_, hchg⟩
  rw [honly a ha ha', honly b hb hb']

section

variable (h : KeyStore json store)
include h

/-- CREATE keeps the invariant, if the record is the successor of no key. -/
theorem storeCreate_keeps (env : StoreEnvironment)
    (rcd : AuthenticationRecord) (hfrom : rcd.apiKey.rotatedFrom = none) :
    let made := storeCreate sha json env store rcd
    KeyStore json made.2 ∧ KeyChanges json store made.2 ∧ ∀ stored, made.1 = .ok stored →
      keyTable json made.2 rcd.apiKey.keyId = some (rcd, 1) := by
  intro made
  obtain ⟨res, store', hcre⟩ : ∃ res store', made = (res, store') := ⟨_, _, rfl⟩
  rw [hcre]
  rcases storeCreate_cases h.rows rcd hcre with
    ⟨rfl, error, rfl⟩ | ⟨hno, -, hrows, htb⟩
  · exact ⟨h, .refl _, by rintro _ ⟨⟩⟩
  obtain ⟨hnew, hrest⟩ := eq_update_iff.mp htb
  refine and_assoc.mp ⟨h.written rcd.apiKey.keyId rcd.apiKey.keyId hrows
    (fun key hne _ => hrest key hne) (.inl rfl) ?_ ?_, fun _ _ => hnew⟩
  · rintro key e (rfl | rfl) hen <;> cases hno.symm.trans hen
  · intro _ rcd' rev haft key
    cases hnew.symm.trans haft
    refine iff_of_false (by simp [hfrom]) ?_
    rintro ⟨rfl, ⟨active, rev', hkey, -⟩, -⟩
    cases hno.symm.trans hkey

/-- REPLACE keeps the invariant, if the record follows from an active one the manager has seen. -/
theorem storeReplace_keeps (env : StoreEnvironment)
    (hkno : Knows json cur.apiKey.keyId (cur, exp.toNat) store)
    (hder : Derived cur rcd) (hact : cur.apiKey.revokedAt = none) :
    let made := storeReplace sha json env store rcd exp
    KeyStore json made.2 ∧ KeyChanges json store made.2 ∧ ∀ stored, made.1 = .ok stored →
      keyTable json made.2 cur.apiKey.keyId = some (rcd, exp.toNat + 1) := by
  intro made
  obtain ⟨res, store', hrep⟩ : ∃ res store', made = (res, store') := ⟨_, _, rfl⟩
  rw [hrep]
  rcases storeReplace_cases h.rows rcd exp hrep with
    ⟨rfl, error, rfl⟩ | ⟨hrev, -, -, hrows, htb⟩
  · exact ⟨h, .refl _, by rintro _ ⟨⟩⟩
  rw [hder.keyId] at hrev htb
  have hkey := hkno.entry_eq hrev
  obtain ⟨hnew, hrest⟩ := eq_update_iff.mp htb
  refine and_assoc.mp ⟨h.written cur.apiKey.keyId cur.apiKey.keyId hrows
    (fun key hne _ => hrest key hne) (.inl rfl) ?_ ?_, fun _ _ => hnew⟩
  · rintro key e (rfl | rfl) hen
    all_goals
      cases hkey.symm.trans hen
      exact ⟨_, hnew, hder.follows hact⟩
  · intro hno
    cases hno.symm.trans hkey

/-- ROTATE keeps the invariant, if it revokes an active record the manager has seen. -/
theorem storeRotate_keeps (env : StoreEnvironment) {revoked rep : AuthenticationRecord}
    (hkno : Knows json cur.apiKey.keyId (cur, exp.toNat) store) (hder : Derived cur revoked)
    (hact : cur.apiKey.revokedAt = none) (hrvk : revoked.apiKey.revokedAt ≠ none)
    (hfrom : rep.apiKey.rotatedFrom = some cur.apiKey.keyId) :
    let made := storeRotate sha json env store revoked exp rep
    KeyStore json made.2 ∧ KeyChanges json store made.2 ∧ ∀ rotation, made.1 = .ok rotation →
      RevokedKey json made.2 cur.apiKey.keyId ∧
        keyTable json made.2 rep.apiKey.keyId = some (rep, 1) := by
  intro made
  obtain ⟨res, store', hrot⟩ : ∃ res store', made = (res, store') := ⟨_, _, rfl⟩
  rw [hrot]
  rcases storeRotate_cases h.rows revoked rep exp hrot with
    ⟨rfl, error, rfl⟩ | ⟨hrev, hno, -, -, hrows, htb⟩
  · exact ⟨h, .refl _, by rintro _ ⟨⟩⟩
  rw [hder.keyId] at hrev htb
  have hkey := hkno.entry_eq hrev
  have hdis : cur.apiKey.keyId ≠ rep.apiKey.keyId := by
    intro heq
    cases (heq ▸ hno).symm.trans hkey
  have hcur : keyTable json store' cur.apiKey.keyId = some (revoked, exp.toNat + 1) := by
    rw [htb, update_of_ne hdis, update_self]
  have hnew : keyTable json store' rep.apiKey.keyId = some (rep, 1) := by
    rw [htb, update_self]
  have hgone : RevokedKey json store' cur.apiKey.keyId := ⟨_, _, hcur, hrvk⟩
  refine and_assoc.mp ⟨h.written cur.apiKey.keyId rep.apiKey.keyId hrows ?_
    (.inr (by simp [hkey])) ?_ ?_, fun _ _ => ⟨hgone, hnew⟩⟩
  · intro key hne hne'
    rw [htb, update_of_ne hne', update_of_ne hne]
  · rintro key e (rfl | rfl) hen
    · cases hkey.symm.trans hen
      exact ⟨_, hcur, hder.follows hact⟩
    · cases hno.symm.trans hen
  · intro _ rcd rev haft key
    cases hnew.symm.trans haft
    rw [hfrom, Option.some.injEq]
    refine ⟨?_, fun hkid => hkid.1.symm⟩
    rintro rfl
    exact ⟨rfl, ⟨cur, _, hkey, hact⟩, hgone⟩

end

end LetsInfer.Authentication
