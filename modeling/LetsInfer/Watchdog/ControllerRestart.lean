import LetsInfer.Watchdog.ControllerSnapshot
import LetsInfer.Schemes.Runs

/-! @src core/watchdog/src/li_watchdog_controller_registry.rs | name:Restarting the registry | scheme:lts

    The registry of a running service and the file it persists to, over every order of restarts,
    mutations and reloads. While mutations write descriptors that can be read again and no commit
    fails after it has replaced the file, the file is the live state: whoever restarts from it goes
    on where the service was. A placement read from 2048 bytes without an end of line is written with
    2049, which no restart accepts. -/

namespace LetsInfer.Watchdog
open Schemes List Option

/-! ### The service -/

structure ControllerService where
  registry : Option Registry
  generation : ℕ
  stored : Option Text

inductive ControllerAction where
  | restart (allowlist : ControllerAllowlist) (maximumActiveBindings : ℕ)
      (loadFault : Option WatchdogError) (fault : Option CommitFault)
  | apply (binding : ControllerBinding) (expectedRevision : ℕ) (fault : Option CommitFault)
  | retire (controllerId : Text) (sessionGeneration expectedRevision : ℕ)
      (fault : Option CommitFault)
  | reload (allowlist : ControllerAllowlist) (fault : Option CommitFault)

inductive ControllerOutput where
  | started
  | mutated (kind : MutationKind) (revision : ℕ)
  | reloaded (generation : ℕ)
  | failed (error : WatchdogError)
  deriving DecidableEq

namespace ControllerService

def restart (outcome : Except WatchdogError Registry × Option Text) :
    ControllerService × ControllerOutput :=
  match outcome.1 with
  | .ok registry => (⟨some registry, 1, outcome.2⟩, .started)
  | .error error => (⟨none, 1, outcome.2⟩, .failed error)

def mutate (service : ControllerService)
    (outcome : Except WatchdogError (MutationKind × Registry) × Option Text) :
    ControllerService × ControllerOutput :=
  match outcome.1 with
  | .ok (kind, registry) =>
    ({ service with registry := some registry, stored := outcome.2 },
      .mutated kind registry.state.revision)
  | .error error => ({ service with stored := outcome.2 }, .failed error)

/-- The generation of the store is counted up after the replacement is written. -/
def reload (service : ControllerService) (registry : Registry) (allowlist : ControllerAllowlist)
    (fault : Option CommitFault) : ControllerService × ControllerOutput :=
  match registry.replacementCandidate allowlist with
  | .error error => (service, .failed error)
  | .ok candidate =>
    let written := registry.persist allowlist candidate fault service.stored
    match written.1 with
    | .error error => ({ service with stored := written.2 }, .failed error)
    | .ok replacement =>
      if u64Bound ≤ service.generation + 1 then
        ({ service with stored := written.2 },
          .failed (controllerError "controller reload generation overflowed"))
      else (⟨some replacement, service.generation + 1, written.2⟩, .reloaded (service.generation + 1))

def step (service : ControllerService) (action : ControllerAction) :
    Option (ControllerService × ControllerOutput) :=
  match action, service.registry with
  | .restart allowlist maximumActiveBindings loadFault fault, _ =>
    some (restart (Registry.openPersistent allowlist maximumActiveBindings loadFault fault
      service.stored))
  | .apply binding expectedRevision fault, some registry =>
    some (service.mutate (registry.commitCandidate (registry.applyCandidate binding expectedRevision)
      fault service.stored))
  | .retire controllerId sessionGeneration expectedRevision fault, some registry =>
    some (service.mutate (registry.commitCandidate
      (registry.retireCandidate controllerId sessionGeneration expectedRevision) fault
      service.stored))
  | .reload allowlist fault, some registry => some (service.reload registry allowlist fault)
  | _, none => none

end ControllerService

/-! ### What the mutations compute -/

theorem nextRevision_ok {cur next : ℕ} (h : nextRevision cur = .ok next) :
    next = cur + 1 ∧ cur + 1 < u64Bound := by
  obtain ⟨hbd, h⟩ := error_if_ok_iff.mp h
  exact ⟨(Except.ok.inj h).symm, not_le.mp hbd⟩

/-- An accepted binding supersedes what its controller had. -/
structure Applied (registry : Registry) (binding : ControllerBinding) (next : RegistryState) :
    Prop where
  authorized : lookupKey binding.controllerId registry.allowlist.controllers =
    some binding.certificateSha256
  newer : ∀ entry, lookupKey binding.controllerId registry.state.entries = some entry →
    entry.sessionGeneration < binding.sessionGeneration
  apart : rejectTargetConflict registry.state.entries binding = .ok ()
  room : (∃ entry, lookupKey binding.controllerId registry.state.entries = some entry ∧
      entry.binding.isSome) ∨
    activeBindingCount registry.state.entries < registry.maximumActiveBindings
  revision : next.revision = registry.state.revision + 1 ∧ next.revision < u64Bound
  entries : next.entries = insertKey binding.controllerId ⟨binding.sessionGeneration, some binding⟩
    registry.state.entries

variable {next st : RegistryState} {bnd : ControllerBinding} {reg : Registry}
  {exp mx gen : ℕ} {kind : MutationKind} {id snap : Text}
  {al : ControllerAllowlist} {act : ControllerAction} {s t : ControllerService}
  {es : ControllerEntries} {ent : ControllerEntry} {output : ControllerOutput}
  {stored before : Option Text} {loadFault : Option WatchdogError}

theorem replays_false {existing : Option ControllerEntry}
    (h : Registry.replays existing bnd = .ok false) :
    ∀ ent, existing = some ent → ent.sessionGeneration < bnd.sessionGeneration := by
  rintro ent rfl
  obtain ⟨hsta, h⟩ := error_if_ok_iff.mp h
  split_ifs at h with heq
  · split at h
    · split_ifs at h
      cases Except.ok.inj h
    · cases h
  · omega

theorem applyCandidate_ok (h : reg.applyCandidate bnd exp = .ok (kind, some next)) :
    Applied reg bnd next := by
  obtain ⟨haut, h⟩ := throw_if_ok_iff.mp h
  obtain ⟨_, -, h⟩ := bind_ok_iff.mp h
  obtain ⟨replayed, hrep, h⟩ := bind_ok_iff.mp h
  cases replayed with
  | true => cases (Except.ok.inj h)
  | false =>
    obtain ⟨_, hapa, h⟩ := bind_ok_iff.mp h
    obtain ⟨hroom, h⟩ := throw_if_ok_iff.mp h
    obtain ⟨rev, hrev, h⟩ := bind_ok_iff.mp h
    obtain ⟨rfl, hbd⟩ := nextRevision_ok hrev
    cases (Prod.mk.inj (Except.ok.inj h)).2
    refine ⟨ControllerAllowlist.authorizes_iff.mp (by simpa using haut),
      replays_false hrep, hapa, ?_, ⟨rfl, hbd⟩, rfl⟩
    · by_cases hact : ((lookupKey bnd.controllerId reg.state.entries).any
        fun ent => ent.binding.isSome) = true
      · exact .inl (Option.any_eq_true _ _ |>.mp hact)
      · exact .inr (not_le.mp fun hfull => hroom ⟨by simpa using hact, hfull⟩)

theorem retireCandidate_ok (h : reg.retireCandidate id gen exp = .ok (kind, some next)) :
    ∃ ent, lookupKey id reg.state.entries = some ent ∧ ent.binding.isSome ∧
      (next.revision = reg.state.revision + 1 ∧ next.revision < u64Bound) ∧
      next.entries = insertKey id { ent with binding := none } reg.state.entries := by
  obtain ⟨-, h⟩ := throw_if_ok_iff.mp h
  obtain ⟨-, h⟩ := throw_if_ok_iff.mp h
  obtain ⟨_, -, h⟩ := bind_ok_iff.mp h
  split at h
  · cases h
  · next ent hen =>
    obtain ⟨-, h⟩ := throw_if_ok_iff.mp h
    obtain ⟨-, h⟩ := throw_if_ok_iff.mp h
    split_ifs at h with hbin
    · cases (Except.ok.inj h)
    · change (nextRevision _ >>= fun _ => _) = _ at h
      obtain ⟨rev, hrev, h⟩ := bind_ok_iff.mp h
      obtain ⟨rfl, hbd⟩ := nextRevision_ok hrev
      cases (Prod.mk.inj (Except.ok.inj h)).2
      exact ⟨ent, hen, by simpa [isSome_iff_ne_none] using hbin, ⟨rfl, hbd⟩, rfl⟩

theorem replacementCandidate_ok (h : reg.replacementCandidate al = .ok next) :
    (next.revision = reg.state.revision + 1 ∧ next.revision < u64Bound) ∧
      next.entries = reg.state.entries.filter fun ent =>
        ((ent.2.binding.map (·.certificateSha256)).or
          (lookupKey ent.1 reg.allowlist.controllers)).any fun cert =>
            al.authorizes ent.1 cert := by
  obtain ⟨-, h⟩ := throw_if_ok_iff.mp h
  obtain ⟨_, -, h⟩ := bind_ok_iff.mp h
  obtain ⟨rev, hrev, h⟩ := bind_ok_iff.mp h
  obtain ⟨rfl, hbd⟩ := nextRevision_ok hrev
  cases h
  exact ⟨⟨rfl, hbd⟩, rfl⟩

/-! ### The rules are kept -/

theorem length_insertKey_le (h : Ordered es) (id : Text)
    (ent : ControllerEntry) : (insertKey id ent es).length ≤ es.length + 1 := by
  have hcnt := countP_insertKey (k := id) (v := ent) (fun _ => true) h
  simp only [countP_true, Bool.toNat_true] at hcnt
  omega

theorem activeBindingCount_insertKey (h : Ordered es) (id : Text)
    (ent : ControllerEntry) : activeBindingCount (insertKey id ent es) +
      ((lookupKey id es).map fun old => old.binding.isSome.toNat).getD 0 =
      activeBindingCount es + ent.binding.isSome.toNat := by
  simp only [activeBindingCount, ← countP_eq_length_filter]
  exact countP_insertKey (fun e : Text × ControllerEntry => e.2.binding.isSome) h

/-- What an accepted mutation does to the entries: one of them is replaced. -/
theorem RegistryState.Valid.insertKey (h : st.Valid al mx) (hen : EntryOk al (id, ent))
    (hapa : ∀ bnd ∈ ent.binding, rejectTargetConflict st.entries bnd = .ok ())
    (hroom : (∃ old, lookupKey id st.entries = some old ∧ old.binding.isSome) ∨
      activeBindingCount st.entries < mx)
    (hrev : next.revision = st.revision + 1 ∧ next.revision < u64Bound)
    (hnx : next.entries = Schemes.insertKey id ent st.entries) : next.Valid al mx := by
  obtain ⟨_, _, hbin⟩ := hen.certificate
  refine ⟨h.bound, hnx ▸ ordered_insertKey h.ordered, ?_, ?_, ?_, ?_, hrev.2⟩
  · rw [hnx]
    intro found hfd
    rcases (mem_insertKey h.ordered).mp hfd with rfl | ⟨hfd, -⟩
    · exact hen
    · exact h.entryOk found hfd
  · rw [hnx]
    refine h.apart.insertKey h.ordered fun bnd hb old hold hne other hoth => ?_
    have hne' : old.1 ≠ bnd.controllerId := (hbin bnd hb).1 ▸ hne
    exact rejectTargetConflict_ok_iff.mp (hapa bnd hb) old hold hne' other hoth
  · have hcnt := activeBindingCount_insertKey h.ordered id ent
    have hact := h.active
    have hone := Bool.toNat_le ent.binding.isSome
    rw [hnx]
    rcases hroom with ⟨old, hlk, hold⟩ | hroom
    · simp only [hlk, map_some, hold, Bool.toNat_true, getD_some] at hcnt
      omega
    · omega
  · have hlen := length_insertKey_le h.ordered id ent
    have hold := h.revision.1
    rw [hnx, hrev.1]
    omega

theorem Applied.valid (h : Applied reg bnd next)
    (hval : reg.state.Valid reg.allowlist reg.maximumActiveBindings) :
    next.Valid reg.allowlist reg.maximumActiveBindings := by
  refine hval.insertKey ⟨⟨_, h.authorized, ?_⟩, bnd.generation_bounds⟩ ?_ h.room h.revision
    h.entries
  · rintro b hb
    cases hb
    exact ⟨rfl, rfl, rfl⟩
  · rintro b hb
    cases hb
    exact h.apart

theorem retireCandidate_valid (h : reg.retireCandidate id gen exp = .ok (kind, some next))
    (hval : reg.state.Valid reg.allowlist reg.maximumActiveBindings) :
    next.Valid reg.allowlist reg.maximumActiveBindings := by
  obtain ⟨ent, hlk, hact, hrev, hnx⟩ := retireCandidate_ok h
  have hold := hval.entryOk _ ((lookupKey_eq_some hval.ordered).mp hlk)
  obtain ⟨cert, hcrt, -⟩ := hold.certificate
  have hen : EntryOk reg.allowlist (id, { ent with binding := none }) :=
    ⟨⟨cert, hcrt, by simp⟩, hold.generation⟩
  exact hval.insertKey hen (by simp) (.inl ⟨ent, hlk, hact⟩) hrev hnx

/-- A reload keeps some entries, under certificates of the new allowlist. -/
theorem replacementCandidate_valid (h : reg.replacementCandidate al = .ok next)
    (hval : reg.state.Valid reg.allowlist reg.maximumActiveBindings) :
    next.Valid al reg.maximumActiveBindings := by
  obtain ⟨hrev, hnx⟩ := replacementCandidate_ok h
  have hsub : next.entries.Sublist reg.state.entries := hnx ▸ filter_sublist
  refine ⟨hval.bound, hval.ordered.sublist hsub, ?_, ?_, ?_, ?_, hrev.2⟩
  · intro ent hen
    rw [hnx] at hen
    obtain ⟨hmem, hkept⟩ := mem_filter.mp hen
    have hold := hval.entryOk ent hmem
    obtain ⟨old, hlk, hbin⟩ := hold.certificate
    obtain ⟨cert, hcrt, haut⟩ := Option.any_eq_true _ _ |>.mp hkept
    refine ⟨⟨cert, ControllerAllowlist.authorizes_iff.mp haut, fun bnd hb => ?_⟩, hold.generation⟩
    have hsame : bnd.certificateSha256 = cert := by
      rw [mem_def.mp hb] at hcrt
      exact Option.some.inj hcrt
    exact ⟨(hbin bnd hb).1, hsame, (hbin bnd hb).2.2⟩
  · intro first hfst second hsnd
    exact hval.apart first (hsub.subset hfst) second (hsub.subset hsnd)
  · exact ((hsub.filter _).length_le).trans hval.active
  · have hlen := hsub.length_le
    have hold := hval.revision.1
    rw [hrev.1]
    omega

/-! ### Steps -/

/-- The state and the allowlist that an action would write. -/
inductive Candidate (registry : Registry) :
    ControllerAction → ControllerAllowlist → RegistryState → Prop
  | apply {binding : ControllerBinding} {expected : ℕ} {fault : Option CommitFault}
      {kind : MutationKind} {next : RegistryState} :
      registry.applyCandidate binding expected = .ok (kind, some next) →
      Candidate registry (.apply binding expected fault) registry.allowlist next
  | retire {id : Text} {generation expected : ℕ} {fault : Option CommitFault} {kind : MutationKind}
      {next : RegistryState} :
      registry.retireCandidate id generation expected = .ok (kind, some next) →
      Candidate registry (.retire id generation expected fault) registry.allowlist next
  | reload {allowlist : ControllerAllowlist} {fault : Option CommitFault} {next : RegistryState} :
      registry.replacementCandidate allowlist = .ok next →
      Candidate registry (.reload allowlist fault) allowlist next

theorem Candidate.valid (h : Candidate reg act al next)
    (hval : reg.state.Valid reg.allowlist reg.maximumActiveBindings) :
    next.Valid al reg.maximumActiveBindings := by
  cases h with
  | apply hnx => exact (applyCandidate_ok hnx).valid hval
  | retire hnx => exact retireCandidate_valid hnx hval
  | reload hnx => exact replacementCandidate_valid hnx hval

def ControllerAction.fault : ControllerAction → Option CommitFault
  | .restart _ _ _ fault | .apply _ _ fault | .retire _ _ _ fault | .reload _ fault => fault

/-- A service that has committed a state. -/
def Registry.committed (registry : Registry) (allowlist : ControllerAllowlist)
    (next : RegistryState) (snapshot : Text) : Registry :=
  ⟨allowlist, registry.maximumActiveBindings, { next with persistedSnapshot := some snapshot }⟩

/-- A commit is refused, or it replaces the file; then it succeeds, or fails after all. -/
theorem Registry.persist_cases (reg : Registry) (al : ControllerAllowlist)
    (next : RegistryState) (flt : Option CommitFault) (stored : Option Text) :
    (∃ e, reg.persist al next flt stored = (.error e, stored)) ∨
      ∃ snap, encodeSnapshot al next = .ok snap ∧
        (reg.persist al next flt stored =
            (.ok (reg.committed al next snap), some snap) ∨
          ∃ f, flt = some f ∧ f.replaced ∧
            reg.persist al next flt stored = (.error f.error, some snap)) := by
  rw [Registry.persist]
  cases henc : encodeSnapshot al next with
  | error e => exact .inl ⟨e, rfl⟩
  | ok snap =>
    simp only [commitSnapshot]
    split_ifs with hbs hcon
    · exact .inl ⟨_, rfl⟩
    · exact .inl ⟨_, rfl⟩
    · cases flt with
      | none => exact .inr ⟨snap, rfl, .inl rfl⟩
      | some f =>
        cases hrep : f.replaced with
        | false => exact .inl ⟨f.error, by simp [Except.map, hrep]⟩
        | true => exact .inr ⟨snap, rfl, .inr ⟨f, rfl, hrep, by simp [Except.map, hrep]⟩⟩

/-- What a running service can do other than restart. -/
inductive ControllerMove (s : ControllerService) (registry : Registry) (action : ControllerAction) :
    ControllerService → ControllerOutput → Prop
  | refused (error : WatchdogError) : ControllerMove s registry action s (.failed error)
  | replayed (kind : MutationKind) :
      ControllerMove s registry action s (.mutated kind registry.state.revision)
  | committed {allowlist : ControllerAllowlist} {next : RegistryState} {snapshot : Text}
      (generation : ℕ) (output : ControllerOutput) :
      Candidate registry action allowlist next → encodeSnapshot allowlist next = .ok snapshot →
      (∀ error, output ≠ .failed error) →
      ControllerMove s registry action
        ⟨some (registry.committed allowlist next snapshot), generation, some snapshot⟩ output
  | behind {allowlist : ControllerAllowlist} {next : RegistryState} {snapshot : Text}
      (error : WatchdogError) :
      Candidate registry action allowlist next → encodeSnapshot allowlist next = .ok snapshot →
      ((∃ f, action.fault = some f ∧ f.replaced) ∨ ∃ other fault, action = .reload other fault) →
      ControllerMove s registry action { s with stored := some snapshot } (.failed error)

theorem commitCandidate_moves (hs : s.registry = some reg) (act : ControllerAction)
    {flt : Option CommitFault} (hflt : act.fault = flt)
    (out : Except WatchdogError (MutationKind × Option RegistryState))
    (hcan : ∀ kind next, out = .ok (kind, some next) → Candidate reg act reg.allowlist next) :
    ControllerMove s reg act (s.mutate (reg.commitCandidate out flt s.stored)).1
      (s.mutate (reg.commitCandidate out flt s.stored)).2 := by
  obtain ⟨cur, gen, stored⟩ := s
  obtain rfl : cur = some reg := hs
  match out, hcan with
  | .error e, _ => exact .refused e
  | .ok (kind, none), _ => exact .replayed kind
  | .ok (kind, some next), hcan =>
    have hnx := hcan kind next rfl
    rcases reg.persist_cases reg.allowlist next flt stored with
      ⟨e, hper⟩ | ⟨snap, henc, hper | ⟨f, hsome, hrep, hper⟩⟩
    · simp only [Registry.commitCandidate, hper]
      exact .refused e
    · simp only [Registry.commitCandidate, hper]
      exact .committed gen (.mutated kind next.revision) hnx henc (by simp)
    · simp only [Registry.commitCandidate, hper]
      exact .behind f.error hnx henc (.inl ⟨f, hflt.trans hsome, hrep⟩)

theorem reload_moves (hs : s.registry = some reg) (al : ControllerAllowlist)
    (flt : Option CommitFault) :
    ControllerMove s reg (.reload al flt) (s.reload reg al flt).1 (s.reload reg al flt).2 := by
  obtain ⟨cur, gen, stored⟩ := s
  obtain rfl : cur = some reg := hs
  cases hnx : reg.replacementCandidate al with
  | error e =>
    simp only [ControllerService.reload, hnx]
    exact .refused e
  | ok next =>
    rcases reg.persist_cases al next flt stored with
      ⟨e, hper⟩ | ⟨snap, henc, hper | ⟨f, hflt, hrep, hper⟩⟩
    · simp only [ControllerService.reload, hnx, hper]
      exact .refused e
    · simp only [ControllerService.reload, hnx, hper]
      split_ifs
      · exact .behind _ (.reload hnx) henc (.inr ⟨al, flt, rfl⟩)
      · exact .committed _ _ (.reload hnx) henc (by simp)
    · simp only [ControllerService.reload, hnx, hper]
      exact .behind f.error (.reload hnx) henc (.inl ⟨f, hflt, hrep⟩)

/-- STEP: a service restarts, or it is running and moves. -/
theorem step_moves (h : s.step act = some (t, output)) :
    (∃ al mx loadFault flt, act = .restart al mx loadFault flt ∧
      (t, output) = ControllerService.restart
        (Registry.openPersistent al mx loadFault flt s.stored)) ∨
      ∃ reg, s.registry = some reg ∧ ControllerMove s reg act t output := by
  cases act with
  | restart al mx loadFault flt =>
    exact .inl ⟨al, mx, loadFault, flt, rfl, (Option.some.inj h).symm⟩
  | apply bnd exp flt =>
    cases hs : s.registry with
    | none => simp [ControllerService.step, hs] at h
    | some reg =>
      simp only [ControllerService.step, hs, Option.some.injEq] at h
      have hmv := commitCandidate_moves hs (.apply bnd exp flt)
        (show ControllerAction.fault _ = flt from rfl) (reg.applyCandidate bnd exp)
        fun kind next hnx => .apply hnx
      rw [h] at hmv
      exact .inr ⟨reg, rfl, hmv⟩
  | retire id gen exp flt =>
    cases hs : s.registry with
    | none => simp [ControllerService.step, hs] at h
    | some reg =>
      simp only [ControllerService.step, hs, Option.some.injEq] at h
      have hmv := commitCandidate_moves hs (.retire id gen exp flt)
        (show ControllerAction.fault _ = flt from rfl) (reg.retireCandidate id gen exp)
        fun kind next hnx => .retire hnx
      rw [h] at hmv
      exact .inr ⟨reg, rfl, hmv⟩
  | reload al flt =>
    cases hs : s.registry with
    | none => simp [ControllerService.step, hs] at h
    | some reg =>
      simp only [ControllerService.step, hs, Option.some.injEq] at h
      have hmv := reload_moves hs al flt
      rw [h] at hmv
      exact .inr ⟨reg, rfl, hmv⟩

/-! ### Opening -/

def initialState : RegistryState := ⟨1, [], none⟩

/-- A file without an entry: there is none, or it is an empty snapshot. -/
def Blank (stored : Option Text) : Prop :=
  stored = none ∨ ∃ old, stored = some old ∧ isEmptyInitialSnapshot old = true

/-- What opening can do: fail, take over the stored state, or write an empty one. -/
inductive Opening (allowlist : ControllerAllowlist) (maximum : ℕ) (stored : Option Text) :
    Except WatchdogError Registry × Option Text → Prop
  | failed (error : WatchdogError) : Opening allowlist maximum stored (.error error, stored)
  | resumed {snapshot : Text} {state : RegistryState} : stored = some snapshot →
      parseSnapshot allowlist maximum snapshot = .ok state →
      encodeSnapshot allowlist state = .ok snapshot →
      Opening allowlist maximum stored
        (.ok ⟨allowlist, maximum, { state with persistedSnapshot := some snapshot }⟩, stored)
  | fresh {snapshot : Text} : 0 < maximum ∧ maximum ≤ maximumWatchdogTargets → Blank stored →
      encodeSnapshot allowlist initialState = .ok snapshot →
      Opening allowlist maximum stored
        (.ok ⟨allowlist, maximum, { initialState with persistedSnapshot := some snapshot }⟩,
          some snapshot)
  | behind {snapshot : Text} (error : WatchdogError) : Blank stored →
      encodeSnapshot allowlist initialState = .ok snapshot →
      Opening allowlist maximum stored (.error error, some snapshot)

theorem opening_blank (flt : Option CommitFault) (hbd : 0 < mx ∧ mx ≤ maximumWatchdogTargets)
    (hbla : Blank stored) (henc : encodeSnapshot al initialState = .ok snap) :
    Opening al mx stored
      ((commitSnapshot stored snap flt stored).1.map fun _ =>
        (⟨al, mx, { initialState with persistedSnapshot := some snap }⟩ : Registry),
        (commitSnapshot stored snap flt stored).2) := by
  simp only [commitSnapshot, ne_eq, not_true_eq_false, if_false]
  split_ifs with hbs
  · exact .failed _
  · cases flt with
    | none => exact .fresh hbd hbla henc
    | some f =>
      cases hrep : f.replaced with
      | false => simpa [hrep, Except.map] using Opening.failed f.error
      | true => simpa [hrep, Except.map] using Opening.behind f.error hbla henc

theorem opening_openPersistent (al : ControllerAllowlist) (mx : ℕ)
    (loadFault : Option WatchdogError) (flt : Option CommitFault) (stored : Option Text) :
    Opening al mx stored (Registry.openPersistent al mx loadFault flt stored) := by
  unfold Registry.openPersistent
  split
  · exact .failed _
  · exact .failed _
  · next hbd =>
    have hbd : 0 < mx ∧ mx ≤ maximumWatchdogTargets := by
      obtain ⟨hnot, -⟩ := error_if_ok_iff.mp hbd
      omega
    cases stored with
    | none =>
      simp only [Registry.loadState, isSome_none, Bool.false_eq_true, false_and, if_false]
      split
      · exact .failed _
      · next snap henc => exact opening_blank flt hbd (.inl rfl) henc
    | some old =>
      cases hprs : parseSnapshot al mx old with
      | ok st =>
        simp only [Registry.loadState, hprs, isSome_some, and_self, if_true]
        split
        · exact .failed _
        · next snap henc =>
          split_ifs with hcnl
          · exact .failed _
          · cases not_not.mp hcnl
            exact .resumed rfl hprs henc
      | error e =>
        simp only [Registry.loadState, hprs]
        split_ifs with hemp
        · simp only [isSome_some, Bool.true_eq_false, and_false, if_false]
          split
          · exact .failed _
          · next snap henc =>
            exact opening_blank flt hbd (.inr ⟨old, rfl, hemp⟩) henc
        · exact .failed _

theorem initialState_valid (al : ControllerAllowlist) (h : 0 < mx ∧ mx ≤ maximumWatchdogTargets) :
    initialState.Valid al mx :=
  ⟨h, List.Pairwise.nil, by simp [initialState], by simp [initialState, Apart],
    Nat.zero_le _, by decide⟩

/-! ### The file is the live state -/

def ControllerAction.isMutation : ControllerAction → Bool
  | .apply .. | .retire .. => true
  | .restart .. | .reload .. => false

/-- The commit of an action does not fail after the replacement, and a descriptor that it writes is
    short enough to be read. -/
structure ControllerAction.Restartable (action : ControllerAction) : Prop where
  fault : ∀ fault ∈ action.fault, fault.replaced = false
  descriptor : ∀ binding expected fault, action = .apply binding expected fault →
    (targetDescriptor binding.target).length ≤ maxDescriptorBytes

/-- A running service whose file is its state. -/
structure InStep (allowlist : ControllerAllowlist) (maximum : ℕ) (s : ControllerService)
    (live : Registry) (snapshot : Text) : Prop where
  registry : s.registry = some live
  stored : s.stored = some snapshot
  sameAllowlist : live.allowlist = allowlist
  sameMaximum : live.maximumActiveBindings = maximum
  encoded : encodeSnapshot allowlist live.state = .ok snapshot
  valid : live.state.Valid allowlist maximum
  fits : live.state.Fits

theorem RegistryState.Fits.insertKey (h : st.Fits) (hord : Ordered st.entries)
    (hen : ∀ bnd ∈ ent.binding, (targetDescriptor bnd.target).length ≤
      maxDescriptorBytes) (hnx : next.entries = Schemes.insertKey id ent st.entries) :
    next.Fits := by
  intro found hfd
  rw [hnx] at hfd
  rcases (mem_insertKey hord).mp hfd with rfl | ⟨hfd, -⟩
  · exact hen
  · exact h found hfd

theorem Candidate.fits (h : Candidate reg act al next)
    (hmut : act.isMutation) (hact : act.Restartable) (hfits : reg.state.Fits)
    (hord : Ordered reg.state.entries) : al = reg.allowlist ∧ next.Fits := by
  cases h with
  | @apply bnd _ _ _ _ hnx =>
    refine ⟨rfl, hfits.insertKey hord ?_ (applyCandidate_ok hnx).entries⟩
    rintro b hb
    cases hb
    exact hact.descriptor _ _ _ rfl
  | retire hnx =>
    obtain ⟨ent, -, -, -, hens⟩ := retireCandidate_ok hnx
    exact ⟨rfl, hfits.insertKey hord (by simp) hens⟩
  | reload hnx => cases hmut

/-- STEP: a mutation keeps the file in step with the service, and one that fails changes nothing. -/
theorem InStep.step {live : Registry} (h : InStep al mx s live snap)
    (hmut : act.isMutation) (hact : act.Restartable) (hst : s.step act = some (t, output)) :
    (∃ live snap, InStep al mx t live snap) ∧ ∀ e, output = .failed e → t = s := by
  rcases step_moves hst with ⟨_, _, _, _, rfl, -⟩ | ⟨reg, hreg, hmove⟩
  · cases hmut
  · cases h.registry.symm.trans hreg
    have hall := h.sameAllowlist
    have hmax := h.sameMaximum
    subst hall hmax
    cases hmove with
    | refused e | replayed kind => exact ⟨⟨live, snap, h⟩, fun _ _ => rfl⟩
    | committed gen output hnx henc hsuc =>
      obtain ⟨rfl, hfits⟩ := hnx.fits hmut hact h.fits h.valid.ordered
      exact ⟨⟨_, _, rfl, rfl, rfl, rfl, henc, (hnx.valid h.valid).persisted _, hfits⟩,
        fun e herr => absurd herr (hsuc e)⟩
    | behind e hnx henc hcau =>
      rcases hcau with ⟨f, hflt, hrep⟩ | ⟨_, _, rfl⟩
      · rw [hact.fault f hflt] at hrep
        cases hrep
      · cases hmut

theorem inStep_of_open {flt : Option CommitFault}
    (h : Registry.openPersistent al mx loadFault flt before = (.ok reg, stored)) (gen : ℕ) :
    ∃ snap, InStep al mx ⟨some reg, gen, stored⟩ reg snap := by
  have hope := opening_openPersistent al mx loadFault flt before
  rw [h] at hope
  cases hope with
  | @resumed snap st hsto hprs henc =>
    obtain ⟨hval, hfits⟩ := valid_of_parseSnapshot hprs
    exact ⟨snap, rfl, hsto, rfl, rfl, henc, hval.persisted _, hfits⟩
  | @fresh snap hbd hbla henc =>
    exact ⟨snap, rfl, rfl, rfl, rfl, henc, (initialState_valid al hbd).persisted _,
      by simp [initialState, RegistryState.Fits]⟩

/-! ### A first binding -/

def snapshotText (allowlist : ControllerAllowlist) (state : RegistryState) : Text :=
  snapshotBody allowlist state ++ checksumLine (snapshotBody allowlist state)

theorem length_snapshotText (al : ControllerAllowlist) (st : RegistryState) :
    (snapshotText al st).length = (snapshotBody al st).length + 18 := by
  have hname : (text "checksum=").length = 9 := rfl
  simp only [snapshotText, checksumLine, length_append, length_hexWord, hname, length_singleton]

theorem encodeSnapshot_of_length
    (h : (snapshotBody al st).length + 18 ≤ controllerSnapshotMaxBytes) :
    encodeSnapshot al st = .ok (snapshotText al st) := by
  rw [← length_snapshotText] at h
  exact error_if_ok_iff.mpr ⟨not_lt.mpr h, rfl⟩

theorem commitSnapshot_same (hne : snap ≠ []) (hlen : snap.length ≤ controllerSnapshotMaxBytes)
    (stored : Option Text) : commitSnapshot stored snap none stored = (.ok (), some snap) := by
  rw [commitSnapshot, if_neg, if_neg (not_not.mpr rfl)]
  simp [hne, not_lt.mpr hlen]

theorem length_of_encodeSnapshot (h : encodeSnapshot al st = .ok snap) :
    snap ≠ [] ∧ snap.length ≤ controllerSnapshotMaxBytes := by
  obtain ⟨hlen, h⟩ := error_if_ok_iff.mp h
  rw [← Except.ok.inj h]
  exact ⟨by simp [checksumLine], not_lt.mp hlen⟩

def openedRegistry (allowlist : ControllerAllowlist) (maximum : ℕ) : Registry :=
  ⟨allowlist, maximum, { initialState with
    persistedSnapshot := some (snapshotText allowlist initialState) }⟩

def boundState (binding : ControllerBinding) : RegistryState :=
  ⟨2, [(binding.controllerId, ⟨binding.sessionGeneration, some binding⟩)], none⟩

/-- The service after a first binding was applied to a new registry. -/
def boundService (allowlist : ControllerAllowlist) (maximum : ℕ) (binding : ControllerBinding) :
    ControllerService :=
  ⟨some ⟨allowlist, maximum, { boundState binding with
    persistedSnapshot := some (snapshotText allowlist (boundState binding)) }⟩, 1,
    some (snapshotText allowlist (boundState binding))⟩

section FirstBinding

theorem applyCandidate_first (hbd : 0 < mx)
    (haut : al.authorizes bnd.controllerId bnd.certificateSha256 = true) :
    (openedRegistry al mx).applyCandidate bnd 1 = .ok (.created,
      some { boundState bnd with
        persistedSnapshot := some (snapshotText al initialState) }) := by
  have hroom : ¬(mx ≤ activeBindingCount []) := not_le.mpr hbd
  simp only [Registry.applyCandidate, openedRegistry, haut, Bool.not_true,
    Bool.false_eq_true, if_false, initialState, hroom, and_false]
  rfl

theorem encodeSnapshot_boundState
    (h : (snapshotBody al (boundState bnd)).length + 18 ≤ controllerSnapshotMaxBytes)
    (persisted : Option Text) :
    encodeSnapshot al { boundState bnd with persistedSnapshot := persisted } =
      .ok (snapshotText al (boundState bnd)) :=
  encodeSnapshot_of_length h

theorem step_first_binding (hbd : 0 < mx)
    (haut : al.authorizes bnd.controllerId bnd.certificateSha256 = true)
    (h : (snapshotBody al (boundState bnd)).length + 18 ≤ controllerSnapshotMaxBytes) :
    ControllerService.step ⟨some (openedRegistry al mx), 1,
        some (snapshotText al initialState)⟩ (.apply bnd 1 none) =
      some (boundService al mx bnd, .mutated .created 2) := by
  have henc := encodeSnapshot_boundState h (some (snapshotText al initialState))
  obtain ⟨hne, hlen⟩ := length_of_encodeSnapshot henc
  have hper : (openedRegistry al mx).state.persistedSnapshot =
      some (snapshotText al initialState) := rfl
  have hall : (openedRegistry al mx).allowlist = al := rfl
  simp only [ControllerService.step, applyCandidate_first hbd haut,
    Registry.commitCandidate, Registry.persist, hall, henc, hper,
    commitSnapshot_same hne hlen]
  rfl

theorem long_binding_refused (haut : al.authorizes bnd.controllerId bnd.certificateSha256 = true)
    (h : (snapshotBody al (boundState bnd)).length + 18 ≤ controllerSnapshotMaxBytes)
    (hlong : maxDescriptorBytes < (targetDescriptor bnd.target).length) (parsed : RegistryState) :
    parseSnapshot al mx (snapshotText al (boundState bnd)) ≠ .ok parsed := by
  intro hprs
  have hen : EntryOk al (bnd.controllerId, ⟨bnd.sessionGeneration, some bnd⟩) := by
    refine ⟨⟨_, ControllerAllowlist.authorizes_iff.mp haut, ?_⟩, bnd.generation_bounds⟩
    rintro b hb
    cases hb
    exact ⟨rfl, rfl, rfl⟩
  have hens : parsed.entries = (boundState bnd).entries :=
    entries_of_parseSnapshot (fun ent he => mem_singleton.mp he ▸ hen) (pairwise_singleton _ _)
      (show 0 < 2 ∧ 2 < u64Bound by decide) (encodeSnapshot_of_length h) hprs
  have hfits := (valid_of_parseSnapshot hprs).2
  rw [RegistryState.Fits, hens] at hfits
  exact absurd (hfits _ mem_cons_self bnd rfl) (not_le.mpr hlong)

end FirstBinding

/-! ### Values -/

theorem shortCgroup_valid : isCgroup (cgroupRoot ++ [97]) = true := by decide

theorem longCgroup_valid : isCgroup (cgroupRoot ++ replicate 1792 97) = true := by
  decide +kernel

theorem isLowerHex_zeroController : isLowerHex (replicate 32 48) controllerIdBytes = true :=
  isLowerHex_zeros 32

theorem isLowerHex_zeroFingerprint :
    isLowerHex (replicate 64 48) controllerFingerprintBytes = true := isLowerHex_zeros 64

theorem one_isGeneration : 0 < 1 ∧ 1 < u64Bound := by decide

theorem zeroBoot_safe : ∀ v ∈ some (replicate 36 48),
    safeToken v bootIdBytes ∧ v.length = bootIdBytes := by
  rintro v hvl
  cases hvl
  decide

/-- A placement that starts, in a control group. -/
def startingTarget (cgroup : Text) (h : isCgroup cgroup = true) : ProtectedEngine where
  generation := replicate 32 48
  phase := .starting
  containerName := text "engine"
  containerId := some (replicate 64 48)
  processId := some 2
  processStartTicks := some 1
  bootId := some (replicate 36 48)
  cgroup := some cgroup
  generation_hex := isLowerHex_zeroGeneration
  containerName_safe := safeToken_engine
  containerId_hex := zeroContainer_hex
  processId_bounds := two_isProcessId
  processStartTicks_pos := one_isStartTicks
  bootId_safe := zeroBoot_safe
  cgroup_valid := by
    rintro value hvalue
    cases hvalue
    exact h
  process_bound := ⟨rfl, rfl, rfl, rfl, rfl⟩

def firstSession (cgroup : Text) (h : isCgroup cgroup = true) : ControllerBinding :=
  ⟨replicate 32 48, replicate 64 48, 1, startingTarget cgroup h, isLowerHex_zeroController,
    isLowerHex_zeroFingerprint, one_isGeneration, rfl⟩

def oneController : ControllerAllowlist where
  installationId := replicate 64 48
  controllers := [(replicate 32 48, replicate 64 48)]
  sha256 := replicate 64 48
  installationId_hex := isLowerHex_zeros 64
  ordered := pairwise_singleton _ _
  controllers_hex := by
    intro entry hentry
    rw [mem_singleton.mp hentry]
    exact ⟨isLowerHex_zeroController, isLowerHex_zeroFingerprint⟩
  sha256_hex := isLowerHex_zeroFingerprint

set_option maxRecDepth 2000 in
theorem oneController_opens : Registry.openPersistent oneController 1 none none none =
    (.ok (openedRegistry oneController 1), some (snapshotText oneController initialState)) :=
  rfl

theorem firstSession_authorized (cgroup : Text) (h : isCgroup cgroup = true) :
    oneController.authorizes (firstSession cgroup h).controllerId
      (firstSession cgroup h).certificateSha256 = true := by
  change oneController.authorizes (replicate 32 48) (replicate 64 48) = true
  decide

theorem shortSession_length : (snapshotBody oneController
    (boundState (firstSession _ shortCgroup_valid))).length + 18 ≤ controllerSnapshotMaxBytes := by
  decide +kernel

theorem longSession_length : (snapshotBody oneController
    (boundState (firstSession _ longCgroup_valid))).length + 18 ≤ controllerSnapshotMaxBytes := by
  decide +kernel

/-! ### The theorem -/

/-- RUN: after any mutations that can be restarted from, the stored bytes are the live state
    encoded, they are read under the same allowlist and bound as the same revision and entries, and
    every mutation that failed has left service and file as they were. -/
theorem registry_restart_equivalence {allowlist : ControllerAllowlist} {maximum : ℕ}
    {loadFault : Option WatchdogError} {fault : Option CommitFault} {before stored : Option Text}
    {registry : Registry} {tr : List (ControllerService × ControllerAction × ControllerOutput)}
    {s : ControllerService}
    (hopen : Registry.openPersistent allowlist maximum loadFault fault before =
      (.ok registry, stored)) (hrun : Run ControllerService.step ⟨some registry, 1, stored⟩ tr s)
    (hmutations : ∀ e ∈ tr, e.2.1.isMutation = true) (hrestartable : ∀ e ∈ tr, e.2.1.Restartable) :
    (∃ live snapshot parsed, s.registry = some live ∧ s.stored = some snapshot ∧
      live.allowlist = allowlist ∧ live.maximumActiveBindings = maximum ∧
      encodeSnapshot allowlist live.state = .ok snapshot ∧
      parseSnapshot allowlist maximum snapshot = .ok parsed ∧
      parsed.revision = live.state.revision ∧ parsed.entries = live.state.entries) ∧
    ∀ e ∈ tr, ∀ error, e.2.2 = .failed error →
      ControllerService.step e.1 e.2.1 = some (e.1, e.2.2) := by
  have hok : ∀ e ∈ tr, e.2.1.isMutation = true ∧ e.2.1.Restartable :=
    fun e he => ⟨hmutations e he, hrestartable e he⟩
  have hstr : ∃ live snapshot, InStep allowlist maximum ⟨some registry, 1, stored⟩ live snapshot :=
    ⟨registry, inStep_of_open hopen 1⟩
  have hkps : ∀ (s : ControllerService) (a : ControllerAction) (t : ControllerService)
      (o : ControllerOutput), (∃ live snapshot, InStep allowlist maximum s live snapshot) →
      (a.isMutation = true ∧ a.Restartable) → s.step a = some (t, o) →
      ∃ live snapshot, InStep allowlist maximum t live snapshot := by
    rintro s a t o ⟨live, snapshot, hin⟩ ⟨hmut, hact⟩ hst
    exact (hin.step hmut hact hst).1
  obtain ⟨live, snapshot, hin⟩ := hrun.invariant_of (fun _ a => a.isMutation = true ∧ a.Restartable)
    (fun s => ∃ live snapshot, InStep allowlist maximum s live snapshot) hstr hok hkps
  refine ⟨⟨live, snapshot, _, hin.registry, hin.stored, hin.sameAllowlist, hin.sameMaximum,
    hin.encoded,
    parseSnapshot_of_valid hin.valid hin.fits hin.encoded, rfl, rfl⟩, fun e he error herr => ?_⟩
  obtain ⟨⟨live, snapshot, hin⟩, t, hst⟩ := hrun.step_of
    (fun _ a => a.isMutation = true ∧ a.Restartable)
    (fun s => ∃ live snapshot, InStep allowlist maximum s live snapshot) hstr hok hkps e he
  rw [hst, (hin.step (hok e he).1 (hok e he).2 hst).2 error herr]

theorem shortSession_restartable :
    (ControllerAction.apply (firstSession _ shortCgroup_valid) 1 none).Restartable := by
  refine ⟨by simp [ControllerAction.fault], fun bnd exp flt hact => ?_⟩
  obtain ⟨rfl, -, -⟩ := ControllerAction.apply.inj hact
  decide +kernel

theorem registry_restart_equivalence_short_session :
    ∃ live snapshot parsed,
      (boundService oneController 1 (firstSession _ shortCgroup_valid)).registry = some live ∧
      (boundService oneController 1 (firstSession _ shortCgroup_valid)).stored = some snapshot ∧
      parseSnapshot oneController 1 snapshot = .ok parsed ∧
      parsed.entries = live.state.entries := by
  have hst := step_first_binding one_isGeneration.1 (firstSession_authorized _ _)
    shortSession_length
  obtain ⟨⟨live, snapshot, parsed, hlive, hsto, -, -, -, hprs, -, hens⟩, -⟩ :=
    registry_restart_equivalence oneController_opens (.snoc .nil hst)
      (fun e he => by
        rw [mem_singleton.mp he]
        rfl)
      (fun e he => by
        rw [mem_singleton.mp he]
        exact shortSession_restartable)
  exact ⟨live, snapshot, parsed, hlive, hsto, hprs, hens⟩

/-- A placement whose descriptor was read from 2048 bytes is applied, no commit fails, and the bytes
    that are then stored are refused. -/
theorem long_descriptor_blocks_restart : (∃ source, source.length = maxDescriptorBytes ∧
      (ProtectedEngine.parse source).toOption = some (startingTarget _ longCgroup_valid)) ∧
    ∃ registry stored tr s live snapshot, Registry.openPersistent oneController 1 none none none =
      (.ok registry, stored) ∧ Run ControllerService.step ⟨some registry, 1, stored⟩ tr s ∧
      (∀ e ∈ tr, e.2.1.isMutation = true ∧ e.2.1.fault = none) ∧ s.registry = some live ∧
      s.stored = some snapshot ∧ encodeSnapshot oneController live.state = .ok snapshot ∧ ∀ parsed,
      parseSnapshot oneController 1 snapshot ≠ .ok parsed := by
  have hlong : maxDescriptorBytes < (targetDescriptor (startingTarget _ longCgroup_valid)).length := by
    decide +kernel
  have hst := step_first_binding one_isGeneration.1 (firstSession_authorized _ longCgroup_valid)
    longSession_length
  refine ⟨⟨(targetDescriptor (startingTarget _ longCgroup_valid)).dropLast, by decide +kernel⟩,
    _, _, _, _, _, _, oneController_opens, .snoc .nil hst, fun e he => ?_, rfl, rfl,
    encodeSnapshot_boundState longSession_length _,
    long_binding_refused (firstSession_authorized _ longCgroup_valid) longSession_length hlong⟩
  rw [mem_singleton.mp he]
  exact ⟨rfl, rfl⟩

/-- What is read is well formed and stays so: a text that is accepted gives a registry that meets
    every rule, and what that registry is written as reads as the same registry again. -/
theorem accepted_snapshot_reads_back {allowlist : ControllerAllowlist} {maximum : ℕ}
    {snapshot : Text} {state : RegistryState}
    (h : parseSnapshot allowlist maximum snapshot = .ok state) :
    state.Valid allowlist maximum ∧ ∀ written, encodeSnapshot allowlist state = .ok written →
      ∃ again, parseSnapshot allowlist maximum written = .ok again ∧
        again.revision = state.revision ∧ again.entries = state.entries := by
  obtain ⟨hval, hfits⟩ := valid_of_parseSnapshot h
  exact ⟨hval, fun written henc => ⟨_, parseSnapshot_of_valid hval hfits henc, rfl, rfl⟩⟩

/-- The snapshot of a registry with one session is accepted, written and read again. -/
theorem accepted_snapshot_reads_back_session : ∃ snapshot state written again,
    parseSnapshot oneController 1 snapshot = .ok state ∧ state.Valid oneController 1 ∧
    state.entries = [(replicate 32 48, ⟨1, some (firstSession _ shortCgroup_valid)⟩)] ∧
    encodeSnapshot oneController state = .ok written ∧
    parseSnapshot oneController 1 written = .ok again ∧ again.revision = 2 ∧
    again.entries = state.entries := by
  obtain ⟨_, hnew⟩ := inStep_of_open oneController_opens 1
  obtain ⟨live, snapshot, hin⟩ := (hnew.step rfl shortSession_restartable
    (step_first_binding one_isGeneration.1 (firstSession_authorized _ _) shortSession_length)).1
  obtain rfl := Option.some.inj hin.registry
  have hread := parseSnapshot_of_valid hin.valid hin.fits hin.encoded
  obtain ⟨hval, hback⟩ := accepted_snapshot_reads_back hread
  have henc := encodeSnapshot_boundState shortSession_length none
  obtain ⟨again, hagain, hrev, hens⟩ := hback _ henc
  exact ⟨snapshot, _, _, again, hread, hval, rfl, henc, hagain, hrev, hens⟩

end LetsInfer.Watchdog
