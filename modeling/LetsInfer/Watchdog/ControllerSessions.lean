import LetsInfer.Watchdog.ControllerRestart

/-! @src core/watchdog/src/li_watchdog_controller_registry.rs | name:Sessions of controllers | scheme:lts

    Over every run of a service: restarts from the file, mutations, reloads, commits that fail before
    or after the file is replaced. What a live registry knew of a controller is known to every later
    one: the file is never behind it. The argument is an order on states, of which every commit goes
    up and every restart reads back the top. -/

namespace LetsInfer.Watchdog
open Schemes List

/-! ### The order on what is known of a controller -/

variable {ent : ControllerEntry}

/-- Later entries of a controller: its generation does not decrease, and a retired one stays so. -/
def Evolves (id : Text) (old new : ControllerEntries) : Prop :=
  ∀ entry, lookupKey id old = some entry → ∃ entry', lookupKey id new = some entry' ∧
    entry.sessionGeneration ≤ entry'.sessionGeneration ∧
    (entry.binding = none → entry'.sessionGeneration = entry.sessionGeneration →
      entry'.binding = none)

theorem Evolves.refl (id : Text) (es : ControllerEntries) : Evolves id es es :=
  fun ent hen => ⟨ent, hen, le_rfl, fun hno _ => hno⟩

variable {id : Text} {old : ControllerEntries} {reg : Registry} {act : ControllerAction}
  {al : ControllerAllowlist} {s : ControllerService}

theorem Evolves.trans {first second third : ControllerEntries} (h : Evolves id first second)
    (h' : Evolves id second third) : Evolves id first third := by
  intro ent hen
  obtain ⟨middle, hmid, hle, hret⟩ := h ent hen
  obtain ⟨last, hlast, hle', hret'⟩ := h' middle hmid
  refine ⟨last, hlast, hle.trans hle', fun hno heq => ?_⟩
  have hsame : middle.sessionGeneration = ent.sessionGeneration := by omega
  exact hret' (hret hno hsame) (by omega)

/-- A generation that is over is not active later. -/
theorem Evolves.ended {new : ControllerEntries} (h : Evolves id old new) {ent' : ControllerEntry}
    (hold : lookupKey id old = some ent) (hnew : lookupKey id new = some ent') {gen : ℕ}
    (hover : gen < ent.sessionGeneration ∨ gen = ent.sessionGeneration ∧
      ent.binding = none) (hact : ent'.binding ≠ none) : ent'.sessionGeneration ≠ gen := by
  obtain ⟨found, hfd, hle, hret⟩ := h ent hold
  cases hnew.symm.trans hfd
  rintro rfl
  rcases hover with hless | ⟨heq, hno⟩
  · omega
  · exact hact (hret hno heq)

theorem evolves_insertKey {es : ControllerEntries} (hord : Ordered es) (id key : Text)
    (h : ∀ old, lookupKey key es = some old → old.sessionGeneration ≤ ent.sessionGeneration ∧
      (old.binding = none → ent.sessionGeneration = old.sessionGeneration →
        ent.binding = none)) : Evolves id es (insertKey key ent es) := by
  intro old hold
  by_cases hkey : id = key
  · subst hkey
    exact ⟨ent, by rw [lookupKey_insertKey hord, if_pos rfl], h old hold⟩
  · refine ⟨old, ?_, le_rfl, fun hno _ => hno⟩
    rw [lookupKey_insertKey hord, if_neg hkey, hold]

/-- The reloads of an action keep the certificate of a controller. -/
def ControllerAction.Keeps (id : Text) (s : ControllerService) (action : ControllerAction) : Prop :=
  ∀ allowlist fault, action = .reload allowlist fault → ∀ registry, s.registry = some registry →
    ∀ certificate, registry.allowlist.authorizes id certificate = true →
      allowlist.authorizes id certificate = true

/-- STEP: what an action would write is later than what is live. -/
theorem Candidate.evolves {next : RegistryState} (h : Candidate reg act al next)
    (hs : s.registry = some reg) (hval : reg.state.Valid reg.allowlist reg.maximumActiveBindings)
    (hkps : act.Keeps id s) : Evolves id reg.state.entries next.entries := by
  cases h with
  | @apply b _ _ _ _ hnx =>
    have happ := applyCandidate_ok hnx
    rw [happ.entries]
    refine evolves_insertKey hval.ordered id _ fun old hold => ?_
    have hnew := happ.newer old hold
    exact ⟨hnew.le, fun _ heq => absurd heq (ne_of_gt hnew)⟩
  | retire hnx =>
    obtain ⟨ent, hen, -, -, hens⟩ := retireCandidate_ok hnx
    rw [hens]
    refine evolves_insertKey hval.ordered id _ fun old hold => ?_
    cases hen.symm.trans hold
    exact ⟨le_rfl, fun _ _ => rfl⟩
  | @reload _ flt _ hnx =>
    intro ent hen
    refine ⟨ent, ?_, le_rfl, fun hno _ => hno⟩
    obtain ⟨-, hens⟩ := replacementCandidate_ok hnx
    have hord := ((replacementCandidate_valid hnx hval).ordered)
    have hmem := (lookupKey_eq_some hval.ordered).mp hen
    obtain ⟨cert, hlk, hbin⟩ := (hval.entryOk _ hmem).certificate
    have haut := hkps al flt rfl reg hs cert (ControllerAllowlist.authorizes_iff.mpr hlk)
    rw [lookupKey_eq_some hord, hens]
    refine mem_filter.mpr ⟨hmem, Option.any_eq_true _ _ |>.mpr ⟨cert, ?_, haut⟩⟩
    cases hcase : ent.binding with
    | none => simpa [hcase] using hlk
    | some b => simp [(hbin b hcase).2.1]

/-! ### The file -/

variable {snap : Text} {t : ControllerService} {output : ControllerOutput}

/-- The file holds a snapshot of entries that are later than given ones. -/
structure Persisted (id : Text) (old : ControllerEntries) (stored : Option Text)
    (allowlist : ControllerAllowlist) (state : RegistryState) (snapshot : Text) : Prop where
  stored : stored = some snapshot
  encoded : encodeSnapshot allowlist state = .ok snapshot
  entryOk : ∀ entry ∈ state.entries, EntryOk allowlist entry
  ordered : Ordered state.entries
  revision : 0 < state.revision ∧ state.revision < u64Bound
  evolves : Evolves id old state.entries

def IsPersisted (id : Text) (old : ControllerEntries) (stored : Option Text) : Prop :=
  ∃ allowlist state snapshot, Persisted id old stored allowlist state snapshot

theorem isPersisted_of_valid {mx : ℕ} {st : RegistryState} (hval : st.Valid al mx)
    (henc : encodeSnapshot al st = .ok snap)
    (hevo : Evolves id old st.entries) : IsPersisted id old (some snap) :=
  ⟨al, st, snap, rfl, henc, hval.entryOk, hval.ordered,
    ⟨Nat.zero_lt_of_lt hval.revision.1, hval.revision.2⟩, hevo⟩

/-- Every live registry of a service is valid and later than given entries, and so is the file. -/
structure Knows (id : Text) (old : ControllerEntries) (s : ControllerService) : Prop where
  file : IsPersisted id old s.stored
  live : ∀ registry, s.registry = some registry → Evolves id old registry.state.entries

/-- The live registry is valid, and the file is not behind it. -/
def NotBehind (id : Text) (s : ControllerService) : Prop :=
  ∀ registry, s.registry = some registry →
    registry.state.Valid registry.allowlist registry.maximumActiveBindings ∧
      IsPersisted id registry.state.entries s.stored

theorem initial_persisted (henc : encodeSnapshot al initialState = .ok snap)
    (hold : Evolves id old []) : IsPersisted id old (some snap) :=
  isPersisted_of_valid (initialState_valid al (by decide : 0 < 1 ∧ 1 ≤ maximumWatchdogTargets))
    henc hold

/-- STEP: no step puts the file behind the live registry. -/
theorem NotBehind.step (h : NotBehind id s) (hkps : act.Keeps id s)
    (hst : s.step act = some (t, output)) : NotBehind id t := by
  rcases step_moves hst with ⟨al, mx, loadFault, flt, rfl, hres⟩ | ⟨reg, hreg, hmove⟩
  · have hope := opening_openPersistent al mx loadFault flt s.stored
    generalize Registry.openPersistent al mx loadFault flt s.stored = outcome at *
    obtain ⟨rfl, -⟩ := Prod.mk.inj hres
    intro live hlive
    cases hope with
    | failed e => cases hlive
    | behind e hbla henc => cases hlive
    | resumed hsto hprs henc =>
      cases hlive
      have hval := (valid_of_parseSnapshot hprs).1
      refine ⟨hval.persisted _, ?_⟩
      change IsPersisted id _ s.stored
      rw [hsto]
      exact isPersisted_of_valid hval henc (.refl id _)
    | fresh hbd hbla henc =>
      cases hlive
      exact ⟨(initialState_valid al hbd).persisted _, initial_persisted henc (.refl id _)⟩
  · obtain ⟨hval, hfile⟩ := h reg hreg
    cases hmove with
    | refused e => exact h
    | replayed kind => exact h
    | committed gen output hnx henc _ =>
      intro live hlive
      cases hlive
      exact ⟨(hnx.valid hval).persisted _, isPersisted_of_valid (hnx.valid hval) henc (.refl id _)⟩
    | behind e hnx henc _ =>
      intro live hlive
      cases hreg.symm.trans hlive
      exact ⟨hval, isPersisted_of_valid (hnx.valid hval) henc (hnx.evolves hreg hval hkps)⟩

/-- A blank file that is later than given entries: they had none of the controller. -/
theorem evolves_nil_of_blank {stored : Option Text} (h : IsPersisted id old stored)
    (hbla : Blank stored) : Evolves id old [] := by
  obtain ⟨al, st, snap, hfile⟩ := h
  rcases hbla with hno | ⟨text, htext, hemp⟩
  · rw [hfile.stored] at hno
    cases hno
  · cases hfile.stored.symm.trans htext
    have hevo := hfile.evolves
    rwa [entries_of_isEmptyInitialSnapshot hfile.encoded hfile.entryOk hemp] at hevo

/-- STEP: what is known of a controller stays known. -/
theorem Knows.step (h : Knows id old s) (hval : NotBehind id s) (hkps : act.Keeps id s)
    (hst : s.step act = some (t, output)) : Knows id old t := by
  rcases step_moves hst with ⟨al, mx, loadFault, flt, rfl, hres⟩ | ⟨reg, hreg, hmove⟩
  · have hope := opening_openPersistent al mx loadFault flt s.stored
    generalize Registry.openPersistent al mx loadFault flt s.stored = outcome at *
    obtain ⟨rfl, -⟩ := Prod.mk.inj hres
    cases hope with
    | failed e => exact ⟨h.file, by rintro live ⟨⟩⟩
    | behind e hbla henc =>
      exact ⟨initial_persisted henc (evolves_nil_of_blank h.file hbla), by rintro live ⟨⟩⟩
    | resumed hsto hprs henc =>
      refine ⟨h.file, fun live hlive => ?_⟩
      cases hlive
      obtain ⟨writer, st, snap, hfile⟩ := h.file
      cases hfile.stored.symm.trans hsto
      have hens := entries_of_parseSnapshot hfile.entryOk hfile.ordered hfile.revision
        hfile.encoded hprs
      exact hens ▸ hfile.evolves
    | fresh hbd hbla henc =>
      have hnil := evolves_nil_of_blank h.file hbla
      refine ⟨initial_persisted henc hnil, fun live hlive => ?_⟩
      cases hlive
      exact hnil
  · have hlive := h.live reg hreg
    obtain ⟨hrgs, -⟩ := hval reg hreg
    cases hmove with
    | refused e => exact h
    | replayed kind => exact h
    | committed gen output hnx henc _ =>
      have hevo := hlive.trans (hnx.evolves hreg hrgs hkps)
      refine ⟨isPersisted_of_valid (hnx.valid hrgs) henc hevo, fun live hnew => ?_⟩
      cases hnew
      exact hevo
    | behind e hnx henc _ =>
      have hevo := hlive.trans (hnx.evolves hreg hrgs hkps)
      exact ⟨isPersisted_of_valid (hnx.valid hrgs) henc hevo, h.live⟩

theorem NotBehind.knows (h : NotBehind id s) (hreg : s.registry = some reg) :
    Knows id reg.state.entries s := by
  refine ⟨(h reg hreg).2, fun live hlive => ?_⟩
  cases hreg.symm.trans hlive
  exact .refl id _

/-- RUN: what any earlier live registry knew is known at the end. -/
theorem knows_of_run {start : ControllerService}
    {tr : List (ControllerService × ControllerAction × ControllerOutput)}
    (hrun : Run ControllerService.step start tr s) (hstr : start.registry = none)
    (hkps : ∀ e ∈ tr, e.2.1.Keeps id e.1) :
    NotBehind id s ∧ ∀ e ∈ tr, ∀ old, e.1.registry = some old → Knows id old.state.entries s := by
  induction hrun with
  | nil =>
    refine ⟨fun reg hreg => ?_, by simp⟩
    rw [hstr] at hreg
    cases hreg
  | @snoc tr m t a o _ hst ih =>
    obtain ⟨hbeh, hkno⟩ := ih fun e he => hkps e (mem_append_left _ he)
    have hlast := hkps (m, a, o) (mem_append_right _ mem_cons_self)
    refine ⟨hbeh.step hlast hst, fun e he old hold => ?_⟩
    rcases mem_append.mp he with he | he
    · exact (hkno e he old hold).step hbeh hlast hst
    · rw [mem_singleton.mp he] at hold
      exact (hbeh.knows hold).step hbeh hlast hst

/-! ### What is active -/

theorem length_activeBindings (reg : Registry) :
    reg.activeBindings.length = activeBindingCount reg.state.entries := by
  rw [Registry.activeBindings, length_filterMap_eq_countP, activeBindingCount,
    countP_eq_length_filter]

theorem activeBindings_apart (h : reg.state.Valid reg.allowlist reg.maximumActiveBindings)
    {first second : ControllerBinding} (hfst : first ∈ reg.activeBindings)
    (hsnd : second ∈ reg.activeBindings) (hne : first.controllerId ≠ second.controllerId) :
    targetsConflict first.target second.target = false := by
  obtain ⟨left, hleft, hlef⟩ := mem_filterMap.mp hfst
  obtain ⟨right, hrig, hrgh⟩ := mem_filterMap.mp hsnd
  obtain ⟨_, _, hlft⟩ := (h.entryOk left hleft).certificate
  obtain ⟨_, _, hrik⟩ := (h.entryOk right hrig).certificate
  refine h.apart left hleft right hrig ?_ first hlef second hrgh
  rwa [← (hlft first hlef).1, ← (hrik second hrgh).1]

/-- RUN: over any run from a service that is down, with any file, whose reloads keep the pair of a
    controller: between two live registries its generation does not decrease and no generation that
    was retired or superseded is active again, no more bindings are active than allowed, and those of
    different controllers share no generation, container or process. -/
theorem sessions_never_replayed (id : Text) {start s : ControllerService}
    {tr : List (ControllerService × ControllerAction × ControllerOutput)}
    (hrun : Run ControllerService.step start tr s) (hstart : start.registry = none)
    (hkeeps : ∀ e ∈ tr, e.2.1.Keeps id e.1) :
    (∀ e ∈ tr, ∀ old new entry, e.1.registry = some old → s.registry = some new →
      lookupKey id old.state.entries = some entry → ∃ entry',
        lookupKey id new.state.entries = some entry' ∧
        entry.sessionGeneration ≤ entry'.sessionGeneration ∧
        ∀ generation, (generation < entry.sessionGeneration ∨
          generation = entry.sessionGeneration ∧ entry.binding = none) →
          ∀ binding ∈ new.activeBindings, binding.controllerId = id →
            binding.sessionGeneration ≠ generation) ∧
    ∀ live, s.registry = some live → live.activeBindings.length ≤ live.maximumActiveBindings ∧
      ∀ first ∈ live.activeBindings, ∀ second ∈ live.activeBindings,
        first.controllerId ≠ second.controllerId →
        first.target.generation ≠ second.target.generation ∧
        first.target.containerId ≠ second.target.containerId ∧
        (first.target.processId, first.target.processStartTicks, first.target.bootId,
          first.target.cgroup) ≠ (second.target.processId, second.target.processStartTicks,
          second.target.bootId, second.target.cgroup) := by
  obtain ⟨hbeh, hkno⟩ := knows_of_run hrun hstart hkeeps
  refine ⟨fun e he old new entry hold hnew hen => ?_, fun live hlive => ?_⟩
  · have hevo := (hkno e he old hold).live new hnew
    have hval := (hbeh new hnew).1
    obtain ⟨entry', hen', hle, -⟩ := hevo entry hen
    refine ⟨entry', hen', hle, fun generation hover binding hbin hid => ?_⟩
    obtain ⟨found, hfd, hact⟩ := mem_filterMap.mp hbin
    obtain ⟨_, _, hok⟩ := (hval.entryOk found hfd).certificate
    obtain ⟨hkey, -, hgen⟩ := hok binding hact
    have hlk := (lookupKey_eq_some hval.ordered).mpr hfd
    rw [← hkey, hid] at hlk
    cases hen'.symm.trans hlk
    rw [hgen]
    exact hevo.ended hen hen' hover (by simp [hact])
  · have hval := (hbeh live hlive).1
    refine ⟨length_activeBindings live ▸ hval.active, fun first hfst second hsnd hne => ?_⟩
    have hapa := activeBindings_apart hval hfst hsnd hne
    simp only [targetsConflict, decide_eq_false_iff_not, not_or] at hapa
    refine ⟨hapa.1, hapa.2.1, fun hsame => hapa.2.2 ?_⟩
    simpa using hsame

theorem generation_bounds_two : 0 < 2 ∧ 2 < u64Bound := by decide

theorem generation_bounds_three : 0 < 3 ∧ 3 < u64Bound := by decide

/-- The session of a later generation. -/
def laterSession (generation : ℕ) (h : 0 < generation ∧ generation < u64Bound) : ControllerBinding :=
  { firstSession _ shortCgroup_valid with
    sessionGeneration := generation
    generation_bounds := h }

/-- A session is superseded and the next one retired; after a reload and a restart a third starts. -/
def threeSessions : List ControllerAction :=
  [.restart oneController 1 none none, .apply (firstSession _ shortCgroup_valid) 1 none,
    .apply (laterSession 2 generation_bounds_two) 2 none, .retire (replicate 32 48) 2 3 none,
    .reload oneController none, .restart oneController 1 none none,
    .apply (laterSession 3 generation_bounds_three) 5 none]

/-- Of the three, the third is active and the first two are not. -/
theorem sessions_never_replayed_three_sessions : ∃ tr s live, Run ControllerService.step
    ⟨none, 1, none⟩ tr s ∧ s.registry = some live ∧ live.activeBindings.length = 1 ∧
    ∀ binding ∈ live.activeBindings, binding.controllerId = replicate 32 48 →
      binding.sessionGeneration ≠ 1 ∧ binding.sessionGeneration ≠ 2 := by
  obtain ⟨tr, s, hrun, hlab, hal, hent, hact⟩ := Run.exists_labelled_of_exec ControllerService.step
    ⟨none, 1, none⟩ threeSessions (fun tr s =>
      (tr.all fun e => e.1.registry.all (·.allowlist.controllers = oneController.controllers)) ∧
      (tr.any fun e => e.1.registry.any fun old =>
        lookupKey (replicate 32 48) old.state.entries = some ⟨2, none⟩) ∧
      s.registry.any (·.activeBindings.length = 1)) (by decide +kernel)
  simp only [all_eq_true, Option.all_eq_true, any_eq_true, Option.any_eq_true,
    decide_eq_true_eq] at hal hent hact
  obtain ⟨e, he, old, hold, hen⟩ := hent
  obtain ⟨live, hlive, hone⟩ := hact
  obtain ⟨hpast, -⟩ := sessions_never_replayed (replicate 32 48) hrun rfl (by
    intro e he al flt hrel registry hreg certificate hcert
    have hmem : e.2.1 ∈ threeSessions := hlab ▸ mem_map_of_mem he
    simp only [hrel, threeSessions, mem_cons, reduceCtorEq, false_or, not_mem_nil, or_false,
      ControllerAction.reload.injEq] at hmem
    rw [ControllerAllowlist.authorizes, hmem.1, ← hal e he registry hreg]
    exact hcert)
  obtain ⟨_, -, -, hgone⟩ := hpast e he old live _ hold hlive hen
  exact ⟨tr, s, live, hrun, hlive, hone, fun binding hbin hid =>
    ⟨hgone 1 (.inl (by decide)) binding hbin hid, hgone 2 (.inr ⟨rfl, rfl⟩) binding hbin hid⟩⟩

end LetsInfer.Watchdog
