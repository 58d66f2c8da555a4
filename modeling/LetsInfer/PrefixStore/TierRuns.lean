import LetsInfer.Schemes.Runs
import LetsInfer.PrefixStore.RamTier

/-! @src cache/letsinfer_prefix_store/src/ram_tier.rs | name:Resident tier runs | scheme:cache

    The tier under any number of callers. A section under its lock is one step, and loaders run
    between the steps. A call that waits takes the turn of a new one when it wakes. A step answers
    with the path it made the most recently used. -/

namespace LetsInfer.PrefixStore
open Schemes List Finmap

/-- What a call that goes through the tier loads. -/
@[ext] structure LoadRequest (capacity : ℕ) where
  path : Path
  expectedBytes : ℕ
  fits : expectedBytes ≤ capacity

instance {capacity : ℕ} : DecidableEq (LoadRequest capacity) := fun _ _ =>
  decidable_of_iff _ LoadRequest.ext_iff.symm

/-- The tier and the loaders that run: elected for a path, or past the tier. -/
structure TierSys (capacity : ℕ) where
  tier : TierState := {}
  elected : Multiset (LoadRequest capacity) := 0
  passing : Multiset Path := 0

inductive TierAct (capacity : ℕ) where
  | load (path : Path) (expectedBytes : ℕ)
  /-- An elected loader is back, with a blob or an error. -/
  | loaded (request : LoadRequest capacity) (outcome : Option Blob)
  /-- A loader past the tier is back. -/
  | passed (path : Path)
  | promote (path : Path) (blob : Blob)
  | invalidate (path : Path)

variable {capacity : ℕ}

theorem fits_of_not_passing {bytes : ℕ} (h : ¬(capacity = 0 ∨ capacity < bytes)) :
    bytes ≤ capacity := Nat.not_lt.mp (not_or.mp h).2

def TierSys.step (s : TierSys capacity) :
    TierAct capacity → Option (TierSys capacity × Option Path)
  | .load path expectedBytes =>
    if h : capacity = 0 ∨ capacity < expectedBytes then
      some ({ s with passing := path ::ₘ s.passing }, none)
    else
      match s.tier.elect path with
      | (.resident _, tier) => some ({ s with tier }, some path)
      | (.elected, tier) =>
        let request := ⟨path, expectedBytes, fits_of_not_passing h⟩
        some ({ s with tier, elected := request ::ₘ s.elected }, none)
      | (.busy, tier) => some ({ s with tier }, none)
  | .loaded request outcome =>
    if request ∈ s.elected then
      -- `validate_size`
      let loaded := outcome.filter (·.length = request.expectedBytes)
      some ({ s with
        tier := s.tier.settle capacity request.path loaded
        elected := s.elected.erase request }, loaded.map fun _ => request.path)
    else none
  | .passed path =>
    if path ∈ s.passing then some ({ s with passing := s.passing.erase path }, none) else none
  | .promote path blob =>
    some ({ s with tier := s.tier.promote capacity path blob },
      if capacity = 0 ∨ capacity < blob.length then none else some path)
  | .invalidate path => some ({ s with tier := s.tier.invalidate path }, none)

/-- No subtraction of `makeRoom` goes below zero. -/
def makeRoomSafe (capacity incoming : ℕ) : List Path → Table Path Blob → ℕ → Prop
  | [], _, _ => True
  | victim :: lru, entries, usedBytes =>
    usedBytes + incoming ≤ capacity ∨
      match entries.lookup victim with
      | none => makeRoomSafe capacity incoming lru entries usedBytes
      | some removed => removed.length ≤ usedBytes ∧
        makeRoomSafe capacity incoming lru (entries.erase victim) (usedBytes - removed.length)

/-! ### The order, the entries and the bytes -/

/-- The order lists each entry once and nothing else; the bytes are those of the entries and
    within the capacity. -/
structure Tidy (cap : ℕ) (lru : List Path) (es : Table Path Blob) (u : ℕ) : Prop where
  once : lru.Nodup
  keys : ∀ path, path ∈ lru ↔ path ∈ es
  used : u = es.total fun _ blob => blob.length
  within : u ≤ cap

/-- How a step leaves the order: a used path goes last, and what goes is at the front. -/
inductive Turned (lru : List Path) : TierAct capacity → Option Path → List Path → Prop
  | keep (act : TierAct capacity) : Turned lru act none lru
  | drop (path : Path) : Turned lru (.invalidate path) none (lru.erase path)
  | use (act : TierAct capacity) (path : Path) (rest : List Path) :
    rest <:+ lru.erase path → Turned lru act (some path) (rest ++ [path])

/-- No `x` stands before a `y`: `y` goes first. -/
def Behind (x y : Path) (lru : List Path) : Prop := lru.Pairwise fun a b => ¬(a = x ∧ b = y)

section Order

variable {lru new : List Path} {act : TierAct capacity} {o : Option Path} {x y : Path}

/-- STEP: while `y` is not used it stays in front of `x`. -/
theorem Turned.behind (h : Turned lru act o new) (hy : o ≠ some y) (hxy : Behind x y lru) :
    Behind x y new := by
  cases h with
  | keep => exact hxy
  | drop p => exact hxy.sublist erase_sublist
  | use _ p rest hsuf =>
    have hrest := hxy.sublist (hsuf.sublist.trans erase_sublist)
    refine pairwise_append.mpr ⟨hrest, pairwise_singleton _ _, fun _ _ b hb hab => hy ?_⟩
    rw [← hab.2, List.mem_singleton.mp hb]

/-- A step that uses `x` leaves it behind every other path. -/
theorem Turned.behind_used (h : Turned lru act (some x) new) (hone : lru.Nodup) :
    Behind x y new := by
  cases h with
  | use _ _ rest hsuf =>
    have hnot : ∀ a ∈ rest, ∀ b, ¬(a = x ∧ b = y) := fun a ha b hab =>
      hone.not_mem_erase (hsuf.subset (hab.1 ▸ ha))
    refine pairwise_append.mpr ⟨?_, pairwise_singleton _ _, fun a ha b _ => hnot a ha b⟩
    exact pairwise_of_forall_mem_list fun a ha b _ => hnot a ha b

/-- STEP: when `x` is evicted, what stood in front of it is gone. -/
theorem Turned.evicts (h : Turned lru act o new) (hxy : Behind x y lru) (hact : act ≠ .invalidate x)
    (hy : o ≠ some y) (hx : x ∈ lru) (hgone : x ∉ new) : y ∉ new := by
  cases h with
  | keep => exact absurd hx hgone
  | drop p =>
    refine absurd ((mem_erase_of_ne ?_).mpr hx) hgone
    exact fun hxp => hact (congrArg _ hxp.symm)
  | use _ p rest hsuf =>
    rw [mem_append, List.mem_singleton, not_or] at hgone
    have hin := (mem_erase_of_ne hgone.2).mpr hx
    have hfront : Behind x y (lru.erase p) := hxy.sublist erase_sublist
    obtain ⟨gone, hsplit⟩ := hsuf
    rw [← hsplit] at hin hfront
    have hxg := (mem_append.mp hin).resolve_right hgone.1
    intro hmem
    rcases mem_append.mp hmem with hyr | hyp
    · exact (pairwise_append.mp hfront).2.2 x hxg y hyr ⟨rfl, rfl⟩
    · exact hy (congrArg some (List.mem_singleton.mp hyp).symm)

end Order

section Tidy

variable {cap incoming u : ℕ} {lru : List Path} {es : Table Path Blob} {p : Path} {b : Blob}
  {tier : TierState}

theorem Tidy.length_le (h : Tidy cap lru es u) (hp : es.lookup p = some b) : b.length ≤ u := by
  rw [h.used]
  exact Table.le_total (fun _ (blob : Blob) => blob.length) hp

theorem Tidy.erase (h : Tidy cap lru es u) (hp : es.lookup p = some b) :
    Tidy cap (lru.erase p) (es.erase p) (u - b.length) := by
  refine ⟨h.once.erase p, fun q => ?_, ?_, (Nat.sub_le _ _).trans h.within⟩
  · rw [h.once.mem_erase_iff, mem_erase, h.keys]
  · rw [h.used, Table.total_erase _ hp, Nat.add_sub_cancel_left]

theorem Tidy.push (h : Tidy cap lru es u) (hp : p ∉ lru) (hroom : u + b.length ≤ cap) :
    Tidy cap (lru ++ [p]) (es.insert p b) (u + b.length) := by
  refine ⟨?_, fun q => ?_, ?_, hroom⟩
  · exact (perm_append_singleton p lru).nodup_iff.mpr (nodup_cons.mpr ⟨hp, h.once⟩)
  · rw [mem_append, List.mem_singleton, mem_insert, h.keys, or_comm]
  · rw [Table.total_insert _ b (mt (h.keys p).mpr hp), h.used, Nat.add_comm]

theorem Tidy.touch (h : Tidy cap lru es u) (hp : p ∈ es) : Tidy cap (touchLru lru p) es u := by
  have hperm : (touchLru lru p).Perm lru :=
    (perm_append_singleton p (lru.erase p)).trans (perm_cons_erase ((h.keys p).mpr hp)).symm
  exact ⟨hperm.nodup_iff.mpr h.once, fun q => hperm.mem_iff.trans (h.keys q), h.used, h.within⟩

/-- RUN: the eviction loop keeps the order tidy, ends with room and subtracts nothing below zero. -/
theorem Tidy.makeRoom (h : Tidy cap lru es u) (hfit : incoming ≤ cap) :
    makeRoomSafe cap incoming lru es u ∧
    ∃ lru' es' u', PrefixStore.makeRoom cap incoming lru es u = (lru', es', u') ∧
      Tidy cap lru' es' u' ∧ u' + incoming ≤ cap ∧ lru' <:+ lru := by
  induction lru generalizing es u with
  | nil =>
    refine ⟨trivial, [], es, u, rfl, h, ?_, suffix_refl _⟩
    have hemp : es = ∅ := ext_lookup fun q => by
      have : q ∉ es := fun hq => not_mem_nil ((h.keys q).mpr hq)
      rw [lookup_eq_none.mpr this, lookup_empty]
    rw [h.used, hemp, Table.total_empty]
    omega
  | cons v lru ih =>
    rw [makeRoomSafe, PrefixStore.makeRoom]
    split_ifs with hroom
    · exact ⟨.inl hroom, v :: lru, es, u, rfl, h, hroom, suffix_refl _⟩
    · obtain ⟨b, hb⟩ := Finmap.mem_iff.mp ((h.keys v).mp mem_cons_self)
      have hrest := h.erase hb
      rw [erase_cons_head] at hrest
      obtain ⟨hsafe, lru', es', u', heq, hti, hlef, hsuf⟩ := ih hrest
      rw [hb]
      exact ⟨.inr ⟨h.length_le hb, hsafe⟩, lru', es', u', heq, hti, hlef,
        hsuf.trans (suffix_cons v lru)⟩

/-- What holds of the tier. -/
def TierState.Kept (cap : ℕ) (tier : TierState) : Prop :=
  Tidy cap tier.lru tier.entries tier.usedBytes

theorem TierState.Kept.invalidate (h : tier.Kept cap) (p : Path) :
    (tier.invalidate p).Kept cap ∧ (tier.invalidate p).lru = tier.lru.erase p := by
  unfold TierState.invalidate
  split
  · rename_i hno
    have hnot : p ∉ tier.lru := mt (h.keys p).mp (lookup_eq_none.mp hno)
    exact ⟨h, (erase_of_not_mem hnot).symm⟩
  · rename_i b hb
    exact ⟨h.erase hb, rfl⟩

theorem TierState.Kept.insert (h : tier.Kept cap) (act : TierAct capacity) (p : Path)
    (hb : b.length ≤ cap) : (tier.insert cap p b).Kept cap ∧
      Turned tier.lru act (some p) (tier.insert cap p b).lru := by
  obtain ⟨hinv, hlru⟩ := h.invalidate p
  obtain ⟨-, lru, es, u, heq, hti, hroom, hsuf⟩ := hinv.makeRoom hb
  rw [hlru] at hsuf
  have hnot : p ∉ lru := fun hm => h.once.not_mem_erase (hsuf.subset hm)
  rw [TierState.insert]
  simp only [heq]
  exact ⟨hti.push hnot hroom, .use act p lru hsuf⟩

end Tidy

/-! ### Runs -/

/-- What holds of the tier and its callers: the paths marked as loading are those an elected loader
    runs for, one each. -/
structure TierSys.Ok (s : TierSys capacity) : Prop where
  kept : s.tier.Kept capacity
  single : s.elected.map LoadRequest.path = s.tier.loading.val

section Runs

variable {s t : TierSys capacity} {act : TierAct capacity} {o : Option Path}
  {tr : List (TierSys capacity × TierAct capacity × Option Path)}

theorem init_ok : TierSys.Ok ({} : TierSys capacity) where
  kept := ⟨nodup_nil, by simp [notMem_empty], rfl, Nat.zero_le _⟩
  single := rfl

@[simp] theorem loading_invalidate (tier : TierState) (p : Path) :
    (tier.invalidate p).loading = tier.loading := by
  unfold TierState.invalidate
  split <;> rfl

@[simp] theorem loading_insert (tier : TierState) (cap : ℕ) (p : Path) (b : Blob) :
    (tier.insert cap p b).loading = tier.loading := by
  simp [TierState.insert]

/-- STEP: what holds of the tier and its callers is kept. -/
theorem step_ok (h : s.Ok) (hst : s.step act = some (t, o)) :
    t.Ok ∧ Turned s.tier.lru act o t.tier.lru := by
  cases act with
  | load p bytes =>
    rw [TierSys.step] at hst
    split at hst
    · cases hst
      exact ⟨⟨h.kept, h.single⟩, .keep _⟩
    rw [TierState.elect] at hst
    cases hl : s.tier.entries.lookup p with
    | some b =>
      rw [hl] at hst
      cases hst
      have hkept := h.kept.touch (Finmap.mem_iff.mpr ⟨b, hl⟩)
      exact ⟨⟨hkept, h.single⟩, .use _ p _ (suffix_refl _)⟩
    | none =>
      by_cases hp : p ∈ s.tier.loading
      · simp only [hl, hp, if_true] at hst
        cases hst
        exact ⟨h, .keep _⟩
      · simp only [hl, hp, if_false] at hst
        cases hst
        refine ⟨⟨h.kept, ?_⟩, .keep _⟩
        rw [Multiset.map_cons, h.single, Finset.insert_val_of_notMem hp]
  | loaded r out =>
    rw [TierSys.step] at hst
    split_ifs at hst with hr
    have hone : (s.elected.erase r).map LoadRequest.path = (s.tier.loading.erase r.path).val := by
      rw [Multiset.map_erase_of_mem _ _ hr, h.single, Finset.erase_val]
    cases hout : out.filter (·.length = r.expectedBytes) with
    | none =>
      simp only [hout] at hst
      cases hst
      exact ⟨⟨h.kept, hone⟩, .keep _⟩
    | some b =>
      have hlen : b.length = r.expectedBytes := by
        simpa using (Option.filter_eq_some_iff.mp hout).2
      have hk : TierState.Kept capacity { s.tier with loading := s.tier.loading.erase r.path } :=
        h.kept
      obtain ⟨hkept, hturn⟩ := hk.insert (.loaded r out) r.path (hlen.trans_le r.fits)
      simp only [hout] at hst
      cases hst
      exact ⟨⟨hkept, by simpa [TierState.settle] using hone⟩, hturn⟩
  | passed p =>
    rw [TierSys.step] at hst
    split_ifs at hst
    cases hst
    exact ⟨⟨h.kept, h.single⟩, .keep _⟩
  | promote p b =>
    rw [TierSys.step, TierState.promote] at hst
    split_ifs at hst with hpass
    · cases hst
      exact ⟨h, .keep _⟩
    · cases hst
      obtain ⟨hkept, hturn⟩ := h.kept.insert (.promote p b) p (fits_of_not_passing hpass)
      exact ⟨⟨hkept, by simpa using h.single⟩, hturn⟩
  | invalidate p =>
    cases hst
    obtain ⟨hkept, hlru⟩ := h.kept.invalidate p
    refine ⟨⟨hkept, by simpa using h.single⟩, ?_⟩
    simp only [hlru]
    exact .drop p

/-- RUN: what holds in every state of every run. -/
theorem ok_of_run (h : Run TierSys.step ({} : TierSys capacity) tr s) : s.Ok :=
  h.invariant _ init_ok fun _ _ _ _ hs hst => (step_ok hs hst).1

/-- RUN: as long as `y` is not used it stays in front of `x`. -/
theorem behind_run {m : TierSys capacity} {x y : Path} (h : Run TierSys.step m tr s) (hm : m.Ok)
    (hxy : Behind x y m.tier.lru) (hy : ∀ e ∈ tr, e.2.2 ≠ some y) :
    s.Ok ∧ Behind x y s.tier.lru := by
  induction h with
  | nil => exact ⟨hm, hxy⟩
  | @snoc tr s t act o _ hst ih =>
    obtain ⟨hs, hb⟩ := ih fun e he => hy e (mem_append_left _ he)
    obtain ⟨ht, hturn⟩ := step_ok hs hst
    exact ⟨ht, hturn.behind (hy (s, act, o) mem_concat_self) hb⟩

/-- In every state of every run the order lists each entry once, the bytes are those of the entries
    and within the capacity, an entry's bytes can be subtracted, an insertion of what fits evicts
    without a subtraction below zero until there is room, and the paths marked as loading are those
    with one elected loader. When a path is evicted, every path not used since it was is gone. -/
theorem resident_tier_invariant (h : Run TierSys.step ({} : TierSys capacity) tr s) :
    (s.tier.lru.Nodup ∧ ∀ path, path ∈ s.tier.lru ↔ path ∈ s.tier.entries) ∧
    s.tier.usedBytes = s.tier.entries.total (fun _ blob => blob.length) ∧
    s.tier.usedBytes ≤ capacity ∧
    (∀ path blob, s.tier.entries.lookup path = some blob → blob.length ≤ s.tier.usedBytes) ∧
    (∀ path (blob : Blob), blob.length ≤ capacity →
      let tier := s.tier.invalidate path
      makeRoomSafe capacity blob.length tier.lru tier.entries tier.usedBytes ∧
        (makeRoom capacity blob.length tier.lru tier.entries tier.usedBytes).2.2 + blob.length ≤
          capacity) ∧
    (∀ path, (s.elected.map LoadRequest.path).count path =
      if path ∈ s.tier.loading then 1 else 0) ∧
    ∀ before m act x since y, tr = before ++ (m, act, some x) :: since →
      (∀ e ∈ since, e.2.2 ≠ some y) → ∀ act t o, s.step act = some (t, o) → o ≠ some y →
      act ≠ .invalidate x → x ∈ s.tier.entries → x ∉ t.tier.entries → y ∉ t.tier.entries := by
  have hok := ok_of_run h
  refine ⟨⟨hok.kept.once, hok.kept.keys⟩, hok.kept.used, hok.kept.within,
    fun _ _ => hok.kept.length_le, fun path blob hfit => ?_,
    fun path => ?_, ?_⟩
  · obtain ⟨hsafe, lru, es, u, heq, -, hroom, -⟩ := (hok.kept.invalidate path).1.makeRoom hfit
    simp only [heq]
    exact ⟨hsafe, hroom⟩
  · rw [hok.single]
    exact Multiset.count_eq_of_nodup s.tier.loading.nodup
  · rintro before m act x since y rfl hy act' t o hst ho hact hx hgone
    obtain ⟨m', hbef, hrest⟩ := h.split
    obtain ⟨-, used, huse, hsin⟩ := hrest.uncons
    have hm := ok_of_run hbef
    obtain ⟨hused, hturn⟩ := step_ok hm huse
    have hxy := (behind_run hsin hused (hturn.behind_used hm.kept.once) hy).2
    obtain ⟨ht, hturn⟩ := step_ok hok hst
    rw [← ht.kept.keys] at hgone ⊢
    exact hturn.evicts hxy hact ho ((hok.kept.keys x).mpr hx) hgone

theorem resident_tier_invariant_touched : ∃ tr s,
    Run TierSys.step ({} : TierSys 2) tr s ∧ s.tier.lru = [.record 1, .record 0] ∧
      s.tier.usedBytes ≤ 2 := by
  have hrun : Run TierSys.step ({} : TierSys 2) _ _ :=
    ((Run.nil.snoc (a := .promote (.record 0) [0]) rfl).snoc
      (a := .promote (.record 1) [1]) rfl).snoc (a := .load (.record 0) 1) rfl
  exact ⟨_, _, hrun, rfl, (resident_tier_invariant hrun).2.2.1⟩

/-- Loads past the tier run at once for one path, and it is not marked. -/
theorem two_loaders_unmarked : ∃ tr s, Run TierSys.step ({} : TierSys 0) tr s ∧
    s.passing = {.record 0, .record 0} ∧ .record 0 ∉ s.tier.loading := by
  have hrun : Run TierSys.step ({} : TierSys 0) _ _ :=
    (Run.nil.snoc (a := .load (.record 0) 1) rfl).snoc (a := .load (.record 0) 1) rfl
  exact ⟨_, _, hrun, rfl, Finset.notMem_empty _⟩

end Runs

end LetsInfer.PrefixStore
