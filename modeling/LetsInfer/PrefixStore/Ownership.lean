import LetsInfer.PrefixStore.Bookkeeping

/-! @src cache/letsinfer_prefix_store/src/store.rs | name:Who holds a reservation | scheme:ownership

    A reserved key hash belongs to exactly one capture, from its reservation until its commit is
    indexed or its reservation given back, whichever of `begin_capture`, the writer, the queue and
    the writer thread has it in hand. -/

namespace LetsInfer.PrefixStore
open Schemes

/-- The capture holds a reservation of the key hash. -/
def Holder (s : Sys) (n : ℕ) (hash : UInt64) : Prop :=
  ∃ c, s.captures.lookup n = some c ∧ c.stage.standing.holds ∧ c.header.keyHash = hash

/-- Reservations and their owners. -/
structure Owned (s : Sys) : Prop where
  keyed : s.index.Keyed
  numbered : ∀ n c, s.captures.lookup n = some c → n < s.next
  jobs : ∀ n c job, s.captures.lookup n = some c → c.stage.job = some job → job.For c.header
  hashes : ∀ hash, hash ∈ s.index.reservedHashes ↔ ∃ n, Holder s n hash
  owner : ∀ n m hash, Holder s n hash → Holder s m hash → n = m

theorem Owned.of_idle {s : Sys} (hkey : s.index.Keyed) (hres : s.index.reservedHashes = ∅)
    (hcap : s.captures = ∅) : Owned s := by
  have hhdr : ∀ n hash, ¬Holder s n hash := by
    rintro n hash ⟨c, hc, -⟩
    simp [hcap] at hc
  exact ⟨hkey, by simp [hcap], by simp [hcap], by simp [hres, hhdr],
    fun n m hash hn => absurd hn (hhdr n hash)⟩

section Holders

variable {cfg : StoreConfig} {s t : Sys} {a : Label} {n m : ℕ} {c c' : Capture}
  {hash : UInt64}

theorem holder_congr (h : t.captures = s.captures) : Holder t m hash ↔ Holder s m hash := by
  rw [Holder, Holder, h]

theorem holder_insert (h : t.captures = s.captures.insert n c') :
    Holder t m hash ↔ if m = n then c'.stage.standing.holds ∧ c'.header.keyHash = hash
      else Holder s m hash := by
  rw [Holder, h]
  split_ifs with hm
  · subst hm
    simp
  · simp only [Table.lookup_insert_ite, if_neg hm, Holder]

theorem holder_staged (hc : s.captures.lookup n = some c) (h : t.captures = s.captures.insert n c')
    (hhdr : c'.header = c.header) (hhd : c'.stage.standing.holds = c.stage.standing.holds) :
    Holder t m hash ↔ Holder s m hash := by
  rw [holder_insert h]
  split_ifs with hm
  · subst hm
    simp [Holder, hc, hhdr, hhd]
  · rfl

theorem holder_released (h : t.captures = s.captures.insert n c')
    (hhd : c'.stage.standing.holds = false) : Holder t m hash ↔ m ≠ n ∧ Holder s m hash := by
  rw [holder_insert h]
  split_ifs with hm
  · simp [hhd, hm]
  · simp [hm]

theorem holder_of_lookup (hc : s.captures.lookup n = some c) (hhd : c.stage.standing.holds) :
    Holder s n c.header.keyHash :=
  ⟨c, hc, hhd, rfl⟩

theorem not_holder (hc : s.captures.lookup n = some c) (hhd : c.stage.standing.holds = false) :
    ¬Holder s n hash := by
  rintro ⟨d, hd, hhdr, -⟩
  rw [hc] at hd
  cases hd
  simp [hhd] at hhdr

/-! ### One shift -/

namespace Owned

section

variable (h : Owned s)
include h

/-- Owners and reserved hashes as they were. -/
theorem of_holders (hkey : t.index.Keyed) (hrsv : t.index.reservedHashes = s.index.reservedHashes)
    (hhdr : ∀ n hash, Holder t n hash ↔ Holder s n hash)
    (hnum : ∀ n c, t.captures.lookup n = some c → n < t.next)
    (hjobs : ∀ n c job, t.captures.lookup n = some c → c.stage.job = some job →
      job.For c.header) : Owned t where
  keyed := hkey
  numbered := hnum
  jobs := hjobs
  hashes hash := by simp only [hrsv, hhdr]; exact h.hashes hash
  owner n m hash := by simp only [hhdr]; exact h.owner n m hash

/-- The captures as they were. -/
theorem of_captures (hkey : t.index.Keyed) (hrsv : t.index.reservedHashes = s.index.reservedHashes)
    (hcap : t.captures = s.captures) (hnx : s.next ≤ t.next) : Owned t := by
  refine h.of_holders hkey hrsv (fun _ _ => holder_congr hcap) ?_ ?_
  · rw [hcap]
    exact fun n c hc => (h.numbered n c hc).trans_le hnx
  · rw [hcap]
    exact h.jobs

theorem numbered_insert (hc : s.captures.lookup n = some c)
    (hcap : t.captures = s.captures.insert n c') (hnx : t.next = s.next) :
    ∀ m d, t.captures.lookup m = some d → m < t.next := by
  intro m d hd
  rw [hcap, Table.lookup_insert_ite] at hd
  rw [hnx]
  split_ifs at hd with hm
  · exact hm ▸ h.numbered n c hc
  · exact h.numbered m d hd

theorem jobs_insert (hcap : t.captures = s.captures.insert n c')
    (hjob : ∀ job, c'.stage.job = some job → job.For c'.header) :
    ∀ m d job, t.captures.lookup m = some d → d.stage.job = some job → job.For d.header := by
  intro m d job hd hdjob
  rcases Table.insert_cases hcap hd with ⟨-, rfl⟩ | ⟨-, hd⟩
  · exact hjob job hdjob
  · exact h.jobs m d job hd hdjob

/-- The reservation of one capture is given up, its hash with it. -/
theorem of_released (hc : s.captures.lookup n = some c)
    (hhd : c.stage.standing.holds) (hkey : t.index.Keyed)
    (hrsv : t.index.reservedHashes = s.index.reservedHashes.erase c.header.keyHash)
    (hcap : t.captures = s.captures.insert n c') (hdone : c'.stage.standing = .done)
    (hjob : c'.stage.job = none) (hnx : t.next = s.next) : Owned t := by
  have hhdr : ∀ m hash, Holder t m hash ↔ m ≠ n ∧ Holder s m hash :=
    fun m hash => holder_released hcap (by rw [hdone]; rfl)
  have hself : Holder s n c.header.keyHash := holder_of_lookup hc hhd
  refine ⟨hkey, h.numbered_insert hc hcap hnx, ?_, ?_, ?_⟩
  · exact h.jobs_insert hcap (by simp [hjob])
  · intro hash
    rw [hrsv, Finset.mem_erase, h.hashes]
    simp only [hhdr]
    constructor
    · rintro ⟨hne, m, hm⟩
      refine ⟨m, ?_, hm⟩
      rintro rfl
      obtain ⟨d, hd, -, rfl⟩ := hm
      rw [hc] at hd
      cases hd
      exact hne rfl
    · rintro ⟨m, hne, hm⟩
      refine ⟨?_, m, hm⟩
      rintro rfl
      exact hne (h.owner m n _ hm hself)
  · intro m k hash hm hk
    rw [hhdr] at hm hk
    exact h.owner m k hash hm.2 hk.2

end

theorem job_of_done {sg : CaptureStage} (h : sg.standing = .done) : sg.job = none := by
  cases sg with
  | sweeping sweep exh => rfl
  | refused why => rfl
  | queued job => cases h
  | committing job sg => cases h
  | _ => rfl

/-- STEP: every shift keeps the owners. -/
theorem shift (h : Owned s) (hshf : Shift cfg s t a) : Owned t := by
  cases hshf with
  | same hidx hcap _ hnx =>
    exact h.of_captures (hidx ▸ h.keyed) (by rw [hidx]) hcap hnx
  | @opened _ c hc _ _ hidx hcap _ hnx =>
    -- The number is new, so no capture is replaced.
    have hno : ∀ hash, ¬Holder s s.next hash := by
      rintro hash ⟨d, hd, -, -⟩
      exact lt_irrefl _ (h.numbered _ d hd)
    refine h.of_holders (hidx ▸ h.keyed) (by rw [hidx]) ?_ ?_ ?_
    · intro m hash
      rw [holder_insert hcap]
      split_ifs with hm
      · simp [hc, CaptureStage.standing, Standing.holds, hm, hno]
      · rfl
    · intro m d hd
      rw [hcap, Table.lookup_insert_ite] at hd
      rw [hnx]
      split_ifs at hd with hm
      · omega
      · exact (h.numbered m d hd).trans_le (Nat.le_succ _)
    · exact h.jobs_insert hcap (by simp [hc, CaptureStage.job])
  | @staged _ n c sg hc hstd hjob hidx hcap _ hnx =>
    have hhd : sg.standing.holds = c.stage.standing.holds := by
      rcases hstd with heq | ⟨hbef, hdone⟩
      · rw [heq]
      · rw [hbef, hdone]
        rfl
    refine h.of_holders (hidx ▸ h.keyed) (by rw [hidx]) (fun _ _ => holder_staged hc hcap rfl hhd)
      (h.numbered_insert hc hcap hnx) (h.jobs_insert hcap ?_)
    intro job hsg
    exact (hjob job hsg).elim (h.jobs n c job hc) id
  | @closed _ n c hc hsg hidx hcap _ hnx =>
    refine h.of_holders (hidx ▸ h.keyed) (by rw [hidx]) ?_ ?_ ?_
    · intro m hash
      by_cases hm : m = n
      · subst hm
        refine iff_of_false ?_ (not_holder hc (by rw [hsg]; rfl))
        simp [Holder, hcap]
      · simp [Holder, hcap, hm]
    · intro m d hd
      exact hnx ▸ h.numbered m d (Table.lookup_of_erase (hcap ▸ hd))
    · intro m d job hd
      exact h.jobs m d job (Table.lookup_of_erase (hcap ▸ hd))
  | @reserve n c hc hsg hnew hidx hcap _ hnx =>
    have hfree : ∀ m, ¬Holder s m c.header.keyHash := fun m hm => hnew ((h.hashes _).mpr ⟨m, hm⟩)
    have hidle : ∀ hash, ¬Holder s n hash := fun _ => not_holder hc (by rw [hsg]; rfl)
    have hhdr : ∀ m hash, Holder t m hash ↔ m = n ∧ c.header.keyHash = hash ∨ Holder s m hash := by
      intro m hash
      rw [holder_insert hcap]
      split_ifs with hm
      · simp [CaptureStage.standing, Standing.holds, hm, hidle]
      · simp [hm]
    refine ⟨hidx ▸ h.keyed, h.numbered_insert hc hcap hnx,
      h.jobs_insert hcap (by simp [CaptureStage.job]), ?_, ?_⟩
    · intro hash
      rw [hidx, IndexState.reserve, Finset.mem_insert, h.hashes]
      simp only [hhdr]
      constructor
      · rintro (rfl | ⟨m, hm⟩)
        · exact ⟨n, .inl ⟨rfl, rfl⟩⟩
        · exact ⟨m, .inr hm⟩
      · rintro ⟨m, ⟨-, rfl⟩ | hm⟩
        · exact .inl rfl
        · exact .inr ⟨m, hm⟩
    · intro m k hash hm hk
      rw [hhdr] at hm hk
      rcases hm with ⟨rfl, rfl⟩ | hm
      · rcases hk with ⟨rfl, -⟩ | hk
        · rfl
        · exact absurd hk (hfree k)
      · rcases hk with ⟨rfl, rfl⟩ | hk
        · exact absurd hm (hfree m)
        · exact h.owner m k hash hm hk
  | @enforce n c vs exh hc hsg hidx hcap _ hnx =>
    obtain ⟨gone, hgone, -⟩ := IndexState.enforce_evicts h.keyed le_rfl hidx
    refine h.of_holders (hgone.keyed h.keyed) ?_ ?_ (h.numbered_insert hc hcap hnx)
      (h.jobs_insert hcap (by simp [CaptureStage.job]))
    · rw [hgone.result]
      exact (IndexState.reserved_removeAll _ _).2
    · intro m hash
      refine holder_staged hc hcap rfl ?_
      rw [hsg]
      cases exh <;> rfl
  | @release _ n c hc hsg hidx hcap _ hnx =>
    refine h.of_released hc ?_ ?_ ?_ hcap rfl rfl hnx
    · rcases hsg with hsg | hsg <;> simp [hsg, Standing.holds]
    · rcases hidx with hidx | hidx <;> exact hidx ▸ h.keyed
    · rcases hidx with hidx | hidx <;> rw [hidx] <;> rfl
  | @publish n c job now sg hc hsg hjob hidx hdone hcap _ hnx =>
    refine h.of_released hc ?_ ?_ ?_ hcap hdone (job_of_done hdone) hnx
    · simp [hsg, Standing.holds]
    · exact hidx ▸ h.keyed.publish _
    · rw [hidx, IndexState.reservedHashes_publish, ← (h.jobs n c job hc hjob).1]
      rfl
  | reclaim hidx hcap _ hnx =>
    obtain ⟨gone, hgone, -⟩ := IndexState.reclaim_evicts h.keyed hidx
    refine h.of_captures (hgone.keyed h.keyed) ?_ hcap hnx
    rw [hgone.result]
    exact (IndexState.reserved_removeAll _ _).2
  | evict _ hidx hcap _ hnx =>
    obtain ⟨gone, hgone, -⟩ := IndexState.evictForIntegrity_evicts hidx
    refine h.of_captures (hgone.keyed h.keyed) ?_ hcap hnx.ge
    rw [hgone.result]
    exact (IndexState.reserved_removeAll _ _).2
  | touch _ hidx hcap _ hnx | drop _ hidx hcap _ hnx =>
    exact h.of_captures (hidx ▸ h.keyed.update fun _ => rfl) (by rw [hidx]; rfl) hcap hnx.ge
  | hit hfd _ hcap _ hnx =>
    obtain ⟨-, hidx⟩ := IndexState.longestPrefix_eq_some hfd
    exact h.of_captures (hidx ▸ h.keyed.update fun _ => rfl) (by rw [hidx]; rfl) hcap (by omega)

end Owned

end Holders

end LetsInfer.PrefixStore
