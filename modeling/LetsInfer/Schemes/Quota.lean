import LetsInfer.Schemes.Windows

/-! @scheme quota | name:A metered client | family:rate-limit

    A limiter meters one client: the requests and the completed work of a rolling window, the work
    in flight, and the work reserved for it. What the client really did is its history: when it was
    charged, what it completed, and what was already on record when the meter was set up. The meter
    is `Bounded` when it forgets nothing the window still holds and the history respects the
    configured ceilings. Each operation of a limiter keeps that; the checks a limiter makes are the
    hypotheses of the operation. -/

namespace Schemes

open Window

/-- Ceilings: in flight at once, charged per window, worked and reserved per window. -/
structure Ceilings where
  concurrency : Option ℕ
  rate : Option ℕ
  volume : Option ℕ

/-- What a limiter keeps for one client. -/
structure Meter where
  loaded : Bool := false
  requests : List ℕ := []
  tokens : List (ℕ × ℕ) := []
  active : ℕ := 0
  reserved : ℕ := 0

/-- What one client did: charges and completed work since the meter was set up, the work on record
    before that, and the latest time so far. -/
structure History where
  charges : List ℕ := []
  completions : List (ℕ × ℕ) := []
  base : List (ℕ × ℕ) := []
  now : ℕ := 0

/-- The work on record later than a cutoff. -/
def History.worked (h : History) (c : ℕ) : ℕ := load c h.base + load c h.completions

/-- The meter covers the history, and the history respects the ceilings. -/
structure Bounded (w : ℕ) (lim : Ceilings) (m : Meter) (h : History) : Prop where
  concurrency : ∀ l ∈ lim.concurrency, m.active ≤ l
  charges_past : ∀ c ∈ h.charges, c ≤ h.now
  charges_kept : (after id (h.now - w) h.charges).Sublist m.requests
  rate : ∀ l ∈ lim.rate, ∀ t, count w t h.charges ≤ l
  tokens_sorted : m.tokens.Pairwise fun a b => a.1 ≤ b.1
  tokens_past : ∀ e ∈ m.tokens, e.1 ≤ h.now
  unloaded : m.loaded = false →
    m.tokens = [] ∧ m.active = 0 ∧ m.reserved = 0 ∧ h.completions = []
  tokens_kept : m.loaded = true → ∀ c, h.now - w ≤ c → load c m.tokens = h.worked c
  volume : ∀ l ∈ lim.volume, h.worked (h.now - w) + m.reserved ≤ l

namespace Bounded

variable {w : ℕ} {lim : Ceilings} {m : Meter} {h : History}

theorem worked_anti {c d : ℕ} (hcd : c ≤ d) : h.worked d ≤ h.worked c :=
  Nat.add_le_add (load_anti hcd) (load_anti hcd)

/-- A new meter: whatever is on record must fit the volume. -/
theorem start {base : List (ℕ × ℕ)} {now : ℕ} (hbase : ∀ l ∈ lim.volume, load (now - w) base ≤ l) :
    Bounded w lim {} { base := base, now := now } where
  concurrency _ _ := Nat.zero_le _
  charges_past _ hc := by cases hc
  charges_kept := List.nil_sublist _
  rate _ _ _ := Nat.zero_le _
  tokens_sorted := .nil
  tokens_past _ he := by cases he
  unloaded _ := ⟨rfl, rfl, rfl, rfl⟩
  tokens_kept hl := by cases hl
  volume l hl := by simpa [History.worked] using hbase l hl

/-- Time passes. -/
theorem advance {now : ℕ} (hb : Bounded w lim m h) (hnow : h.now ≤ now) :
    Bounded w lim m { h with now := now } where
  concurrency := hb.concurrency
  charges_past c hc := (hb.charges_past c hc).trans hnow
  charges_kept := (after_anti (Nat.sub_le_sub_right hnow w)).trans hb.charges_kept
  rate := hb.rate
  tokens_sorted := hb.tokens_sorted
  tokens_past e he := (hb.tokens_past e he).trans hnow
  unloaded := hb.unloaded
  tokens_kept hl c hc := hb.tokens_kept hl c ((Nat.sub_le_sub_right hnow w).trans hc)
  volume l hl := by
    have hv := hb.volume l hl
    have hw : h.worked (now - w) ≤ h.worked (h.now - w) :=
      worked_anti (Nat.sub_le_sub_right hnow w)
    exact le_trans (Nat.add_le_add_right hw _) hv

/-- Work in flight ends without being charged. -/
theorem release {active reserved : ℕ} (hb : Bounded w lim m h) (ha : active ≤ m.active)
    (hr : reserved ≤ m.reserved) :
    Bounded w lim { m with active := active, reserved := reserved } h where
  concurrency l hl := ha.trans (hb.concurrency l hl)
  charges_past := hb.charges_past
  charges_kept := hb.charges_kept
  rate := hb.rate
  tokens_sorted := hb.tokens_sorted
  tokens_past := hb.tokens_past
  unloaded hl := by
    obtain ⟨ht, ha', hr', hc⟩ := hb.unloaded hl
    exact ⟨ht, Nat.le_zero.mp (ha.trans ha'.le), Nat.le_zero.mp (hr.trans hr'.le), hc⟩
  tokens_kept := hb.tokens_kept
  volume l hl := (Nat.add_le_add_left hr _).trans (hb.volume l hl)

/-- What is on record enters the window, once. -/
theorem load (requests : List ℕ) {entries : List (ℕ × ℕ)} (hb : Bounded w lim m h)
    (hl : m.loaded = false) (hsor : entries.Pairwise fun a b => a.1 ≤ b.1)
    (hpast : ∀ e ∈ entries, e.1 ≤ h.now)
    (hall : ∀ c, h.now - w ≤ c → Window.load c entries = Window.load c h.base) :
    Bounded w lim
      { m with
        loaded := true
        requests := m.requests ++ requests
        tokens := m.tokens ++ entries } h := by
  obtain ⟨ht, -, -, hc⟩ := hb.unloaded hl
  refine { hb with
    charges_kept := hb.charges_kept.trans (List.sublist_append_left _ _)
    tokens_sorted := ?_, tokens_past := ?_, unloaded := fun h => by cases h
    tokens_kept := fun _ c hle => ?_ }
  · simpa [ht] using hsor
  · simpa [ht] using hpast
  · simp [ht, History.worked, hc, hall c hle]

section

variable (hb : Bounded w lim m h)
include hb

/-- Both windows are pruned to the present. -/
theorem prune :
    Bounded w lim
      { m with
        requests := Window.prune id (h.now - w) m.requests
        tokens := Window.prune Prod.fst (h.now - w) m.tokens } h := by
  refine { hb with
    charges_kept := ?_
    tokens_sorted := hb.tokens_sorted.sublist prune_sublist
    tokens_past := fun e he => hb.tokens_past e (prune_sublist.subset he)
    unloaded := fun hl => ?_, tokens_kept := fun hl c hc => ?_ }
  · have hidem : after id (h.now - w) h.charges =
        after id (h.now - w) (after id (h.now - w) h.charges) := by
      simp [after, List.filter_filter]
    rw [hidem]
    exact (hb.charges_kept.filter _).trans after_sublist_prune
  · obtain ⟨ht, ha, hr, hc⟩ := hb.unloaded hl
    exact ⟨by simp [ht, Window.prune], ha, hr, hc⟩
  · rw [load_prune hc]
    exact hb.tokens_kept hl c hc

/-- A new charge, within every ceiling. -/
theorem charge {d : ℕ} (hl : m.loaded = true)
    (hccy : ∀ l ∈ lim.concurrency, m.active < l) (hrate : ∀ l ∈ lim.rate, m.requests.length < l)
    (hvol : ∀ l ∈ lim.volume, h.worked (h.now - w) + m.reserved + d ≤ l) :
    Bounded w lim
      { m with
        requests := m.requests ++ [h.now]
        active := m.active + 1
        reserved := m.reserved + d }
      { h with charges := h.charges ++ [h.now] } := by
  have hlast : (after id (h.now - w) [h.now]).Sublist [h.now] := List.filter_sublist
  have hkept : (after id (h.now - w) (h.charges ++ [h.now])).Sublist (m.requests ++ [h.now]) := by
    rw [after_append]
    exact hb.charges_kept.append hlast
  have hpast : ∀ c ∈ h.charges ++ [h.now], c ≤ h.now := by
    intro c hc
    rcases List.mem_append.mp hc with hc | hc
    · exact hb.charges_past c hc
    · exact (List.mem_singleton.mp hc).le
  refine { hb with
    concurrency := hccy, charges_past := hpast, charges_kept := hkept
    rate := fun l hr => count_snoc hb.charges_past (hb.rate l hr) ?_
    unloaded := fun h => ?_, volume := fun l hv => ?_ }
  · -- the window that ends now holds no more than the kept requests and the new one
    have hlen := hkept.length_le
    have := hrate l hr
    rw [count_eq_after hpast]
    rw [List.length_append, List.length_singleton] at hlen
    omega
  · rw [hl] at h
    cases h
  · have := hvol l hv
    simp only [History.worked] at this ⊢
    omega

/-- Work in flight completes: its reservation is replaced by at most as much work on record. -/
theorem complete {active n d : ℕ} (hl : m.loaded = true)
    (ha : active ≤ m.active) (hchg : ∀ l ∈ lim.volume, n ≤ d ∧ d ≤ m.reserved) :
    Bounded w lim
      { m with
        active := active
        reserved := m.reserved - d
        tokens := m.tokens ++ [(h.now, n)] }
      { h with completions := h.completions ++ [(h.now, n)] } := by
  refine { hb with
    concurrency := fun l hc => ha.trans (hb.concurrency l hc)
    tokens_sorted := ?_, tokens_past := ?_, unloaded := fun h => ?_
    tokens_kept := fun _ c hc => ?_, volume := fun l hv => ?_ }
  · rw [List.pairwise_append]
    refine ⟨hb.tokens_sorted, List.pairwise_singleton _ _, fun a ha b hb' => ?_⟩
    rw [List.mem_singleton.mp hb']
    exact hb.tokens_past a ha
  · intro e he
    rcases List.mem_append.mp he with he | he
    · exact hb.tokens_past e he
    · rw [List.mem_singleton.mp he]
  · rw [hl] at h
    cases h
  · have hkept := hb.tokens_kept hl c hc
    simp only [History.worked, load_append] at hkept ⊢
    omega
  · obtain ⟨hn, hd⟩ := hchg l hv
    have hold := hb.volume l hv
    have hnew : Window.load (h.now - w) [(h.now, n)] ≤ n := load_singleton_le _
    simp only [History.worked, load_append] at hold ⊢
    omega

/-- The meter is lost; a new one starts from what was stored of the work. -/
theorem crash {stored : List (ℕ × ℕ)} (hsto : ∀ c, Window.load c stored ≤ h.worked c) :
    Bounded w lim {} { base := stored, now := h.now } := by
  refine start fun l hl => ?_
  have hv := hb.volume l hl
  have hs := hsto (h.now - w)
  omega

end

end Bounded

end Schemes
