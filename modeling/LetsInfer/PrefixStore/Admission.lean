import LetsInfer.PrefixStore.Lookup

/-! @src cache/letsinfer_prefix_store/src/store.rs | name:Room and permits | scheme:admission

    A capture is admitted in two steps. It needs one of two permits, and room that the eviction of
    unread records makes. The eviction takes the least recently used ones and no more than it must,
    as long as the sum it compares fits a word. And a permit does not come with a place in the queue
    of the writer thread, which has one. -/

namespace LetsInfer.PrefixStore
open Schemes List

/-! ### Room -/

namespace IndexState

variable {idx : IndexState} {gone order : List RecordMeta} {capacity incoming : ℕ}

theorem foundBytes_sublist (h : gone.Sublist order) : foundBytes gone ≤ foundBytes order :=
  (h.map _).sum_le_sum fun _ _ => Nat.zero_le _

theorem committedBytes_removeAll (hle : foundBytes gone ≤ idx.committedBytes)
    (hword : idx.committedBytes < u64Bound) :
    (idx.removeAll gone).committedBytes = idx.committedBytes - foundBytes gone := by
  induction gone generalizing idx with
  | nil => rfl
  | cons r gone ih =>
    have hsum : foundBytes (r :: gone) = r.fileBytes + foundBytes gone := by
      simp [foundBytes]
    have hsub : (idx.remove r).committedBytes = idx.committedBytes - r.fileBytes :=
      subWord_eq (by omega) hword
    rw [removeAll_cons, ih (by omega) (by omega), hsub, hsum]
    omega

/-- What is committed, reserved and incoming once records are removed. -/
def totalAfter (index : IndexState) (incoming : ℕ) (gone : List RecordMeta) : ℕ :=
  index.committedBytes - foundBytes gone + index.reservedBytes + incoming

theorem usedFor_removeAll (hle : foundBytes gone ≤ idx.committedBytes)
    (hword : idx.committedBytes < u64Bound) :
    (idx.removeAll gone).usedFor incoming = idx.totalAfter incoming gone % u64Bound := by
  rw [usedFor, committedBytes_removeAll hle hword, (reserved_removeAll idx gone).1, addWord,
    addWord, Nat.mod_add_mod, totalAfter]

/-- A successful enforcement removed the shortest front part of the order that makes room. -/
def EvictsShortest (capacity incoming : ℕ) (index : IndexState) (order : List RecordMeta) : Prop :=
  ∀ fuel index' victims, index.records.length ≤ fuel →
    enforce capacity incoming fuel index = (index', victims, false) →
      ∃ k ≤ order.length, index' = index.removeAll (order.take k) ∧
        victims = (order.take k).map (·.path) ∧
        index.totalAfter incoming (order.take k) ≤ capacity ∧
        ∀ j < k, capacity < index.totalAfter incoming (order.take j)

/-- EVICT: with enough fuel the enforcement does not depend on it. What it removes is the shortest
    front part of the eviction order that makes room, exactly if no sum on the way wraps to one that
    the capacity covers. -/
theorem evicts_shortest_iff (hpos : 0 < capacity) (hcapacity : capacity < u64Bound)
    (hk : idx.Keyed) (hword : idx.committedBytes < u64Bound)
    (hcovered : foundBytes idx.inactive ≤ idx.committedBytes) :
    (∀ fuel, idx.records.length ≤ fuel → enforce capacity incoming fuel idx =
      enforce capacity incoming idx.records.length idx) ∧
    ∃ order, EvictionOrder idx order ∧ (EvictsShortest capacity incoming idx order ↔
      ∀ j ≤ order.length, u64Bound ≤ idx.totalAfter incoming (order.take j) →
        capacity < idx.totalAfter incoming (order.take j) % u64Bound) := by
  obtain ⟨order, hord⟩ := hk.exists_evictionOrder
  obtain ⟨k, hk', exh, heq, hbef, hok, hfull⟩ :=
    enforce_shortest capacity incoming hk hord
  refine ⟨fun fuel hfuel => (heq fuel hfuel).trans (heq _ le_rfl).symm, order, hord, ?_⟩
  have hfits : ∀ j, Fits capacity incoming (idx.removeAll (order.take j)) ↔
      idx.totalAfter incoming (order.take j) % u64Bound ≤ capacity := by
    intro j
    have hsum : foundBytes (order.take j) ≤ idx.committedBytes := by
      refine le_trans ?_ hcovered
      rw [foundBytes, foundBytes, ← (hord.perm.map (·.fileBytes)).sum_eq]
      exact foundBytes_sublist (take_sublist j order)
    rw [Fits, usedFor_removeAll hsum hword]
    exact or_iff_left hpos.ne'
  constructor
  · intro hsho j hj hwrap
    by_contra hless
    -- The enforcement stops no later than at `j`, with a sum over the capacity.
    have hle : k ≤ j := by
      by_contra hlt
      exact hbef j (not_le.mp hlt) ((hfits j).mpr (not_lt.mp hless))
    cases exh with
    | true =>
      obtain ⟨rfl, hnot⟩ := hfull rfl
      obtain rfl : j = order.length := le_antisymm hj hle
      exact hnot ((hfits _).mpr (not_lt.mp hless))
    | false =>
      obtain ⟨k', hk'', -, hvic, hroom, -⟩ := hsho _ _ _ le_rfl (heq _ le_rfl)
      obtain rfl : k = k' := by
        have hlen := congrArg List.length hvic
        rw [length_map, length_map, length_take_of_le hk', length_take_of_le hk''] at hlen
        exact hlen
      have hmore : foundBytes (order.take k) ≤ foundBytes (order.take j) := by
        rw [← Nat.min_eq_left hle, ← take_take]
        exact foundBytes_sublist (take_sublist _ _)
      rw [totalAfter] at hroom hwrap
      omega
  · intro hnow fuel index' vs hfuel h
    cases (heq fuel hfuel).symm.trans h
    have hroom := (hfits k).mp (hok rfl)
    refine ⟨k, hk', rfl, rfl, ?_, fun j hj => ?_⟩
    · by_cases hwrap : u64Bound ≤ idx.totalAfter incoming (order.take k)
      · exact absurd hroom (not_le.mpr (hnow k hk' hwrap))
      · rwa [Nat.mod_eq_of_lt (not_le.mp hwrap)] at hroom
    · by_contra hless
      refine hbef j hj ((hfits j).mpr ?_)
      exact (Nat.mod_le _ _).trans (not_lt.mp hless)

end IndexState

/-- Of two records the older one makes room for both. -/
theorem evicts_shortest_iff_oldest : ∃ tr s, Run (step (fun _ => 0) (storeOf 40000 (by decide)))
    {} tr s ∧ s.index.records.map (·.lastUsed) = [8, 7] ∧
    (IndexState.enforce 20000 0 2 s.index).1.records.map (·.lastUsed) = [8] ∧
    ∃ order, s.index.EvictionOrder order ∧ s.index.EvictsShortest 20000 0 order := by
  obtain ⟨tr, s, hrun, hused, hleft, hkey, hcom, hrsv, hcov⟩ := Run.exists_of_exec
    (step (fun _ => 0) (storeOf 40000 (by decide))) {} (captureNow 0 7 1 ++ captureNow 1 8 2)
    (fun _ s => s.index.records.map (·.lastUsed) = [8, 7] ∧
      (IndexState.enforce 20000 0 2 s.index).1.records.map (·.lastUsed) = [8] ∧
      (s.index.records.map (·.hash)).Nodup ∧ s.index.committedBytes = 24576 ∧
      s.index.reservedBytes = 0 ∧ IndexState.foundBytes s.index.inactive = 24576)
    (by decide +kernel)
  obtain ⟨-, order, hord, hiff⟩ := @IndexState.evicts_shortest_iff s.index 20000 0 (by decide)
    (by decide) hkey (by rw [hcom]; decide) (by rw [hcom, hcov])
  refine ⟨tr, s, hrun, hused, hleft, order, hord, hiff.mpr fun j hj hwrap => ?_⟩
  rw [IndexState.totalAfter, hcom, hrsv] at hwrap
  have hbd : u64Bound = 2 ^ 64 := rfl
  omega

/-- A store of capacity 2^64 - 1 with one record that nobody reads: a capture of 2^64 - 8192 bytes
    takes the sum over the word range, and it is granted without an eviction. -/
theorem evicts_nothing_on_wrap : ∃ tr s, Run (step (fun _ => 0) (storeOf (2 ^ 64 - 1) (by decide)))
    {} tr s ∧ s.index.inactive.map (·.fileBytes) = [12288] ∧
    (IndexState.enforce (2 ^ 64 - 1) 0 1 s.index).2 = ([], false) ∧
    2 ^ 64 - 1 < s.index.committedBytes + s.index.reservedBytes :=
  Run.exists_of_exec (step (fun _ => 0) (storeOf (2 ^ 64 - 1) (by decide))) {}
    (captureNow 0 7 1 ++
      [.beginCapture zeroFingerprint [2] (oneRegion (2 ^ 64 - 16384)), .reserve 1])
    (fun _ s => s.index.inactive.map (·.fileBytes) = [12288] ∧
      (IndexState.enforce (2 ^ 64 - 1) 0 1 s.index).2 = ([], false) ∧
      2 ^ 64 - 1 < s.index.committedBytes + s.index.reservedBytes) (by decide +kernel)

/-! ### Permits and the queue -/

def Label.async : Label → Bool
  | .commitAsync _ _ => true
  | _ => false

/-- Whether a step puts a job into the commit channel, or tries to, or takes one out. -/
def Label.exchanges : Label → Bool
  | .commitAsync _ _ | .receive => true
  | _ => false

/-- Between any two calls of `commit_async` the writer thread receives a job. -/
def Received (labels : List Label) : Prop :=
  (labels.filter Label.exchanges).IsChain fun first second => ¬(first.async ∧ second.async)

instance : DecidablePred Received := fun labels =>
  inferInstanceAs (Decidable ((labels.filter Label.exchanges).IsChain _))

/-- The last exchange was a call of `commit_async`. -/
def Unreceived (labels : List Label) : Prop :=
  ∃ last ∈ (labels.filter Label.exchanges).getLast?, last.async = true

section Channel

variable {crc : List UInt8 → UInt32} {cfg : StoreConfig} {s₀ s t : Sys} {lab : Label} {o : Output}
  {tr : List (Sys × Label × Output)} {es : List DirEntry}

theorem Label.exchanges_iff : lab.exchanges = true ↔ lab.async = true ∨ lab = .receive := by
  cases lab <;> simp [Label.exchanges, Label.async]

theorem received_snoc {labels : List Label} : Received (labels ++ [lab]) ↔
    Received labels ∧ (lab.async = true → ¬Unreceived labels) := by
  rw [Received, filter_append, Received, Unreceived]
  by_cases hx : lab.exchanges = true
  · rw [filter_singleton, hx, cond_true, isChain_append]
    refine and_congr_right fun _ => ⟨fun h hasy => ?_, fun h => ⟨.singleton _, ?_⟩⟩
    · rintro ⟨last, hlast, hlas⟩
      exact h.2 last hlast lab rfl ⟨hlas, hasy⟩
    · rintro last hlast _ ⟨⟩ ⟨hlas, hasy⟩
      exact h hasy ⟨last, hlast, hlas⟩
  · have hno : ¬lab.async = true := fun hasy => hx (Label.exchanges_iff.mpr (.inl hasy))
    rw [filter_singleton, eq_false_of_ne_true hx, cond_false, append_nil]
    exact (and_iff_left fun hasy => absurd hasy hno).symm

theorem unreceived_snoc {labels : List Label} : Unreceived (labels ++ [lab]) ↔
    lab.async = true ∨ lab.exchanges = false ∧ Unreceived labels := by
  rw [Unreceived, filter_append, Unreceived]
  cases hx : lab.exchanges with
  | true => simp [hx]
  | false =>
    have hno : ¬lab.async = true := fun hasy => by
      rw [Label.exchanges_iff.mpr (.inl hasy)] at hx
      cases hx
    simp [hx, hno]

/-- STEP: only a receive empties the channel, and only an asynchronous commit fills it. -/
theorem Moves.queue (h : Moves crc cfg s lab t o) : t.writerAlive = s.writerAlive ∧
    (lab.exchanges = false → t.queue = s.queue) ∧ (lab = .receive → t.queue = none) := by
  cases h with
  | receive => exact ⟨rfl, nofun, fun _ => rfl⟩
  | enqueue | bounce => exact ⟨rfl, nofun, nofun⟩
  | unprepared _ _ hlb =>
    refine ⟨rfl, fun _ => rfl, ?_⟩
    rcases hlb with rfl | ⟨_, rfl⟩ <;> nofun
  | readStep =>
    obtain ⟨new, heq, -⟩ := exists_advanceLoad s _ _ _ _
    rw [heq]
    exact ⟨rfl, fun _ => rfl, nofun⟩
  | _ => exact ⟨rfl, fun _ => rfl, nofun⟩

/-- STEP: an asynchronous commit with a permit fails exactly if a job is in the channel; otherwise
    its own is. -/
theorem step_async (hst : step crc cfg s lab = some (t, o)) (hwr : Writing s)
    (hali : s.writerAlive = true) (hasy : lab.async = true) :
    (o = .failed ↔ s.queue ≠ none) ∧ (o ≠ .failed → t.queue ≠ none) := by
  cases lab with
  | commitAsync n promote =>
    obtain ⟨c, bs, hc, hsg⟩ : ∃ c bs, s.captures.lookup n = some c ∧ c.stage = .writing bs := by
      cases step_moves hst with
      | enqueue hc hsg | bounce hc hsg => exact ⟨_, _, hc, hsg⟩
      | unprepared hc hsg hlb =>
        rcases hlb with hlb | ⟨_, hlb⟩ <;> cases hlb
        exact ⟨_, _, hc, hsg⟩
    obtain ⟨job, hjob⟩ := @exists_prepare crc c.header (hwr n c hc).1 bs promote
    simp only [step, Label.capture, hc, Sys.captureStep, Sys.commitStep, hsg, hjob] at hst
    split_ifs at hst with hque
    · cases hst
      simp [hque.2, Sys.setStage]
    · cases hst
      exact ⟨iff_of_true rfl fun hemp => hque ⟨hali, hemp⟩, fun hno => absurd rfl hno⟩
  | _ => cases hasy

theorem foldl_visit_idle (es : List DirEntry) (s : Sys) :
    (es.foldl (Sys.visit crc) s).outstanding = s.outstanding ∧
      (es.foldl (Sys.visit crc) s).queue = s.queue ∧
      (es.foldl (Sys.visit crc) s).writerAlive = s.writerAlive := by
  induction es generalizing s with
  | nil => exact ⟨rfl, rfl, rfl⟩
  | cons e es ih =>
    obtain ⟨hout, hque, hali⟩ := ih (s.visit crc e)
    rw [foldl_cons, hout, hque, hali, Sys.visit]
    cases loadRecordMeta crc e s.next <;> exact ⟨rfl, rfl, rfl⟩

theorem openStore_idle (h : openStore crc cfg es = some t) :
    t.outstanding = 0 ∧ t.queue = none ∧ t.writerAlive = true := by
  have hidle := @foldl_visit_idle crc es {}
  rw [openStore] at h
  split at h
  split_ifs at h with hok
  cases h
  exact hidle

/-- What a run has made of the permits and the channel: as long as the calls of `commit_async` and the
    receives take turns, a job is in the channel exactly if a call came last. -/
structure Channel (config : StoreConfig) (tr : List (Sys × Label × Output)) (s : Sys) : Prop where
  owned : Owned s
  slotted : Slotted config s
  writing : Writing s
  alive : s.writerAlive = true
  sent : (∀ e ∈ tr, e.2.1.async = true → e.2.2 ≠ .failed) ↔ Received (tr.map (·.2.1))
  full : Received (tr.map (·.2.1)) → (s.queue ≠ none ↔ Unreceived (tr.map (·.2.1)))

/-- STEP: what a step of the run makes of the permits and the channel. -/
theorem Channel.snoc (h : Channel cfg tr s) (hst : step crc cfg s lab = some (t, o)) :
    Channel cfg (tr ++ [(s, lab, o)]) t := by
  have hmv := step_moves hst
  obtain ⟨hali, hkept, hrcv⟩ := hmv.queue
  have hasync := step_async hst h.writing h.alive
  refine ⟨h.owned.shift hmv.shift, h.slotted.moves h.owned hmv, h.writing.moves hmv,
    hali.trans h.alive, ?_, ?_⟩
  · rw [forall_mem_append, forall_mem_singleton, map_append, h.sent]
    refine Iff.trans (and_congr_right fun hrec => imp_congr_right fun hasy => ?_) received_snoc.symm
    rw [← h.full hrec, ← (hasync hasy).1]
  · intro hrec
    rw [map_append] at hrec ⊢
    obtain ⟨hbef, hlast⟩ := received_snoc.mp hrec
    refine Iff.trans ?_ unreceived_snoc.symm
    by_cases hasy : lab.async = true
    · refine iff_of_true ((hasync hasy).2 fun hfai => ?_) (.inl hasy)
      exact hlast hasy ((h.full hbef).mp ((hasync hasy).1.mp hfai))
    · by_cases hx : lab.exchanges = true
      · have hno := hrcv ((Label.exchanges_iff.mp hx).resolve_left hasy)
        simp [hno, hasy, hx]
      · rw [hkept (eq_false_of_ne_true hx), h.full hbef]
        simp [hasy, hx]

/-- RUN: from an `open` of any directory. -/
theorem channel_of_run (hopen : openStore crc cfg es = some s₀) (hrun : Run (step crc cfg) s₀ tr s) :
    Channel cfg tr s := by
  have hfd := openStore_found hopen
  obtain ⟨hout, hque, hali⟩ := openStore_idle hopen
  induction hrun with
  | nil =>
    exact ⟨hfd.owned, .of_idle hfd.captures hout, by simp [Writing, hfd.captures], hali,
      by simp [Received], by simp [hque, Unreceived]⟩
  | snoc hrun hst ih => exact ih.snoc hst

/-- QUEUE: in every state as many permits are out as captures are under way, and never more than two;
    the writer thread lives; and no asynchronous commit of a run fails exactly if between any two of
    them the writer thread receives. -/
theorem queue_full_iff (hopen : openStore crc cfg es = some s₀)
    (hrun : Run (step crc cfg) s₀ tr s) :
    s.captures.size = s.outstanding ∧ s.outstanding ≤ maxOutstandingCommits ∧ s.writerAlive = true ∧
      ((∀ e ∈ tr, e.2.1.async = true → e.2.2 ≠ .failed) ↔ Received (tr.map (·.2.1))) := by
  have h := channel_of_run hopen hrun
  exact ⟨h.slotted.permits, h.slotted.limit, h.alive, h.sent⟩

/-- Two captures get their permits and their writers. -/
def twoWriters : List Label :=
  [.beginCapture zeroFingerprint [1] (oneRegion 5),
    .beginCapture zeroFingerprint [2] (oneRegion 5)] ++ grant 0 ++ grant 1

/-- Two captures with permits commit, and the writer thread receives between them. -/
theorem queue_full_iff_received : ∃ tr s, Run (step (fun _ => 0) (storeOf 40000 (by decide)))
    {} tr s ∧ s.outstanding = 2 ∧ (tr.filter fun e => e.2.1.async).length = 2 ∧
    ∀ e ∈ tr, e.2.1.async = true → e.2.2 ≠ .failed := by
  obtain ⟨tr, s, hrun, hout, hlen, hrec⟩ := Run.exists_of_exec
    (step (fun _ => 0) (storeOf 40000 (by decide))) {}
    (twoWriters ++ [.commitAsync 0 true, .receive, .commitAsync 1 true])
    (fun tr s => s.outstanding = 2 ∧ (tr.filter fun e => e.2.1.async).length = 2 ∧
      Received (tr.map (·.2.1))) (by decide +kernel)
  have hopen : openStore (fun _ => 0) (storeOf 40000 (by decide)) [] = some {} := rfl
  exact ⟨tr, s, hrun, hout, hlen, (queue_full_iff hopen hrun).2.2.2.mpr hrec⟩

end Channel

/-- Two captures with permits commit before the writer thread takes the first job: the second one
    gets the error of a full queue, and its record is given up. -/
theorem queue_full_with_permit : ∃ tr s, Run (step (fun _ => 0) (storeOf 40000 (by decide)))
    {} tr s ∧ (∃ e ∈ tr, e.2.1 = .commitAsync 1 true ∧ e.1.writerAlive = true ∧ e.2.2 = .failed) ∧
    (s.captures.lookup 1).map (·.stage) = some .cancelling :=
  Run.exists_of_exec (step (fun _ => 0) (storeOf 40000 (by decide))) {}
    (twoWriters ++ [.commitAsync 0 true, .commitAsync 1 true])
    (fun tr s => (∃ e ∈ tr, e.2.1 = .commitAsync 1 true ∧ e.1.writerAlive = true ∧
      e.2.2 = .failed) ∧ (s.captures.lookup 1).map (·.stage) = some .cancelling)
    (by decide +kernel)

end LetsInfer.PrefixStore
