import LetsInfer.PrefixStore.AnyDirectory

/-! @src cache/letsinfer_prefix_store/src/store.rs | name:Lookups are exact | scheme:invariant

    A lookup reaches a record through its token count and its key hash, so it can find only records
    whose header describes their own tokens. All do: `open` checks it, a capture lays its header out
    from its tokens, a commit changes checksums only, and a commit of a colliding key hash replaces
    the whole record. -/

namespace LetsInfer.PrefixStore
open Schemes

/-- The record answers the query. -/
def Qualifies (fingerprint : Fingerprint) (tokens : List UInt32) (minimum : ℕ)
    (record : RecordMeta) : Prop :=
  record.header.fingerprint = fingerprint ∧ record.tokens <+: tokens ∧
    minimum ≤ record.tokens.length

section Exact

variable {idx idx' : IndexState} {rcd : RecordMeta} {fp : Fingerprint}
  {ts : List UInt32} {mn now : ℕ}

/-- What is found answers the query: its candidate can only be the record itself. -/
theorem longestPrefix_qualifies (hk : idx.Keyed)
    (h : idx.longestPrefix fp ts mn now = some (rcd, idx')) :
    rcd ∈ idx.records ∧ Qualifies fp ts mn rcd := by
  rw [IndexState.longestPrefix] at h
  split at h
  · cases h
  rename_i cand hfind
  split at h
  · cases h
  rename_i found hget
  cases h
  obtain ⟨source, hsou, hfpr, hfits, hmin, rfl⟩ :=
    mem_candidates.mp (List.mem_of_find?_eq_some hfind)
  obtain ⟨hmem, hhash⟩ := hk.get_eq_some.mp hget
  obtain rfl := hk.eq_of_key hmem hsou hhash
  have hmat := List.find?_some hfind
  have htok : rcd.tokens = ts.take rcd.header.tokenCount := by
    simpa [hget] using (of_decide_eq_true hmat).2
  refine ⟨hmem, hfpr, htok ▸ List.take_prefix _ _, ?_⟩
  rw [htok, List.length_take]
  exact le_min hmin (hmin.trans hfits)

/-- Where every header describes its tokens a lookup finds a longest record that answers, unless
    there is none. -/
theorem longestPrefix_exact (hk : idx.Keyed)
    (hdes : ∀ rcd ∈ idx.records, Described rcd.header rcd.tokens) :
    (idx.longestPrefix fp ts mn now = none ↔ ∀ rcd ∈ idx.records, ¬Qualifies fp ts mn rcd) ∧
    ∀ rcd idx', idx.longestPrefix fp ts mn now = some (rcd, idx') →
      rcd ∈ idx.records ∧ Qualifies fp ts mn rcd ∧
        ∀ other ∈ idx.records, Qualifies fp ts mn other →
          other.tokens.length ≤ rcd.tokens.length := by
  have hext : ∀ other ∈ idx.records, Qualifies fp ts mn other →
      ∃ found idx', idx.longestPrefix fp ts mn now = some (found, idx') ∧
        other.tokens.length ≤ found.tokens.length := by
    rintro other hoth ⟨rfl, ⟨extra, rfl⟩, hmin⟩
    obtain ⟨hcnt, hhash⟩ := hdes other hoth
    obtain ⟨found, idx', hfd, hlon⟩ :=
      longestPrefix_extends hk hoth hcnt hhash extra mn now hmin
    refine ⟨found, idx', hfd, ?_⟩
    rcases hlon with rfl | ⟨hlt, -⟩
    · exact le_rfl
    · exact hlt.le
  refine ⟨⟨fun hno other hoth hqlf => ?_, fun hno => ?_⟩, fun rcd idx' hfd => ?_⟩
  · obtain ⟨found, idx', hfd, -⟩ := hext other hoth hqlf
    rw [hno] at hfd
    cases hfd
  · by_contra hsome
    obtain ⟨⟨found, idx'⟩, hfd⟩ := Option.ne_none_iff_exists'.mp hsome
    obtain ⟨hmem, hqlf⟩ := longestPrefix_qualifies hk hfd
    exact hno found hmem hqlf
  · obtain ⟨hmem, hqlf⟩ := longestPrefix_qualifies hk hfd
    refine ⟨hmem, hqlf, fun other hoth hoth' => ?_⟩
    obtain ⟨found, last, hfd', hle⟩ := hext other hoth hoth'
    cases hfd.symm.trans hfd'
    exact hle

end Exact

/-! ### Runs -/

section Runs

variable {crc : List UInt8 → UInt32} {cfg : StoreConfig} {s₀ s t : Sys} {lab : Label}
  {o : Output} {tr : List (Sys × Label × Output)} {es : List DirEntry}

/-- Records, captures and commits have headers of their own tokens. -/
structure Catalogued (s : Sys) : Prop extends Owned s where
  records : ∀ record ∈ s.index.records, Described record.header record.tokens
  captures : ∀ n c, s.captures.lookup n = some c → Described c.header c.tokens ∧
    ∀ job, c.stage.job = some job → Described job.header c.tokens

theorem prepare_described {hdr : RecordHeader} {ts : List UInt32} {bs : Blob}
    {promote : Bool} {job : PreparedCommit} (h : prepare crc hdr bs promote = some job)
    (hdes : Described hdr ts) : Described job.header ts := by
  rw [prepare] at h
  split at h
  · cases h
  · dsimp only at h
    split at h
    · cases h
    · cases h
      exact hdes

/-- Records keep their headers and tokens, and the record of a commit has those of its job. -/
theorem Shift.described (h : Shift cfg s t lab) (hk : s.index.Keyed)
    (hrcs : ∀ rcd ∈ s.index.records, Described rcd.header rcd.tokens)
    (hjobs : ∀ n c job, s.captures.lookup n = some c → c.stage.job = some job →
      Described job.header c.tokens) :
    ∀ rcd ∈ t.index.records, Described rcd.header rcd.tokens := by
  have hgone : ∀ {gone}, s.index.Evicts gone t.index → ∀ rcd ∈ t.index.records,
      Described rcd.header rcd.tokens := fun hgone rcd hmem =>
    hrcs rcd (hgone.subset hmem)
  have hupd : ∀ {hash : UInt64} {f : RecordMeta → RecordMeta}, t.index = s.index.update hash f →
      (∀ a, (f a).header = a.header ∧ (f a).tokens = a.tokens) →
      ∀ rcd ∈ t.index.records, Described rcd.header rcd.tokens := by
    intro hash f hidx hf rcd hmem
    rw [hidx, IndexState.records_update] at hmem
    obtain ⟨a, ha, rfl⟩ := mem_mapKey.mp hmem
    split_ifs
    · rw [(hf a).1, (hf a).2]
      exact hrcs a ha
    · exact hrcs a ha
  cases h with
  | same hidx | opened _ _ _ hidx | staged _ _ _ hidx | closed _ _ hidx
  | reserve _ _ _ hidx =>
    rwa [hidx]
  | release _ _ hidx =>
    rcases hidx with hidx | hidx <;>
    · rwa [hidx]
  | enforce _ _ hidx => exact hgone (IndexState.enforce_evicts hk le_rfl hidx).choose_spec.1
  | reclaim hidx => exact hgone (IndexState.reclaim_evicts hk hidx).choose_spec.1
  | evict _ hidx => exact hgone (IndexState.evictForIntegrity_evicts hidx).choose_spec.1
  | touch _ hidx | drop _ hidx => exact hupd hidx fun _ => ⟨rfl, rfl⟩
  | hit hfd =>
    exact hupd (IndexState.longestPrefix_eq_some hfd).2 fun _ => ⟨rfl, rfl⟩
  | publish hc _ hjob hidx =>
    rw [hidx]
    intro rcd hmem
    rcases IndexState.mem_publish.mp hmem with rfl | ⟨hmem, -⟩
    · exact hjobs _ _ _ hc hjob
    · exact hrcs rcd hmem

/-- STEP: every step keeps the headers those of their tokens. -/
theorem Catalogued.moves (h : Catalogued s) (hmv : Moves crc cfg s lab t o) : Catalogued t := by
  refine ⟨h.toOwned.shift hmv.shift, ?_, fun n c hc => ?_⟩
  · exact hmv.shift.described h.keyed h.records fun n c job hc => (h.captures n c hc).2 job
  · rcases hmv.captures_from n c hc with
      ⟨d, hd, hhdr, htok, hfrom⟩ | ⟨fp, regions, hplan, hpln⟩
    · rw [hhdr, htok]
      refine ⟨(h.captures n d hd).1, fun job hjob => ?_⟩
      rcases hfrom job hjob with hold | ⟨buffer, -, promote, -, hprp⟩
      · exact (h.captures n d hd).2 job hold
      · exact prepare_described (hhdr ▸ hprp) (h.captures n d hd).1
    · obtain ⟨-, hfpr, hhash, hcnt, -⟩ := planCapture_ok hplan
      refine ⟨⟨hcnt, by rw [hfpr, hhash]⟩, fun job hjob => ?_⟩
      rw [hpln] at hjob
      cases hjob

theorem Found.owned (h : Found s) : Owned s := .of_idle h.keyed h.unreserved.1 h.captures

/-- RUN: from an `open` of any directory. -/
theorem catalogued_of_run (hopen : openStore crc cfg es = some s₀)
    (hrun : Run (step crc cfg) s₀ tr s) : Catalogued s := by
  have hfd := openStore_found hopen
  exact hrun.invariant Catalogued
    ⟨hfd.owned, hfd.described, by simp [hfd.captures]⟩ fun _ _ _ _ h hst => h.moves (step_moves hst)

/-- LOOKUP: in every state of a store opened on any directory a lookup misses exactly if no indexed
    record answers, and otherwise opens a reader on a longest one that does. -/
theorem lookup_exact (hopen : openStore crc cfg es = some s₀) (hrun : Run (step crc cfg) s₀ tr s)
    (fingerprint : Fingerprint) (tokens : List UInt32) (minimum now : ℕ) :
    ((∀ record ∈ s.index.records, ¬Qualifies fingerprint tokens minimum record) ∧
      step crc cfg s (.lookup fingerprint tokens minimum now) = some (s, .miss)) ∨
    ∃ record ∈ s.index.records, Qualifies fingerprint tokens minimum record ∧
      (∀ other ∈ s.index.records, Qualifies fingerprint tokens minimum other →
        other.tokens.length ≤ record.tokens.length) ∧
      ∃ t reader, step crc cfg s (.lookup fingerprint tokens minimum now) =
          some (t, .hit s.next) ∧ t.readers.lookup s.next = some reader ∧
        reader.header = record.header ∧ reader.path = record.path ∧ reader.tokens = record.tokens := by
  have h := catalogued_of_run hopen hrun
  obtain ⟨hno, hsome⟩ := @longestPrefix_exact s.index fingerprint tokens minimum now h.keyed h.records
  cases hfd : s.index.longestPrefix fingerprint tokens minimum now with
  | none =>
    refine .inl ⟨hno.mp hfd, ?_⟩
    simp [step, Label.capture, Label.reader, Sys.openStep, hfd]
  | some res =>
    obtain ⟨record, idx'⟩ := res
    obtain ⟨hmem, hqlf, hlon⟩ := hsome record idx' hfd
    refine .inr ⟨record, hmem, hqlf, hlon, ?_⟩
    simp [step, Label.capture, Label.reader, Sys.openStep, hfd]

/-- A captured prefix of a query is found beside another record. -/
theorem lookup_exact_found : ∃ tr s, Run (step (fun _ => 0) (storeOf 40000 (by decide))) {} tr s ∧
    s.index.records.map (·.tokens) = [[2], [1]] ∧ ∃ record ∈ s.index.records,
      Qualifies zeroFingerprint [1, 2] 1 record ∧
      ∃ t, step (fun _ => 0) (storeOf 40000 (by decide)) s (.lookup zeroFingerprint [1, 2] 1 9) =
        some (t, .hit s.next) := by
  obtain ⟨tr, s, hrun, htok, record, hmem, hfpr, hrec⟩ := Run.exists_of_exec
    (step (fun _ => 0) (storeOf 40000 (by decide))) {} (captureNow 0 7 1 ++ captureNow 1 8 2)
    (fun _ s => s.index.records.map (·.tokens) = [[2], [1]] ∧ ∃ record ∈ s.index.records,
      record.header.fingerprint = zeroFingerprint ∧ record.tokens = [1]) (by decide +kernel)
  have hopen : openStore (fun _ => 0) (storeOf 40000 (by decide)) [] = some {} := rfl
  refine ⟨tr, s, hrun, htok, ?_⟩
  rcases lookup_exact hopen hrun zeroFingerprint [1, 2] 1 9 with
    ⟨hno, -⟩ | ⟨found, hfd, hans, -, t, reader, hst, -⟩
  · refine absurd ⟨hfpr, ?_, ?_⟩ (hno record hmem) <;> rw [hrec]
    · exact ⟨[2], rfl⟩
    · exact le_rfl
  · exact ⟨found, hfd, hans, t, hst⟩

end Runs

end LetsInfer.PrefixStore
