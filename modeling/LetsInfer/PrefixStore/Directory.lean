import LetsInfer.PrefixStore.Pins

/-! @src cache/letsinfer_prefix_store/src/store.rs | name:Index and directory | scheme:agreement

    A record is indexed after its file was renamed into place, and its file is deleted after it left
    the index, both without the lock in between. The file of a record is its own as long as no
    capture reserves a key hash whose path is still indexed or still to be deleted: the path is a
    function of the hash, so the delayed deletion would take the file of the later record. -/

namespace LetsInfer.PrefixStore
open Schemes Finmap

def CaptureStage.victims : CaptureStage → List Path
  | .sweeping sweep _ => sweep.victims
  | _ => []

def ReaderStage.victims : ReaderStage → List Path
  | .sweeping sweep => sweep.victims
  | _ => []

/-- An eviction has removed a record of the path from the index and not yet its file. -/
def Pending (s : Sys) (path : Path) : Prop :=
  (∃ n c, s.captures.lookup n = some c ∧ path ∈ c.stage.victims) ∨
    (∃ r reader, s.readers.lookup r = some reader ∧ path ∈ reader.stage.victims) ∨
    ∃ k sweep, s.sweeps.lookup k = some sweep ∧ path ∈ sweep.victims

def Clear (s : Sys) (path : Path) : Prop :=
  (∀ record ∈ s.index.records, record.path ≠ path) ∧ ¬Pending s path

/-- Between the rename of a commit and its index entry. -/
def CommitStage.inPlace : CommitStage → Bool
  | .reading _ | .publishing _ => true
  | .persisting | .discarding => false

/-- The file of a commit is in place and its record is to be indexed. -/
def Placed (s : Sys) (n : ℕ) (job : PreparedCommit) : Prop :=
  ∃ c stage, s.captures.lookup n = some c ∧ c.stage = .committing job stage ∧ stage.inPlace

/-- The path holds the file of the capture. -/
def Holds (s : Sys) (path : Path) (capture : ℕ) : Prop :=
  ∃ file, s.files.lookup path = some file ∧ file.capture = capture

/-- Every indexed record's path holds the file its own commit wrote. -/
def Agrees (s : Sys) : Prop := ∀ record ∈ s.index.records, Holds s record.path record.capture

/-- `begin_capture` reserves a key hash whose path is clear. -/
def ReservesClear (s : Sys) : Label → Prop
  | .reserve n => ∀ c, s.captures.lookup n = some c → c.stage = .planned →
      Clear s (.record c.header.keyHash)
  | _ => True

/-- Files, records and deletions in agreement. -/
structure Filed (s : Sys) : Prop extends Owned s where
  agrees : Agrees s
  placed : ∀ n job, Placed s n job → Holds s (.record job.header.keyHash) n
  clear : ∀ n hash, Holder s n hash → Clear s (.record hash)
  unswept : ∀ record ∈ s.index.records, ¬Pending s record.path
  paths : ∀ a ∈ s.index.records, ∀ b ∈ s.index.records, a.path = b.path → a = b

variable {s : Sys} {sweep sweep' : Sweep} {tier : TierState} {r : ℕ} {new : RecordReader}
  {path : Path} {crc : List UInt8 → UInt32} {cfg : StoreConfig} {lab : Label}

section Steps

variable {t : Sys} {n : ℕ} {c : Capture} {job : PreparedCommit}

theorem Placed.holder (h : Placed s n job) (hown : Owned s) : Holder s n job.header.keyHash := by
  obtain ⟨c, sg, hc, hsg, -⟩ := h
  have hjob : job.For c.header := hown.jobs n c job hc (by rw [hsg]; rfl)
  exact ⟨c, hc, by rw [hsg]; rfl, hjob.1.symm⟩

/-- One action of a sweep: a path leaves the list only with its file. -/
theorem sweepStep_spec {tier' : TierState} {files files' : Table Path File}
    (h : sweepStep sweep tier files = some (sweep', tier', files')) :
    (∀ path ∈ sweep'.victims, path ∈ sweep.victims) ∧
      (files' = files ∨ ∃ path ∈ sweep.victims, files' = files.erase path) := by
  rw [sweepStep] at h
  split at h
  · cases h
  · rename_i path rest hvic
    rw [hvic]
    split_ifs at h
    · cases h
      exact ⟨fun other hoth => List.mem_cons_of_mem _ hoth, .inr ⟨path, List.mem_cons_self, rfl⟩⟩
    · cases h
      exact ⟨fun other hoth => hoth, .inl rfl⟩

/-! ### Who still has something to delete -/

/-- The captures hold, place and delete no more than before. -/
def CapturesLess (s t : Sys) : Prop :=
  ∀ n c, t.captures.lookup n = some c → (∀ path ∈ c.stage.victims, Pending s path) ∧
    (c.stage.standing.holds → Holder s n c.header.keyHash) ∧
    ∀ job stage, c.stage = .committing job stage → stage.inPlace →
      Placed s n job ∨ Holds t (.record job.header.keyHash) n

def ReadersLess (s t : Sys) : Prop :=
  ∀ r reader, t.readers.lookup r = some reader → ∀ path ∈ reader.stage.victims, Pending s path

def SweepsLess (s t : Sys) : Prop :=
  ∀ k sweep, t.sweeps.lookup k = some sweep → ∀ path ∈ sweep.victims, Pending s path

theorem CapturesLess.of_eq (h : t.captures = s.captures) : CapturesLess s t := by
  intro n c hc
  rw [h] at hc
  exact ⟨fun path hpath => .inl ⟨n, c, hc, hpath⟩, fun hhd => ⟨c, hc, hhd, rfl⟩,
    fun job sg hsg hplc => .inl ⟨c, sg, hc, hsg, hplc⟩⟩

theorem CapturesLess.of_insert {c' : Capture} (h : t.captures = s.captures.insert n c')
    (hvic : ∀ path ∈ c'.stage.victims, Pending s path)
    (hhd : c'.stage.standing.holds → Holder s n c'.header.keyHash)
    (hplc : ∀ job sg, c'.stage = .committing job sg → sg.inPlace →
      Placed s n job ∨ Holds t (.record job.header.keyHash) n) : CapturesLess s t := by
  intro m d hd
  rcases Table.insert_cases h hd with ⟨hm, rfl⟩ | ⟨-, hd⟩
  · exact hm ▸ ⟨hvic, hhd, hplc⟩
  · exact ⟨fun path hpath => .inl ⟨m, d, hd, hpath⟩, fun hhd => ⟨d, hd, hhd, rfl⟩,
      fun job sg hsg hplc => .inl ⟨d, sg, hd, hsg, hplc⟩⟩

/-- A capture that goes on with the reservation it has, or gives it up, and has no file in place
    that it did not have. -/
theorem CapturesLess.of_stage {sg : CaptureStage} (hc : s.captures.lookup n = some c)
    (h : t.captures = s.captures.insert n { c with stage := sg })
    (hhd : sg.standing.holds → c.stage.standing.holds)
    (hvic : ∀ path ∈ sg.victims, path ∈ c.stage.victims)
    (hplc : ∀ job st, sg = .committing job st → st.inPlace →
      ∃ st', c.stage = .committing job st' ∧ st'.inPlace) : CapturesLess s t := by
  refine .of_insert h (fun path hpath => .inl ⟨n, c, hc, hvic path hpath⟩)
    (fun hnow => ⟨c, hc, hhd hnow, rfl⟩) ?_
  intro job st hsg hst
  obtain ⟨st', hst', hin⟩ := hplc job st hsg hst
  exact .inl ⟨c, st', hc, hst', hin⟩

theorem ReadersLess.of_eq (h : t.readers = s.readers) : ReadersLess s t :=
  fun r rd hr _ hpath => .inr (.inl ⟨r, rd, h ▸ hr, hpath⟩)

theorem ReadersLess.of_insert (h : t.readers = s.readers.insert r new)
    (hvic : ∀ path ∈ new.stage.victims, Pending s path) : ReadersLess s t := by
  intro m rd hm
  rcases Table.insert_cases h hm with ⟨-, rfl⟩ | ⟨-, hm⟩
  · exact hvic
  · exact ReadersLess.of_eq rfl m rd hm

theorem SweepsLess.of_eq (h : t.sweeps = s.sweeps) : SweepsLess s t :=
  fun k sweep hk _ hpath => .inr (.inr ⟨k, sweep, h ▸ hk, hpath⟩)

theorem pending_of_less (hcap : CapturesLess s t) (hrds : ReadersLess s t)
    (hsws : SweepsLess s t) (h : Pending t path) : Pending s path := by
  rcases h with ⟨n, c, hc, hpath⟩ | ⟨r, rd, hr, hpath⟩ | ⟨k, sweep, hk, hpath⟩
  · exact (hcap n c hc).1 path hpath
  · exact hrds r rd hr path hpath
  · exact hsws k sweep hk path hpath

/-- A path whose file is an indexed record's, or one about to be indexed. -/
def Needed (s : Sys) (path : Path) : Prop :=
  (∃ record ∈ s.index.records, record.path = path) ∨
    ∃ n job, Placed s n job ∧ path = .record job.header.keyHash

namespace Filed

theorem not_pending (h : Filed s) (hned : Needed s path) : ¬Pending s path := by
  rcases hned with ⟨rcd, hmem, rfl⟩ | ⟨n, job, hplc, rfl⟩
  · exact h.unswept rcd hmem
  · exact (h.clear n _ (hplc.holder h.toOwned)).2

/-- A commit whose file is not in place owns a path that nothing else needs. -/
theorem ne_of_needed {sg : CommitStage} (h : Filed s)
    (hc : s.captures.lookup n = some c) (hsg : c.stage = .committing job sg)
    (hout : sg.inPlace = false) (hned : Needed s path) : path ≠ .record job.header.keyHash := by
  have hfor : job.For c.header := h.jobs n c job hc (by rw [hsg]; rfl)
  have hself : Holder s n job.header.keyHash := ⟨c, hc, by rw [hsg]; rfl, hfor.1.symm⟩
  rcases hned with ⟨rcd, hmem, rfl⟩ | ⟨m, job', hplc, rfl⟩
  · exact (h.clear n _ hself).1 rcd hmem
  · intro heq
    have hhash : job'.header.keyHash = job.header.keyHash := Path.record.inj heq
    obtain rfl := h.owner m n _ (hhash ▸ hplc.holder h.toOwned) hself
    obtain ⟨d, sg', hd, hsg', hin⟩ := hplc
    rw [hc] at hd
    cases hd
    rw [hsg] at hsg'
    cases hsg'
    simp [hout] at hin

/-- What may change under agreement: records leave the index and their paths become pending, and
    files go or come at paths nothing needs. -/
theorem of_less (h : Filed s) (hown : Owned t) (hrcs : RecordsFrom s t)
    (hpen : ∀ path, Pending t path → Pending s path ∨
      (∃ a ∈ s.index.records, a.path = path) ∧ ∀ b ∈ t.index.records, b.path ≠ path)
    (hhdr : ∀ n hash, Holder t n hash → Holder s n hash ∨ Clear s (.record hash))
    (hplc : ∀ n job, Placed t n job → Placed s n job ∨ Holds t (.record job.header.keyHash) n)
    (hfls : ∀ path, Needed s path → t.files.lookup path = s.files.lookup path) : Filed t := by
  obtain ⟨g, hg, hfrom⟩ := hrcs
  have hpath : ∀ a, (g a).path = a.path := fun a => (record_pin_eq (hg a)).2.1
  refine ⟨hown, ?_, ?_, ?_, ?_, ?_⟩
  · intro b hb
    obtain ⟨a, ha, rfl⟩ := hfrom b hb
    obtain ⟨file, hfile, hcpt⟩ := h.agrees a ha
    refine ⟨file, ?_, by rw [hcpt, (record_pin_eq (hg a)).2.2]⟩
    rw [hpath, hfls _ (.inl ⟨a, ha, rfl⟩), hfile]
  · intro n job hn
    rcases hplc n job hn with hs | hnow
    · obtain ⟨file, hfile, hcpt⟩ := h.placed n job hs
      exact ⟨file, by rw [hfls _ (.inr ⟨n, job, hs, rfl⟩), hfile], hcpt⟩
    · exact hnow
  · intro n hash hn
    obtain ⟨hfree, hnot⟩ := (hhdr n hash hn).elim (h.clear n hash) id
    refine ⟨fun b hb => ?_, fun hp => ?_⟩
    · obtain ⟨a, ha, rfl⟩ := hfrom b hb
      rw [hpath]
      exact hfree a ha
    · rcases hpen _ hp with hp | ⟨⟨a, ha, heq⟩, -⟩
      · exact hnot hp
      · exact hfree a ha heq
  · intro b hb hp
    rcases hpen _ hp with hp | ⟨-, hne⟩
    · obtain ⟨a, ha, rfl⟩ := hfrom b hb
      rw [hpath] at hp
      exact h.unswept a ha hp
    · exact hne b hb rfl
  · intro b hb b' hb' heq
    obtain ⟨a, ha, rfl⟩ := hfrom b hb
    obtain ⟨a', ha', rfl⟩ := hfrom b' hb'
    rw [hpath, hpath] at heq
    rw [h.paths a ha a' ha' heq]

/-- A step that evicts nothing. -/
theorem of_fields (h : Filed s) (hown : Owned t) (hrcs : RecordsFrom s t)
    (hcap : CapturesLess s t) (hrds : ReadersLess s t) (hsws : SweepsLess s t)
    (hfls : ∀ path, Needed s path → t.files.lookup path = s.files.lookup path) : Filed t := by
  refine h.of_less hown hrcs (fun path hp => .inl (pending_of_less hcap hrds hsws hp)) ?_ ?_ hfls
  · rintro n hash ⟨c, hc, hhd, rfl⟩
    exact .inl ((hcap n c hc).2.1 hhd)
  · rintro n job ⟨c, sg, hc, hsg, hplc⟩
    exact (hcap n c hc).2.2 job sg hsg hplc

/-- An eviction: the paths of the records that leave become pending. -/
theorem of_evicts {gone : List RecordMeta} (h : Filed s) (hown : Owned t)
    (hgone : s.index.Evicts gone t.index)
    (hpen : ∀ path, Pending t path → Pending s path ∨ path ∈ gone.map (·.path))
    (hhdr : ∀ n hash, Holder t n hash → Holder s n hash)
    (hplc : ∀ n job, Placed t n job → Placed s n job) (hfls : t.files = s.files) : Filed t := by
  refine h.of_less hown (.of_subset fun _ => hgone.subset) ?_
    (fun n hash hn => .inl (hhdr n hash hn)) (fun n job hn => .inl (hplc n job hn))
    (fun _ _ => by rw [hfls])
  intro path hp
  refine (hpen path hp).imp_right fun hin => ?_
  obtain ⟨rcd, hrec, rfl⟩ := List.mem_map.mp hin
  have hmem := hgone.indexed rcd hrec
  refine ⟨⟨rcd, hmem, rfl⟩, fun b hb heq => ?_⟩
  obtain ⟨hb', hkept⟩ := (hgone.mem_iff h.keyed).mp hb
  exact hkept (h.paths b hb' rcd hmem heq ▸ hrec)

theorem lookup_sweep (h : Filed s)
    (hsw : sweepStep sweep s.tier s.files = some (sweep', tier, t.files))
    (hpen : ∀ path ∈ sweep.victims, Pending s path) (hned : Needed s path) :
    t.files.lookup path = s.files.lookup path := by
  rcases (sweepStep_spec hsw).2 with heq | ⟨gone, hgone, heq⟩
  · rw [heq]
  · have hne : path ≠ gone := fun heq => h.not_pending hned (heq ▸ hpen gone hgone)
    rw [heq, Table.lookup_erase_ite, if_neg hne]

/-- The index entry of a commit whose file is in place. -/
theorem publish {now : ℕ} {sg : CommitStage} {after : CaptureStage} (h : Filed s) (hown : Owned t)
    (hc : s.captures.lookup n = some c) (hsg : c.stage = .committing job sg) (hin : sg.inPlace)
    (hidx : t.index = (s.index.publish (job.record c.tokens n now)).1)
    (hcap : t.captures = s.captures.insert n { c with stage := after })
    (hdone : after.standing = .done) (hrds : t.readers = s.readers) (hsws : t.sweeps = s.sweeps)
    (hfls : t.files = s.files) : Filed t := by
  have hplc : Placed s n job := ⟨c, sg, hc, hsg, hin⟩
  have hself := hplc.holder h.toOwned
  obtain ⟨hfree, hnot⟩ := h.clear n _ hself
  have hvic : after.victims = [] := by
    cases after with
    | sweeping sweep exh => cases exh <;> cases hdone
    | _ => rfl
  have hless : CapturesLess s t := by
    refine .of_stage hc hcap (by simp [hdone, Standing.holds]) (by simp [hvic]) ?_
    rintro job' st rfl
    cases hdone
  have hpen : ∀ path, Pending t path → Pending s path := fun path =>
    pending_of_less hless (.of_eq hrds) (.of_eq hsws)
  have hhdr : ∀ m hash, Holder t m hash → m ≠ n ∧ Holder s m hash := fun m hash hm =>
    (holder_released hcap (by simp [hdone, Standing.holds])).mp hm
  have hmem := mem_of_publish hidx
  have hhd : ∀ path capture, Holds s path capture → Holds t path capture := by
    rintro path capture ⟨file, hfile, hcpt⟩
    exact ⟨file, hfls ▸ hfile, hcpt⟩
  refine ⟨hown, ?_, ?_, ?_, ?_, ?_⟩
  · intro b hb
    rcases hmem b hb with rfl | hb
    · exact hhd _ _ (h.placed n job hplc)
    · exact hhd _ _ (h.agrees b hb)
  · rintro m job' ⟨d, st, hd, hst, hin'⟩
    rcases (hless m d hd).2.2 job' st hst hin' with hs | hnow
    · exact hhd _ _ (h.placed m job' hs)
    · exact hnow
  · intro m hash hm
    obtain ⟨hne, hm⟩ := hhdr m hash hm
    obtain ⟨hfree', hnot'⟩ := h.clear m hash hm
    refine ⟨fun b hb heq => ?_, fun hp => hnot' (hpen _ hp)⟩
    rcases hmem b hb with rfl | hb
    · -- Another holder of the hash would be the same capture.
      exact hne (h.owner m n hash hm (Path.record.inj heq ▸ hself))
    · exact hfree' b hb heq
  · intro b hb hp
    rcases hmem b hb with rfl | hb
    · exact hnot (hpen _ hp)
    · exact h.unswept b hb (hpen _ hp)
  · intro b hb b' hb' heq
    rcases hmem b hb with rfl | hb
    · rcases hmem b' hb' with rfl | hb'
      · rfl
      · exact absurd heq.symm (hfree b' hb')
    · rcases hmem b' hb' with rfl | hb'
      · exact absurd heq (hfree b hb)
      · exact h.paths b hb b' hb' heq

/-- A reservation of a clear path. -/
theorem reserve (h : Filed s) (hown : Owned t)
    (hcle : Clear s (.record c.header.keyHash)) (hrcs : t.index.records = s.index.records)
    (hcap : t.captures = s.captures.insert n { c with stage := .reserved })
    (hrds : t.readers = s.readers) (hsws : t.sweeps = s.sweeps)
    (hfls : t.files = s.files) : Filed t := by
  refine h.of_less hown (.of_subset (by simp [hrcs])) ?_ ?_ ?_ fun _ _ => by rw [hfls]
  · rintro path (⟨m, d, hd, hpath⟩ | hp)
    · rcases Table.insert_cases hcap hd with ⟨-, rfl⟩ | ⟨-, hd⟩
      · cases hpath
      · exact .inl (.inl ⟨m, d, hd, hpath⟩)
    · rw [hrds, hsws] at hp
      exact .inl (.inr hp)
  · rintro m hash ⟨d, hd, hhd, rfl⟩
    rcases Table.insert_cases hcap hd with ⟨-, rfl⟩ | ⟨-, hd⟩
    · exact .inr hcle
    · exact .inl ⟨d, hd, hhd, rfl⟩
  · rintro m job ⟨d, st, hd, hst, hin⟩
    rcases Table.insert_cases hcap hd with ⟨-, rfl⟩ | ⟨-, hd⟩
    · cases hst
    · exact .inl ⟨d, st, hd, hst, hin⟩

/-- A capture goes on; files change only where nothing needs them. -/
theorem of_capture {sg : CaptureStage} (h : Filed s) (hown : Owned t)
    (hc : s.captures.lookup n = some c) (hrcs : t.index.records = s.index.records)
    (hcap : t.captures = s.captures.insert n { c with stage := sg }) (hrds : t.readers = s.readers)
    (hsws : t.sweeps = s.sweeps) (hhd : sg.standing.holds → c.stage.standing.holds)
    (hvic : ∀ path ∈ sg.victims, path ∈ c.stage.victims)
    (hplc : ∀ job st, sg = .committing job st → st.inPlace →
      ∃ st', c.stage = .committing job st' ∧ st'.inPlace)
    (hfls : ∀ path, Needed s path → t.files.lookup path = s.files.lookup path) : Filed t :=
  h.of_fields hown (.of_subset (by simp [hrcs])) (.of_stage hc hcap hhd hvic hplc)
    (.of_eq hrds) (.of_eq hsws) hfls

/-- A reader goes on. -/
theorem of_reader {old : RecordReader} (h : Filed s) (hown : Owned t)
    (hr : s.readers.lookup r = some old) (hidx : t.index = s.index)
    (hcap : t.captures = s.captures) (hrds : t.readers = s.readers.insert r new)
    (hsws : t.sweeps = s.sweeps) (hvic : ∀ path ∈ new.stage.victims, path ∈ old.stage.victims)
    (hfls : ∀ path, Needed s path → t.files.lookup path = s.files.lookup path) : Filed t :=
  h.of_fields hown (.of_subset (by simp [hidx])) (.of_eq hcap)
    (.of_insert hrds fun path hpath => .inr (.inl ⟨r, old, hr, hvic path hpath⟩)) (.of_eq hsws) hfls

/-- Only the index changes, in place or not at all. -/
theorem of_index (h : Filed s) (hown : Owned t) (hrcs : RecordsFrom s t)
    (hcap : t.captures = s.captures) (hrds : ReadersLess s t)
    (hsws : t.sweeps = s.sweeps) (hfls : t.files = s.files) : Filed t :=
  h.of_fields hown hrcs (.of_eq hcap) hrds (.of_eq hsws) fun _ _ => by rw [hfls]

/-- STEP: a step that reserves only clear paths keeps files and index in agreement. -/
theorem moves {o : Output}
    (h : Filed s) (hcle : ReservesClear s lab) (hmv : Moves crc cfg s lab t o) : Filed t := by
  have hown : Owned t := h.toOwned.shift hmv.shift
  have hsame : ∀ path, Needed s path → s.files.lookup path = s.files.lookup path := fun _ _ => rfl
  cases hmv with
  | refusePlan | miss | electBusy | readRegion => exact h
  | releaseResident => exact h.of_index hown (.of_subset fun _ => id) rfl (.of_eq rfl) rfl rfl
  | plan =>
    exact h.of_fields hown (.of_subset fun _ => id)
      (.of_insert rfl (by simp [CaptureStage.victims])
        (by simp [CaptureStage.standing, Standing.holds]) (by simp)) (.of_eq rfl) (.of_eq rfl) hsame
  | stored hc | rollback hc | abandon hc | cancelReservation hc | promote hc =>
    exact h.of_capture hown hc rfl rfl rfl rfl (by simp [CaptureStage.standing, Standing.holds])
      (by simp [CaptureStage.victims]) (by simp) hsame
  | reserve hc hsg =>
    exact h.reserve hown (hcle _ hc hsg) rfl rfl rfl rfl rfl
  | @enforce n c idx vs exh hc hsg henf =>
    obtain ⟨gone, hgone, rfl, -⟩ := IndexState.enforce_evicts h.keyed le_rfl henf
    refine h.of_evicts hown hgone ?_ ?_ ?_ rfl
    · rintro path (⟨m, d, hd, hpath⟩ | hp)
      · rcases Table.insert_cases rfl hd with ⟨-, rfl⟩ | ⟨-, hd⟩
        · exact .inr hpath
        · exact .inl (.inl ⟨m, d, hd, hpath⟩)
      · exact .inl (.inr hp)
    · rintro m hash hm
      refine (holder_staged hc rfl (by rfl) ?_).mp hm
      rw [hsg]
      cases exh <;> rfl
    · rintro m job ⟨d, st, hd, hst, hin⟩
      rcases Table.insert_cases rfl hd with ⟨-, rfl⟩ | ⟨-, hd⟩
      · cases hst
      · exact ⟨d, st, hd, hst, hin⟩
  | @sweepCapture n c sweep exh sweep' tier files hc hsg hsw =>
    refine h.of_capture hown hc rfl rfl rfl rfl ?_ ?_ (by simp) fun path hned =>
      h.lookup_sweep hsw (fun gone hgone => .inl ⟨n, c, hc, by rw [hsg]; exact hgone⟩) hned
    · rw [hsg]
      cases exh <;> exact id
    · rw [hsg]
      exact (sweepStep_spec hsw).1
  | @sweptCapture n c sweep exh hc hsg =>
    refine h.of_capture hown hc rfl rfl rfl rfl ?_ ?_ ?_ hsame
    · rw [hsg]
      cases exh <;> exact fun _ => rfl
    · cases exh <;> simp [CaptureStage.victims]
    · cases exh <;> simp
  | allocate hc hsg | allocateFail hc hsg | writeRegion hc hsg
  | unprepared hc hsg | bounce hc hsg | enqueue hc hsg | persistFail hc hsg =>
    exact h.of_capture hown hc rfl rfl rfl rfl (by rw [hsg]; exact fun _ => rfl)
      (by simp [CaptureStage.victims]) (by simp) hsame
  | commit hc hsg | receive hc hsg =>
    refine h.of_capture hown hc rfl rfl rfl rfl (by rw [hsg]; exact fun _ => rfl)
      (by simp [CaptureStage.victims]) ?_ hsame
    rintro job st ⟨⟩ hin
    cases hin
  | @persist n c job hc hsg =>
    refine h.of_fields hown (.of_subset fun _ => id)
      (.of_insert rfl (by simp [CaptureStage.victims]) ?_ ?_) (.of_eq rfl) (.of_eq rfl) ?_
    · exact fun _ => ⟨c, hc, by rw [hsg]; rfl, rfl⟩
    · rintro job' st ⟨⟩ -
      exact .inr ⟨_, Finmap.lookup_insert _, rfl⟩
    · exact fun path hned => lookup_insert_of_ne _ (h.ne_of_needed hc hsg rfl hned)
  | persistUnsynced hc hsg =>
    exact h.of_capture hown hc rfl rfl rfl rfl (by rw [hsg]; exact fun _ => rfl)
      (by simp [CaptureStage.victims]) (by simp) fun path hned =>
        lookup_insert_of_ne _ (h.ne_of_needed hc hsg rfl hned)
  | readBack hc hsg sg' =>
    refine h.of_capture hown hc rfl rfl rfl rfl (by rw [hsg]; exact fun _ => rfl)
      (by simp [CaptureStage.victims]) ?_ hsame
    rintro job st ⟨⟩ -
    exact ⟨_, hsg, rfl⟩
  | discard hc hsg =>
    exact h.of_capture hown hc rfl rfl rfl rfl (by rw [hsg]; exact fun _ => rfl)
      (by simp [CaptureStage.victims]) (by simp) fun path hned =>
        lookup_erase_ne (h.ne_of_needed hc hsg rfl hned)
  | publish hc hsg hpub =>
    exact h.publish hown hc hsg rfl (by rw [hpub]; rfl) rfl (standing_afterPublish _ _) rfl
      rfl rfl
  | @close n c hc hsg =>
    refine h.of_fields hown (.of_subset fun _ => id) ?_ (.of_eq rfl) (.of_eq rfl) hsame
    intro m d hd
    exact CapturesLess.of_eq rfl m d (Table.lookup_of_erase hd)
  | hit hfd =>
    obtain ⟨-, hidx⟩ := IndexState.longestPrefix_eq_some hfd
    exact h.of_index hown (.of_update hidx fun _ => rfl) rfl
      (.of_insert rfl (by simp [ReaderStage.victims])) rfl rfl
  | touch => exact h.of_index hown (.of_update rfl fun _ => rfl) rfl (.of_eq rfl) rfl rfl
  | load hr _ _ sg hnx =>
    refine h.of_reader hown hr rfl rfl rfl rfl ?_ hsame
    rcases hnx with rfl | rfl <;> simp [ReaderStage.victims]
  | electHit hr | elected hr | settle hr | settleFail hr | sweptReader hr =>
    exact h.of_reader hown hr rfl rfl rfl rfl (by simp [ReaderStage.victims]) hsame
  | readStep hr =>
    obtain ⟨new, heq, -, hsg, -⟩ := exists_advanceLoad s _ _ _ _
    rw [heq] at hown ⊢
    refine h.of_reader hown hr rfl rfl rfl rfl ?_ hsame
    cases hnew : new.stage with
    | sweeping sweep => exact absurd hnew (hsg sweep)
    | _ => simp [ReaderStage.victims]
  | evict hr hsg hevi =>
    obtain ⟨gone, hgone, hpat, -⟩ := IndexState.evictForIntegrity_evicts hevi
    refine h.of_evicts hown hgone ?_ (fun _ _ => id) (fun _ _ => id) rfl
    rintro path (hp | ⟨m, d, hd, hpath⟩ | hp)
    · exact .inl (.inl hp)
    · rcases Table.insert_cases rfl hd with ⟨-, rfl⟩ | ⟨-, hd⟩
      · exact .inr (hpat ▸ hpath)
      · exact .inl (.inr (.inl ⟨m, d, hd, hpath⟩))
    · exact .inl (.inr (.inr hp))
  | @sweepReader r rd sweep sweep' tier files hr hsg hsw =>
    refine h.of_reader hown hr rfl rfl rfl rfl ?_ fun path hned =>
      h.lookup_sweep hsw (fun gone hgone => .inr (.inl ⟨r, rd, hr, by rw [hsg]; exact hgone⟩)) hned
    rw [hsg]
    exact (sweepStep_spec hsw).1
  | @dropReader r rd hr =>
    refine h.of_index hown (.of_update rfl fun _ => rfl) rfl ?_ rfl rfl
    intro m d hd
    exact ReadersLess.of_eq rfl m d (Table.lookup_of_erase hd)
  | @reclaim now idx vs hrec =>
    obtain ⟨gone, hgone, rfl, -⟩ := IndexState.reclaim_evicts h.keyed hrec
    refine h.of_evicts hown hgone ?_ (fun _ _ => id) (fun _ _ => id) rfl
    rintro path (hp | hp | ⟨k, d, hd, hpath⟩)
    · exact .inl (.inl hp)
    · exact .inl (.inr (.inl hp))
    · rcases Table.insert_cases rfl hd with ⟨-, rfl⟩ | ⟨-, hd⟩
      · exact .inr hpath
      · exact .inl (.inr (.inr ⟨k, d, hd, hpath⟩))
  | @sweep k sweep sweep' tier files hk hsw =>
    refine h.of_fields hown (.of_subset fun _ => id) (.of_eq rfl) (.of_eq rfl) ?_
      fun path hned => h.lookup_sweep hsw (fun gone hgone => .inr (.inr ⟨k, sweep, hk, hgone⟩)) hned
    intro m d hd path hpath
    rcases Table.insert_cases rfl hd with ⟨-, rfl⟩ | ⟨-, hd⟩
    · exact .inr (.inr ⟨k, sweep, hk, (sweepStep_spec hsw).1 path hpath⟩)
    · exact .inr (.inr ⟨m, d, hd, hpath⟩)
  | @swept k sweep hk =>
    refine h.of_fields hown (.of_subset fun _ => id) (.of_eq rfl) (.of_eq rfl) ?_ hsame
    intro m d hd path hpath
    exact .inr (.inr ⟨m, d, Table.lookup_of_erase hd, hpath⟩)

end Filed

end Steps

/-! ### Runs -/

/-- Files of a store as `open` leaves it: each record was read from a file of its own. -/
structure Stocked (s : Sys) : Prop extends Started s where
  files : ∀ record ∈ s.index.records, Holds s record.path record.capture
  paths : ∀ a ∈ s.index.records, ∀ b ∈ s.index.records, a.path = b.path → a = b
  sweeps : s.sweeps = ∅

theorem Stocked.filed (h : Stocked s) : Filed s := by
  have hpen : ∀ path, ¬Pending s path := by
    rintro path (⟨n, c, hc, -⟩ | ⟨r, rd, hr, -⟩ | ⟨k, sweep, hk, -⟩)
    · simp [h.captures] at hc
    · simp [h.readers] at hr
    · simp [h.sweeps] at hk
  refine ⟨h.owned, h.files, ?_, ?_, fun rcd _ => hpen _, h.paths⟩
  · rintro n job ⟨c, sg, hc, -⟩
    simp [h.captures] at hc
  · rintro n hash ⟨c, hc, -⟩
    simp [h.captures] at hc

/-- AGREE: as long as captures reserve only clear paths, every indexed record's path holds the file
    of its own commit, in every state of the run. -/
theorem directory_agrees {crc32 : List UInt8 → UInt32} {config : StoreConfig} {s₀ s : Sys}
    {tr : List (Sys × Label × Output)} (hrun : Run (step crc32 config) s₀ tr s) (h0 : Stocked s₀)
    (hclear : ∀ e ∈ tr, ReservesClear e.1 e.2.1) : (∀ e ∈ tr, Agrees e.1) ∧ Agrees s := by
  have hkeep : ∀ s lab t o, Filed s → ReservesClear s lab →
      step crc32 config s lab = some (t, o) → Filed t :=
    fun _ _ _ _ h hok hst => h.moves hok (step_moves hst)
  refine ⟨fun e he => ?_, ?_⟩
  · exact (hrun.step_of ReservesClear Filed h0.filed hclear hkeep e he).1.agrees
  · exact (hrun.invariant_of ReservesClear Filed h0.filed hclear hkeep).agrees

theorem stocked_empty : Stocked {} :=
  ⟨⟨List.nodup_nil, rfl, rfl, rfl, by simp, by simp, by simp⟩, by simp, by simp, rfl⟩

/-- No eviction has a file left to delete, and no capture is under way. -/
def quiet (s : Sys) : Bool := s.captures.keys = ∅ ∧ s.sweeps.keys = ∅

/-- A reservation in a store that holds nothing else. -/
def reservesAlone (s : Sys) : Label → Bool
  | .reserve n => s.index.records = [] ∧ s.captures.keys = {n} ∧ s.readers.keys = ∅ ∧
      s.sweeps.keys = ∅
  | _ => true

theorem reservesClear_of_alone (h : reservesAlone s lab = true) : ReservesClear s lab := by
  cases lab with
  | reserve n =>
    obtain ⟨hrcs, hcap, hrds, hsws⟩ := of_decide_eq_true h
    intro c hc hsg
    refine ⟨by simp [hrcs], ?_⟩
    rintro (⟨m, d, hd, hpath⟩ | ⟨r, rd, hr, -⟩ | ⟨k, sweep, hk, -⟩)
    · have hm : m ∈ s.captures.keys := Finmap.mem_keys.mpr (mem_of_lookup_eq_some hd)
      rw [hcap, Finset.mem_singleton] at hm
      subst hm
      rw [hc] at hd
      cases hd
      simp [hsg, CaptureStage.victims] at hpath
    · have hm : r ∈ s.readers.keys := Finmap.mem_keys.mpr (mem_of_lookup_eq_some hr)
      simp [hrds] at hm
    · have hm : k ∈ s.sweeps.keys := Finmap.mem_keys.mpr (mem_of_lookup_eq_some hk)
      simp [hsws] at hm
  | _ => trivial

/-- A record is captured, expires with its file and is captured again. -/
theorem directory_agrees_recaptured : ∃ tr s, Run (step (fun _ => 0) (storeOf 40000 (by decide)))
    {} tr s ∧ tr.length = 24 ∧ s.index.records.map (·.capture) = [2] ∧ Agrees s := by
  obtain ⟨tr, s, hrun, hlen, hcpt, haln⟩ := Run.exists_of_exec
    (step (fun _ => 0) (storeOf 40000 (by decide))) {}
    (captureNow 0 7 1 ++ [.reclaim 100, .sweep 1, .sweep 1, .sweep 1] ++ captureNow 2 101 1)
    (fun tr s => tr.length = 24 ∧ s.index.records.map (·.capture) = [2] ∧
      ∀ e ∈ tr, reservesAlone e.1 e.2.1) (by decide +kernel)
  exact ⟨tr, s, hrun, hlen, hcpt, (directory_agrees hrun stocked_empty fun e he =>
    reservesClear_of_alone (haln e he)).2⟩

/-- The expired record's file is deleted only after its key was captured again: the index then has a
    record without a file, with every eviction over, and a lookup finds it. -/
theorem directory_disagrees : ∃ tr s record,
    Run (step (fun _ => 0) (storeOf 40000 (by decide))) {} tr s ∧ quiet s = true ∧
    s.readers.keys = ∅ ∧ s.index.records = [record] ∧ s.files.lookup record.path = none ∧
    (s.index.longestPrefix zeroFingerprint [1] 1 102).isSome = true ∧ ¬Agrees s := by
  obtain ⟨tr, s, hrun, hqt, hrds, hone, hfile, hfd⟩ := Run.exists_of_exec
    (step (fun _ => 0) (storeOf 40000 (by decide))) {}
    (captureNow 0 7 1 ++ [.reclaim 100] ++ captureNow 2 101 1 ++ [.sweep 1, .sweep 1, .sweep 1])
    (fun _ s => quiet s ∧ s.readers.keys = ∅ ∧ s.index.records.length = 1 ∧
      (∀ record ∈ s.index.records, s.files.lookup record.path = none) ∧
      (s.index.longestPrefix zeroFingerprint [1] 1 102).isSome) (by decide +kernel)
  obtain ⟨record, hrcs⟩ := List.length_eq_one_iff.mp hone
  have hmem : record ∈ s.index.records := by simp [hrcs]
  refine ⟨tr, s, record, hrun, hqt, hrds, hrcs, hfile record hmem, hfd, ?_⟩
  intro hagr
  obtain ⟨file, hthe, -⟩ := hagr record hmem
  rw [hfile record hmem] at hthe
  cases hthe

end LetsInfer.PrefixStore
