import LetsInfer.PrefixStore.Readback

/-! @src cache/letsinfer_prefix_store/src/store.rs | name:Surviving a restart | scheme:recovery

    A capture that was committed, with nothing else deleting files meanwhile, is in the directory as
    its writer left it. A store opened on that directory indexes it again, finds it and reads every
    region back, unless the record has more tokens than `read_header_and_tokens` accepts: a capture
    does not know that bound, so such a record is committed, and deleted by the next `open`. -/

namespace LetsInfer.PrefixStore
open Schemes List

variable {files : Table Path File} {buffer : Blob} {e : Sys × Label × Output}
  {crc : List UInt8 → UInt32} {cfg : StoreConfig} {s : Sys} {n region : ℕ} {c : Capture}
  {job : PreparedCommit} {tr : List (Sys × Label × Output)} {ts : List UInt32}
  {fp : Fingerprint} {file : File} {hdr : RecordHeader}

section Steps

variable {t : Sys} {lab : Label} {o : Output} {c' : Capture} {sg : CaptureStage}

/-! ### Where captures and files come from -/

/-- The call that prepares the job of a capture from its writer's buffer. -/
def CommitCall (crc32 : List UInt8 → UInt32) (s : Sys) (label : Label) (n : ℕ) (c : Capture)
    (buffer : Blob) (job : PreparedCommit) : Prop :=
  s.captures.lookup n = some { c with stage := .writing buffer } ∧
    ∃ promote, (label = .commit n ∨ label = .commitAsync n promote) ∧
      prepare crc32 c.header buffer promote = some job

/-- What a step makes of a capture: it keeps its plan, and a job is kept or prepared. -/
def CaptureFrom (crc32 : List UInt8 → UInt32) (config : StoreConfig) (s : Sys) (label : Label)
    (n : ℕ) (c' : Capture) : Prop :=
  (∃ c, s.captures.lookup n = some c ∧ c'.header = c.header ∧ c'.tokens = c.tokens ∧
    ∀ job, c'.stage.job = some job → c.stage.job = some job ∨
      ∃ buffer, CommitCall crc32 s label n c' buffer job) ∨
  ∃ fingerprint regions, planCapture config fingerprint c'.tokens regions = .ok c'.header ∧
    c'.stage = .planned

theorem captureFrom_eq (hcap : t.captures = s.captures) :
    ∀ m d, t.captures.lookup m = some d → CaptureFrom crc cfg s lab m d := by
  intro m d hd
  rw [hcap] at hd
  exact .inl ⟨d, hd, rfl, rfl, fun job hjob => .inl hjob⟩

theorem captureFrom_stage (hc : s.captures.lookup n = some c)
    (hcap : t.captures = s.captures.insert n { c with stage := sg })
    (hjob : ∀ job, sg.job = some job → c.stage.job = some job ∨
      ∃ buffer, CommitCall crc s lab n { c with stage := sg } buffer job) :
    ∀ m d, t.captures.lookup m = some d → CaptureFrom crc cfg s lab m d := by
  intro m d hd
  rw [hcap, Table.lookup_insert_ite] at hd
  split_ifs at hd with hm
  · subst hm
    cases hd
    exact .inl ⟨c, hc, rfl, rfl, hjob⟩
  · exact .inl ⟨d, hd, rfl, rfl, fun job hjob => .inl hjob⟩

/-- STEP: every capture after a step comes from one before it, or is newly planned. -/
theorem Moves.captures_from (h : Moves crc cfg s lab t o) :
    ∀ m d, t.captures.lookup m = some d → CaptureFrom crc cfg s lab m d := by
  cases h with
  | refusePlan | miss | electBusy | readRegion | releaseResident | hit | touch | load | electHit
  | elected | settle | settleFail | evict | sweepReader | sweptReader | dropReader | reclaim | sweep
  | swept => exact captureFrom_eq rfl
  | readStep =>
    obtain ⟨new, heq, -⟩ := exists_advanceLoad s _ _ _ _
    rw [heq]
    exact captureFrom_eq rfl
  | plan hplan =>
    intro m d hd
    rcases Table.insert_cases rfl hd with ⟨-, rfl⟩ | ⟨-, hd⟩
    · exact .inr ⟨_, _, hplan, rfl⟩
    · exact .inl ⟨d, hd, rfl, rfl, fun job hjob => .inl hjob⟩
  | stored hc | reserve hc | enforce hc | sweepCapture hc | rollback hc | allocate hc
  | allocateFail hc | writeRegion hc | abandon hc | unprepared hc | bounce hc | persistUnsynced hc
  | persistFail hc | discard hc | cancelReservation hc | promote hc =>
    exact captureFrom_stage hc rfl (by simp [CaptureStage.job])
  | @sweptCapture _ _ _ exh hc =>
    refine captureFrom_stage hc rfl ?_
    cases exh <;> simp [CaptureStage.job]
  | @publish _ _ job blob _ _ _ hc =>
    refine captureFrom_stage hc rfl ?_
    unfold afterPublish
    split <;> simp [CaptureStage.job]
  | receive hc hsg | persist hc hsg | readBack hc hsg =>
    refine captureFrom_stage hc rfl ?_
    rintro job ⟨⟩
    exact .inl (by rw [hsg]; rfl)
  | @commit n c bs job hc hsg hjob =>
    refine captureFrom_stage hc rfl ?_
    rintro job ⟨⟩
    exact .inr ⟨bs, by rw [hc]; simp [← hsg], true, .inl rfl, hjob⟩
  | @enqueue n c bs promote job hc hsg hjob =>
    refine captureFrom_stage hc rfl ?_
    rintro job ⟨⟩
    exact .inr ⟨bs, by rw [hc]; simp [← hsg], promote, .inr rfl, hjob⟩
  | close hc =>
    intro m d hd
    exact .inl ⟨d, Table.lookup_of_erase hd, rfl, rfl, fun job hjob => .inl hjob⟩

/-- A file after a step was there before, or is that of a commit. -/
def FileFrom (s : Sys) (path : Path) (file : File) : Prop :=
  s.files.lookup path = some file ∨ ∃ n c job, s.captures.lookup n = some c ∧
    c.stage.job = some job ∧ path = .record job.header.keyHash ∧ file = ⟨job.bytes, n⟩

theorem fileFrom_insert (hc : s.captures.lookup n = some c) (hjob : c.stage.job = some job)
    (hfls : t.files = s.files.insert (.record job.header.keyHash) ⟨job.bytes, n⟩) :
    ∀ path file, t.files.lookup path = some file → FileFrom s path file := by
  intro path file hfile
  rw [hfls, Table.lookup_insert_ite] at hfile
  split_ifs at hfile with hpath
  · exact .inr ⟨n, c, job, hc, hjob, hpath, (Option.some.inj hfile).symm⟩
  · exact .inl hfile

theorem fileFrom_erase {gone : Path} (hfls : t.files = s.files.erase gone) :
    ∀ path file, t.files.lookup path = some file → FileFrom s path file := by
  intro path file hfile
  exact .inl (Table.lookup_of_erase (hfls ▸ hfile))

theorem fileFrom_sweep {sweep sweep' : Sweep} {tier : TierState}
    (h : sweepStep sweep s.tier s.files = some (sweep', tier, files)) (hfls : t.files = files) :
    ∀ path file, t.files.lookup path = some file → FileFrom s path file := by
  rcases (sweepStep_spec h).2 with heq | ⟨gone, -, heq⟩
  · intro path file hfile
    rw [hfls, heq] at hfile
    exact .inl hfile
  · exact fileFrom_erase (hfls.trans heq)

/-- STEP: every file after a step was there, or is the file of a commit. -/
theorem Moves.files_from (h : Moves crc cfg s lab t o) :
    ∀ path file, t.files.lookup path = some file → FileFrom s path file := by
  cases h with
  | persist hc hsg | persistUnsynced hc hsg =>
    exact fileFrom_insert hc (by rw [hsg]; rfl) rfl
  | discard => exact fileFrom_erase rfl
  | sweepCapture _ _ hsw | sweepReader _ _ hsw | sweep _ hsw =>
    exact fileFrom_sweep hsw rfl
  | readStep =>
    obtain ⟨new, heq, -⟩ := exists_advanceLoad s _ _ _ _
    rw [heq]
    exact fun path file => .inl
  | _ => exact fun path file => .inl

/-! ### The directory of a run -/

/-- Every readable file of the directory is under the path of its key hash. -/
def NamedFiles (crc32 : List UInt8 → UInt32) (files : Table Path File) : Prop :=
  ∀ path file, files.lookup path = some file → ∀ header tokens,
    Readable crc32 file.bytes header tokens → path = .record header.keyHash

/-- What a run keeps about its captures and its directory. -/
structure Sourced (crc32 : List UInt8 → UInt32) (config : StoreConfig)
    (tr : List (Sys × Label × Output)) (s : Sys) : Prop where
  planned : ∀ n c, s.captures.lookup n = some c →
    ∃ fingerprint regions, planCapture config fingerprint c.tokens regions = .ok c.header
  writing : Writing s
  jobs : ∀ n c job, s.captures.lookup n = some c → c.stage.job = some job → ∃ e ∈ tr, ∃ buffer,
    CommitCall crc32 e.1 e.2.1 n c buffer job ∧ Written c.header c.tokens buffer
  named : NamedFiles crc32 s.files

/-- The plan of a capture, as its writer and its job have it. -/
theorem CommitCall.congr (h : CommitCall crc s lab n c buffer job) (hhdr : c'.header = c.header)
    (htok : c'.tokens = c.tokens) : CommitCall crc s lab n c' buffer job := by
  obtain ⟨hc, promote, hlb, hjob⟩ := h
  refine ⟨?_, promote, hlb, hhdr ▸ hjob⟩
  rw [hc, hhdr, htok]

theorem Sourced.intact (h : Sourced crc cfg tr s) (hc : s.captures.lookup n = some c)
    (hjob : c.stage.job = some job) : Intact crc job.header c.tokens job.bytes := by
  obtain ⟨fp, rgs, hplan⟩ := h.planned n c hc
  obtain ⟨-, hfpr, hhash, -⟩ := planCapture_ok hplan
  obtain ⟨e, -, buffer, ⟨-, promote, -, hprp⟩, hwrt⟩ := h.jobs n c job hc hjob
  have hpre := (prepare_spec hwrt.canonical hwrt.length_eq hprp).1
  exact hpre.intact hwrt (by rw [hfpr, hhash])

/-- STEP: a step keeps captures and directory sourced. -/
theorem Sourced.step (h : Sourced crc cfg tr s) (hst : step crc cfg s lab = some (t, o)) :
    Sourced crc cfg (tr ++ [(s, lab, o)]) t := by
  have hmv := step_moves hst
  refine ⟨?_, h.writing.moves hmv, ?_, ?_⟩
  · intro n c hc
    rcases hmv.captures_from n c hc with ⟨d, hd, hhdr, htok, -⟩ | ⟨_, _, hplan, -⟩
    · rw [hhdr, htok]
      exact h.planned n d hd
    · exact ⟨_, _, hplan⟩
  · intro n c job hc hjob
    rcases hmv.captures_from n c hc with ⟨d, hd, hhdr, htok, hfrom⟩ | ⟨_, _, -, hpln⟩
    · rcases hfrom job hjob with hold | ⟨buffer, hcall⟩
      · obtain ⟨e, he, buffer, hcall, hwrt⟩ := h.jobs n d job hd hold
        refine ⟨e, mem_append_left _ he, buffer, hcall.congr hhdr htok, ?_⟩
        rwa [hhdr, htok]
      · obtain ⟨-, -, hwrt⟩ := h.writing n _ hcall.1
        exact ⟨(s, lab, o), by simp, buffer, hcall, hwrt buffer rfl⟩
    · rw [hpln] at hjob
      cases hjob
  · intro path file hfile hdr ts hread
    rcases hmv.files_from path file hfile with hold | ⟨n, c, job, hc, hjob, rfl, rfl⟩
    · exact h.named path file hold hdr ts hread
    · rw [(h.intact hc hjob).header_of_readable hread]

/-! ### The file of a commit -/

/-- The label belongs to no other capture, and deletes nothing for an eviction of its own. -/
def Label.spares (n : ℕ) : Label → Bool
  | .sweep _ | .sweepReader _ => false
  | label => label.capture = none ∨ label.capture = some n

theorem Label.eq_of_spares {m : ℕ} (h : lab.spares n) (hcpt : lab.capture = some m) : m = n := by
  unfold Label.spares at h
  split at h
  · cases h
  · cases h
  · rcases of_decide_eq_true h with hno | hsome
    · rw [hno] at hcpt
      cases hcpt
    · exact Option.some.inj (hcpt.symm.trans hsome)

def InPlace (s : Sys) (n : ℕ) (job : PreparedCommit) : Prop :=
  s.files.lookup (.record job.header.keyHash) = some ⟨job.bytes, n⟩

/-- The section of `commit_prepared` that indexes the job of a capture. -/
def Publishes (s : Sys) (label : Label) (n : ℕ) (c : Capture) (job : PreparedCommit) : Prop :=
  (∃ now, label = .publish n now) ∧ s.captures.lookup n = some c ∧
    ∃ blob, c.stage = .committing job (.publishing blob)

def CaptureStage.isOver : CaptureStage → Bool
  | .promoting _ _ | .closing => true
  | _ => false

/-- From its rename on the file of a capture stays. -/
structure Kept (n : ℕ) (tr : List (Sys × Label × Output)) (s : Sys) : Prop extends Owned s where
  placed : ∀ c job stage, s.captures.lookup n = some c → c.stage = .committing job stage →
    stage.inPlace → InPlace s n job
  published : ∀ e ∈ tr, ∀ c job, Publishes e.1 e.2.1 n c job → InPlace s n job ∧ n < s.next ∧
    ∀ d, s.captures.lookup n = some d → d.stage.isOver

section Keeping

/-- A publication is not the last step when that has another label. -/
theorem mem_of_publishes (he : e ∈ tr ++ [(s, lab, o)])
    (hpbs : Publishes e.1 e.2.1 n c job) (hlb : ∀ now, lab ≠ .publish n now) : e ∈ tr := by
  rcases mem_snoc.mp he with he | rfl
  · exact he
  · obtain ⟨⟨now, hnow⟩, -⟩ := hpbs
    exact absurd hnow (hlb now)

theorem Kept.of_same (h : Kept n tr s) (hown : Owned t) (hfls : t.files = s.files)
    (hcpt : t.captures.lookup n = s.captures.lookup n) (hnx : s.next ≤ t.next)
    (hlb : ∀ now, lab ≠ .publish n now) : Kept n (tr ++ [(s, lab, o)]) t := by
  refine ⟨hown, ?_, ?_⟩
  · intro c job sg hc
    rw [InPlace, hfls]
    exact h.placed c job sg (hcpt ▸ hc)
  · intro e he c job hpbs
    obtain ⟨hplc, hbel, hover⟩ :=
      h.published e (mem_of_publishes he hpbs hlb) c job hpbs
    rw [InPlace, hfls, hcpt]
    exact ⟨hplc, hbel.trans_le hnx, hover⟩

/-- A step of the capture before its record is indexed. -/
theorem Kept.of_stage (h : Kept n tr s) (hown : Owned t) (hc : s.captures.lookup n = some c)
    (hact : c.stage.isOver = false) (hcap : t.captures = s.captures.insert n { c with stage := sg })
    (hplc : ∀ job st, sg = .committing job st → st.inPlace → InPlace t n job)
    (hlb : ∀ now, lab ≠ .publish n now) : Kept n (tr ++ [(s, lab, o)]) t := by
  refine ⟨hown, ?_, ?_⟩
  · intro d job st hd hst hin
    rw [hcap, Table.lookup_insert_ite, if_pos rfl] at hd
    cases hd
    exact hplc job st hst hin
  · intro e he d job hpbs
    obtain ⟨-, -, hover⟩ := h.published e (mem_of_publishes he hpbs hlb) d job hpbs
    rw [hover c hc] at hact
    cases hact

theorem not_committing {st : CommitStage} (hover : sg.isOver)
    (hsg : sg = .committing job st) : False := by
  rw [hsg] at hover
  cases hover

/-- A step of the capture after its record is indexed. -/
theorem Kept.of_over (h : Kept n tr s) (hown : Owned t) (hfls : t.files = s.files)
    (hover : ∀ d, t.captures.lookup n = some d → d.stage.isOver) (hnx : t.next = s.next)
    (hlb : ∀ now, lab ≠ .publish n now) : Kept n (tr ++ [(s, lab, o)]) t := by
  refine ⟨hown, fun d job st hd hst => (not_committing (hover d hd) hst).elim, ?_⟩
  intro e he d job hpbs
  obtain ⟨hplc, hbel, -⟩ :=
    h.published e (mem_of_publishes he hpbs hlb) d job hpbs
  rw [InPlace, hfls, hnx]
  exact ⟨hplc, hbel, hover⟩

/-- STEP: a sparing step keeps the file of the capture. -/
theorem Kept.step (h : Kept n tr s) (hspa : lab.spares n)
    (hste : step crc cfg s lab = some (t, o)) : Kept n (tr ++ [(s, lab, o)]) t := by
  have hmv := step_moves hste
  have hown := h.toOwned.shift hmv.shift
  have hself : ∀ (s : Sys) (c : Capture) (sg : CaptureStage) (d : Capture),
      (s.setStage n c sg).captures.lookup n = some d → d.stage = sg := by
    intro s c sg d hd
    rw [Sys.setStage, Finmap.lookup_insert] at hd
    rw [← Option.some.inj hd]
  cases hmv with
  | sweepReader | sweptReader | sweep | swept => cases hspa
  | refusePlan | miss | electBusy | readRegion | releaseResident | touch | load | electHit | elected
  | settle | settleFail | evict | dropReader => exact h.of_same hown rfl rfl le_rfl (by simp)
  | hit | reclaim => exact h.of_same hown rfl rfl (Nat.le_succ _) (by simp)
  | readStep =>
    obtain ⟨new, heq, -⟩ := exists_advanceLoad s _ _ _ _
    rw [heq] at hown ⊢
    exact h.of_same hown rfl rfl le_rfl (by simp)
  | plan hplan =>
    by_cases hn : n = s.next
    · -- The number is new: nothing was published under it.
      subst hn
      refine ⟨hown, ?_, ?_⟩
      · intro c job sg hc hsg
        rw [Finmap.lookup_insert] at hc
        cases hc
        cases hsg
      · intro e he c job hpbs
        have hear := mem_of_publishes he hpbs (by simp)
        exact absurd (h.published e hear c job hpbs).2.1 (lt_irrefl _)
    · refine h.of_same hown rfl ?_ (Nat.le_succ _) (by simp)
      simp only [Table.lookup_insert_ite, if_neg hn]
  | @unprepared m _ _ lab hc hsg hlb =>
    obtain rfl : m = n := by
      rcases hlb with rfl | ⟨promote, rfl⟩ <;> exact Label.eq_of_spares hspa rfl
    refine h.of_stage hown hc (by rw [hsg]; rfl) rfl (by simp) ?_
    rcases hlb with rfl | ⟨promote, rfl⟩ <;> simp
  | stored hc hsg | reserve hc hsg | enforce hc hsg | rollback hc hsg
  | allocate hc hsg | allocateFail hc hsg | writeRegion hc hsg | abandon hc hsg
  | commit hc hsg | enqueue hc hsg | bounce hc hsg | persistUnsynced hc hsg
  | persistFail hc hsg | sweepCapture hc hsg | discard hc hsg
  | cancelReservation hc hsg =>
    obtain rfl := Label.eq_of_spares hspa rfl
    exact h.of_stage hown hc (by rw [hsg]; rfl) rfl (by simp [CommitStage.inPlace]) (by simp)
  | @sweptCapture _ _ _ exh hc hsg =>
    obtain rfl := Label.eq_of_spares hspa rfl
    refine h.of_stage hown hc (by rw [hsg]; rfl) rfl ?_ (by simp)
    cases exh <;> simp
  | @receive m _ _ hc hsg =>
    by_cases hm : m = n
    · subst hm
      exact h.of_stage hown hc (by rw [hsg]; rfl) rfl (by simp [CommitStage.inPlace]) (by simp)
    · refine h.of_same hown rfl ?_ le_rfl (by simp)
      simp only [Sys.setStage, Table.lookup_insert_ite, if_neg (Ne.symm hm)]
  | persist hc hsg =>
    obtain rfl := Label.eq_of_spares hspa rfl
    refine h.of_stage hown hc (by rw [hsg]; rfl) rfl ?_ (by simp)
    rintro job st ⟨⟩ -
    exact Finmap.lookup_insert _
  | readBack hc hsg sg' hread =>
    obtain rfl := Label.eq_of_spares hspa rfl
    refine h.of_stage hown hc (by rw [hsg]; rfl) rfl ?_ (by simp)
    rintro job st ⟨⟩ -
    exact h.placed _ _ _ hc hsg rfl
  | @publish m c job blob now _ _ hc hsg =>
    obtain rfl := Label.eq_of_spares hspa rfl
    have hplc : InPlace s m job := h.placed _ _ _ hc hsg rfl
    have hover : (afterPublish job blob).isOver = true := by
      unfold afterPublish
      split <;> rfl
    have haft : ∀ (s : Sys) (d : Capture),
        (s.setStage m c (afterPublish job blob)).captures.lookup m = some d → d.stage.isOver := by
      intro s d hd
      rwa [hself _ _ _ d hd]
    refine ⟨hown, fun d job' st hd hst => (not_committing (haft _ d hd) hst).elim, ?_⟩
    intro e he d job' hpbs
    rcases mem_snoc.mp he with he | rfl
    · exact (not_committing ((h.published e he d job' hpbs).2.2 c hc) hsg).elim
    · obtain ⟨-, hd, blob', hst⟩ := hpbs
      rw [hc] at hd
      cases hd
      rw [hsg] at hst
      cases hst
      exact ⟨hplc, h.numbered _ _ hc, haft _⟩
  | promote hc hsg =>
    obtain rfl := Label.eq_of_spares hspa rfl
    refine h.of_over hown rfl (fun d hd => ?_) rfl (by simp)
    rw [hself _ _ _ d hd]
    rfl
  | close hc hsg =>
    obtain rfl := Label.eq_of_spares hspa rfl
    refine h.of_over hown rfl (fun d hd => ?_) rfl (by simp)
    simp at hd

end Keeping

end Steps

/-! ### Restarts -/

/-- A listing of the directory, in any order and with any times. -/
structure Lists (files : Table Path File) (entries : List DirEntry) : Prop where
  paths : DistinctKeys DirEntry.path entries
  listed : ∀ entry ∈ entries, ∃ file, files.lookup entry.path = some file ∧
    file.bytes = entry.bytes
  complete : ∀ path file, files.lookup path = some file →
    ∃ entry ∈ entries, entry.path = path ∧ entry.bytes = file.bytes

/-- The record is indexed with its header and tokens. A lookup of an extension of the tokens reaches
    it, unless a longer record is a prefix of the extension too; and where it reaches it, a load and
    a read of any region give what the region was in the buffer. -/
def Survives (crc32 : List UInt8 → UInt32) (config : StoreConfig) (t : Sys) (header : RecordHeader)
    (tokens : List UInt32) (buffer : Blob) : Prop :=
  ∃ record ∈ t.index.records, record.header = header ∧ record.tokens = tokens ∧
    ∀ extra minimum now, minimum ≤ tokens.length →
      ∃ found index, t.index.longestPrefix header.fingerprint (tokens ++ extra) minimum now =
          some (found, index) ∧
        (tokens.length < found.tokens.length ∧ found.tokens <+: tokens ++ extra ∨
          found = record ∧ ∀ region range, header.regionRange region = some range → ∃ u,
            RunOf crc32 config t (.lookup header.fingerprint (tokens ++ extra) minimum now ::
              loadLabels config header t.next) u ∧
            step crc32 config u (.readRegion t.next region (range.stop - range.start)) =
              some (u, .region (slice buffer range)))

section Restart

variable {cfg' : StoreConfig} {s₀ : Sys} {es : List DirEntry}

/-- RUN: captures and directory of a run. -/
theorem sourced_of_run (hrun : Run (step crc cfg) s₀ tr s) (h0 : Started s₀)
    (hnmd : NamedFiles crc s₀.files) : Sourced crc cfg tr s := by
  induction hrun with
  | nil =>
    exact ⟨by simp [h0.captures], by simp [Writing, h0.captures], by simp [h0.captures], hnmd⟩
  | snoc _ hst ih => exact ih.step hst

/-- RUN: the file of a capture in a run that spares it. -/
theorem kept_of_run (hrun : Run (step crc cfg) s₀ tr s) (h0 : Started s₀)
    (hspa : ∀ e ∈ tr, e.2.1.spares n) : Kept n tr s := by
  induction hrun with
  | nil => exact ⟨h0.owned, by simp [h0.captures], by simp⟩
  | snoc _ hst ih =>
    refine (ih fun e he => hspa e (mem_append_left _ he)).step ?_ hst
    exact hspa _ mem_concat_self

theorem Lists.wellNamed (h : Lists files es) (hnmd : NamedFiles crc files) : WellNamed crc es := by
  intro ent hen hdr ts hread
  obtain ⟨file, hfile, hbs⟩ := h.listed ent hen
  exact hnmd ent.path file hfile hdr ts (hbs ▸ hread)

variable {range : ByteRange}

theorem step_readRegion {u : Sys} {r : ℕ} {rd : RecordReader}
    {blob : Blob} (h : Intact crc rd.header ts blob)
    (hr : u.readers.lookup r = some { rd with blob := some blob })
    (hidle : rd.stage = .idle) (hrg : rd.header.regionRange region = some range) :
    step crc cfg u (.readRegion r region (range.stop - range.start)) =
      some (u, .region (slice blob range)) := by
  have hstop := h.region_fits hrg
  have hstr := (h.canonical.region_fits hrg).1
  have hrgn : ∃ desc, rd.header.regions[region]? = some desc ∧
      range.stop - range.start = desc.byteCount := by
    unfold RecordHeader.regionRange at hrg
    split at hrg
    · rename_i off desc _ hdes
      cases hrg
      exact ⟨desc, hdes, Nat.add_sub_cancel_left _ _⟩
    · cases hrg
  obtain ⟨desc, hdes, hlen⟩ := hrgn
  simp [step, Label.capture, Label.reader, hr, Sys.readerStep, hidle, RecordReader.region,
    hdes, hrg, hlen, hstr, hstop]

variable {rcd : RecordMeta}

/-- READ BACK: where a lookup reaches a committed record that is not resident, the reader it opens
    reads every region of the file. -/
theorem lookup_and_read {idx : IndexState} {mn now : ℕ}
    (hfd : s.index.longestPrefix fp ts mn now = some (rcd, idx))
    (h : Intact crc rcd.header rcd.tokens file.bytes)
    (hcnt : rcd.tokens.length ≤ maxTokenCount) (hfile : s.files.lookup rcd.path = some file)
    (hrsd : s.tier = {}) (hrg : rcd.header.regionRange region = some range) :
    ∃ u, RunOf crc cfg s (.lookup fp ts mn now :: loadLabels cfg rcd.header s.next) u ∧
      step crc cfg u (.readRegion s.next region (range.stop - range.start)) =
        some (u, .region (slice file.bytes range)) := by
  obtain ⟨rd, hrdr⟩ : ∃ rd : RecordReader, rd =
      ⟨rcd.header, rcd.path, rcd.tokens, none, .idle, rcd.capture⟩ := ⟨_, rfl⟩
  obtain ⟨m, hlk, hr, hmfi, hmti⟩ : ∃ m, step crc cfg s
      (.lookup fp ts mn now) = some (m, .hit s.next) ∧
      m.readers.lookup s.next = some rd ∧ m.files = s.files ∧ m.tier = s.tier := by
    simp only [step, Label.capture, Label.reader, Sys.openStep, hfd, hrdr]
    exact ⟨_, rfl, Finmap.lookup_insert _, rfl, rfl⟩
  have hhdr : rd.header = rcd.header := by rw [hrdr]
  have hpath : rd.path = rcd.path := by rw [hrdr]
  have hidle : rd.stage = .idle := by rw [hrdr]
  rw [← hhdr] at h hrg ⊢
  have hload : ∃ u, RunOf crc cfg m (loadLabels cfg rd.header s.next) u ∧
      u.readers.lookup s.next = some { rd with blob := some file.bytes } :=
    h.load hcnt hr hidle (by rw [hrdr]) (by rw [hmfi, hpath, hfile])
      (by simp [hmti, hrsd]) (by simp [hmti, hrsd])
  obtain ⟨u, hrun, hu⟩ := hload
  exact ⟨u, .cons hlk hrun, step_readRegion h hu hidle hrg⟩

/-- A committed record that is listed survives an `open` that has room for the directory. -/
theorem survives_of_listed {ent : DirEntry}
    (h : Intact crc hdr ts ent.bytes) (hcnt : ts.length ≤ maxTokenCount)
    (hen : ent ∈ es) (hpat : DistinctKeys DirEntry.path es) (hnmd : WellNamed crc es)
    (hbuf : ∀ region range, hdr.regionRange region = some range →
      slice ent.bytes range = slice buffer range) :
    Survives crc cfg (es.foldl (Sys.visit crc) {}) hdr ts buffer := by
  have hscan := scanned_of_visits hpat hnmd
  obtain ⟨number, hmem, hfile⟩ := hscan.found ent hen hdr ts (h.readable hcnt)
  refine ⟨_, hmem, rfl, rfl, ?_⟩
  intro extra mn now hmin
  obtain ⟨found, idx, hfd, hrea⟩ := longestPrefix_extends hscan.keyed hmem h.count h.hash
    extra mn now hmin
  refine ⟨found, idx, hfd, hrea.symm.imp_right ?_⟩
  rintro rfl
  refine ⟨rfl, fun region range hrg => ?_⟩
  obtain ⟨u, hrun, hread⟩ := lookup_and_read hfd h hcnt hfile hscan.resident hrg
  exact ⟨u, hrun, by rw [hread, hbuf region range hrg]⟩

theorem exists_commitCall (hrun : Run (step crc cfg) s₀ tr s) (h0 : Started s₀)
    (hnmd : NamedFiles crc s₀.files) (he : e ∈ tr) (hpub : Publishes e.1 e.2.1 n c job) :
    Intact crc job.header c.tokens job.bytes ∧
      ∃ e' ∈ tr, ∃ buffer, CommitCall crc e'.1 e'.2.1 n c buffer job ∧
        Written c.header c.tokens buffer := by
  obtain ⟨-, hc, blob, hsg⟩ := hpub
  obtain ⟨tr', hbef, hsub, -⟩ := hrun.before he
  have hsou := sourced_of_run hbef h0 hnmd
  have hjob : c.stage.job = some job := by rw [hsg]; rfl
  obtain ⟨e', he', hcall⟩ := hsou.jobs n c job hc hjob
  exact ⟨hsou.intact hc hjob, e', hsub he', hcall⟩

/-- RESTART: a capture that was published in a run that spares its file survives an `open` of the
    directory, with room for all of it, exactly if it has no more tokens than
    `read_header_and_tokens` accepts. -/
theorem survives_restart_iff {e : Sys × Label × Output} (hrun : Run (step crc cfg) s₀ tr s)
    (h0 : Started s₀) (hnamed : NamedFiles crc s₀.files) (hspared : ∀ e ∈ tr, e.2.1.spares n)
    (he : e ∈ tr) (hpublished : Publishes e.1 e.2.1 n c job) (hlists : Lists s.files es)
    (hroom : cfg'.capacityBytes = 0 ∨
      (es.map fun entry => entry.bytes.length).sum ≤ cfg'.capacityBytes) :
    ∃ buffer, (∃ e' ∈ tr, CommitCall crc e'.1 e'.2.1 n c buffer job) ∧
      ((∃ t, openStore crc cfg' es = some t ∧
        Survives crc cfg' t job.header c.tokens buffer) ↔ c.tokens.length ≤ maxTokenCount) := by
  have hwell := hlists.wellNamed (sourced_of_run hrun h0 hnamed).named
  obtain ⟨hplc, -, -⟩ := (kept_of_run hrun h0 hspared).published e he c job hpublished
  obtain ⟨entry, hen, -, hbs⟩ := hlists.complete _ _ hplc
  obtain ⟨hint, e', he', buffer, hcall, hwrt⟩ :=
    exists_commitCall hrun h0 hnamed he hpublished
  refine ⟨buffer, ⟨e', he', hcall⟩, ?_⟩
  constructor
  · rintro ⟨t, hopen, rcd, hmem, hhdr, -⟩
    rw [← hint.count, ← hhdr]
    exact tokenCount_le_of_open hopen rcd hmem
  · intro hcnt
    have hopen := openStore_of_room hlists.paths hwell hroom
    refine ⟨_, hopen, survives_of_listed (hbs ▸ hint) hcnt hen hlists.paths hwell ?_⟩
    intro region range hrg
    obtain ⟨-, promote, -, hprp⟩ := hcall
    have hpre := (prepare_spec hwrt.canonical hwrt.length_eq hprp).1
    rw [hbs]
    exact hpre.region_eq hwrt.canonical (hpre.regionRange_eq region ▸ hrg)

end Restart

/-! ### A capture by itself -/

section Alone

variable {rgs : List RegionDescription}

theorem exists_mapM {α β : Type} {f : α → Option β} {l : List α} (h : ∀ a ∈ l, ∃ b, f a = some b) :
    ∃ bs, l.mapM f = some bs ∧ bs.length = l.length := by
  induction l with
  | nil => exact ⟨[], rfl, rfl⟩
  | cons a l ih =>
    obtain ⟨b, hb⟩ := h a mem_cons_self
    obtain ⟨bs, hbs, hlen⟩ := ih fun x hx => h x (mem_cons_of_mem _ hx)
    exact ⟨b :: bs, by simp [mapM_cons, hb, hbs], by simp [hlen]⟩

theorem exists_prepare (h : Canonical hdr) (bs : Blob) (promote : Bool) :
    ∃ job, prepare crc hdr bs promote = some job := by
  obtain ⟨checksums, hche, hlen⟩ : ∃ checksums,
      regionChecksums crc hdr bs = some checksums ∧
        checksums.length = (List.range hdr.regions.length).length := by
    refine exists_mapM fun idx hidx => ?_
    obtain ⟨range, hrg⟩ := h.isSome_regionRange (mem_range.mp hidx)
    exact ⟨_, by rw [hrg]; rfl⟩
  rw [length_range] at hlen
  simp [prepare, hche, RecordHeader.encode, hlen]

/-- The calls of a capture up to the section that indexes it. -/
def captureCalls (fingerprint : Fingerprint) (tokens : List UInt32)
    (regions : List RegionDescription) : List Label :=
  [.beginCapture fingerprint tokens regions, .reserve 0, .enforce 0, .sweepCapture 0,
    .allocate 0 true, .commit 0, .persist 0 .renamed]

/-- Without a resident tier a commit goes from its rename to its index entry. -/
theorem afterPersist_publishing_of_zero (hrsd : cfg.residentCapacityBytes = 0)
    (hpos : 0 < job.header.fileBytes) : ∃ blob, afterPersist cfg job = .publishing blob := by
  unfold afterPersist
  rw [hrsd, if_neg (not_le.mpr hpos)]
  split_ifs <;> exact ⟨_, rfl⟩

/-- A capture that is accepted, in an empty store without a resident tier, comes to be indexed. -/
theorem exists_publishing (hplan : planCapture cfg fp ts rgs = .ok hdr)
    (hrsd : cfg.residentCapacityBytes = 0) : ∃ s job blob,
      RunOf crc cfg {} (captureCalls fp ts rgs) s ∧
        s.captures.lookup 0 = some ⟨hdr, ts, .committing job (.publishing blob)⟩ := by
  obtain ⟨hcan, -⟩ := planCapture_ok hplan
  obtain ⟨job, hjob⟩ : ∃ job, prepare crc hdr (captureBuffer hdr ts) true = some job :=
    exists_prepare hcan _ _
  have hpos : 0 < job.header.fileBytes := by
    rw [(prepare_for hjob).2]
    exact lt_of_lt_of_le (by decide) hcan.headerBytes_le
  obtain ⟨blob, hblob⟩ := afterPersist_publishing_of_zero hrsd hpos
  -- The bytes of the one reservation are within the capacity.
  have hfits : (({} : IndexState).reserve hdr.keyHash hdr.fileBytes).usedFor 0 ≤
      cfg.capacityBytes := by
    have hbs := fileBytes_le_of_plan hplan
    have hword : hdr.fileBytes % u64Bound = hdr.fileBytes :=
      Nat.mod_eq_of_lt (hbs.trans_lt cfg.capacity_fits)
    simpa [IndexState.usedFor, IndexState.reserve, addWord, hword] using hbs
  -- Each call finds the capture in the sg the one before it has left.
  obtain ⟨s₁, h₁, hc₁, hidx₁⟩ : ∃ t, step crc cfg {} (.beginCapture fp ts rgs) = some (t, .silent) ∧
      t.captures.lookup 0 = some ⟨hdr, ts, .planned⟩ ∧ t.index = {} := by
    simp [step, Label.capture, Label.reader, Sys.openStep, hplan, maxOutstandingCommits]
  obtain ⟨s₂, h₂, hc₂, hidx₂⟩ : ∃ t, step crc cfg s₁ (.reserve 0) = some (t, .silent) ∧
      t.captures.lookup 0 = some ⟨hdr, ts, .reserved⟩ ∧
      t.index = ({} : IndexState).reserve hdr.keyHash hdr.fileBytes := by
    simp [step, Label.capture, hc₁, Sys.captureStep, Sys.setStage, hidx₁, IndexState.isStored,
      IndexState.get]
  have hkps : ∀ fuel, IndexState.enforce cfg.capacityBytes 0 fuel s₂.index =
      (s₂.index, [], false) := fun _ => enforce_of_fits (.inl (hidx₂ ▸ hfits))
  obtain ⟨s₃, h₃, hc₃⟩ : ∃ t, step crc cfg s₂ (.enforce 0) = some (t, .silent) ∧
      t.captures.lookup 0 = some ⟨hdr, ts, .sweeping ⟨[], false⟩ false⟩ := by
    simp [step, Label.capture, hc₂, Sys.captureStep, Sys.setStage, hkps]
  obtain ⟨s₄, h₄, hc₄⟩ : ∃ t, step crc cfg s₃ (.sweepCapture 0) = some (t, .silent) ∧
      t.captures.lookup 0 = some ⟨hdr, ts, .granted⟩ := by
    simp [step, Label.capture, hc₃, Sys.captureStep, Sys.setStage, sweepStep]
  obtain ⟨s₅, h₅, hc₅⟩ : ∃ t, step crc cfg s₄ (.allocate 0 true) = some (t, .silent) ∧
      t.captures.lookup 0 = some ⟨hdr, ts, .writing (captureBuffer hdr ts)⟩ := by
    simp [step, Label.capture, hc₄, Sys.captureStep, Sys.setStage]
  obtain ⟨s₆, h₆, hc₆⟩ : ∃ t, step crc cfg s₅ (.commit 0) = some (t, .silent) ∧
      t.captures.lookup 0 = some ⟨hdr, ts, .committing job .persisting⟩ := by
    simp [step, Label.capture, hc₅, Sys.captureStep, Sys.commitStep, Sys.setStage, hjob]
  obtain ⟨s₇, h₇, hc₇⟩ : ∃ t, step crc cfg s₆ (.persist 0 .renamed) = some (t, .silent) ∧
      t.captures.lookup 0 = some ⟨hdr, ts, .committing job (.publishing blob)⟩ := by
    simp [step, Label.capture, hc₆, Sys.captureStep, Sys.commitStep, Sys.setStage, hblob]
  exact ⟨s₇, job, blob, .cons h₁ <| .cons h₂ <| .cons h₃ <| .cons h₄ <| .cons h₅ <| .cons h₆ <|
    .cons h₇ .nil, hc₇⟩

/-- A store that any record within the capacity can be captured in. -/
theorem exists_published (hplan : planCapture cfg fp ts rgs = .ok hdr)
    (hrsd : cfg.residentCapacityBytes = 0) : ∃ tr s e c job,
      Run (step crc cfg) {} tr s ∧ (∀ e ∈ tr, e.2.1.spares 0) ∧ e ∈ tr ∧
        Publishes e.1 e.2.1 0 c job ∧ c.tokens = ts := by
  obtain ⟨s, job, blob, ⟨tr, hrun, hlbs⟩, hc⟩ := exists_publishing hplan hrsd
  obtain ⟨t, hpub⟩ : ∃ t, step crc cfg s (.publish 0 7) = some (t, .silent) := by
    simp only [step, Label.capture, hc, Sys.captureStep, Sys.commitStep]
    exact ⟨_, rfl⟩
  refine ⟨_, t, (s, .publish 0 7, .silent), _, job, hrun.snoc hpub, ?_, ?_, ⟨⟨7, rfl⟩, hc, blob, rfl⟩,
    rfl⟩
  · intro e he
    have hmem : e.2.1 ∈ captureCalls fp ts rgs ++ [.publish 0 7] := by
      have hin : e.2.1 ∈ (tr ++ [(s, Label.publish 0 7, Output.silent)]).map (·.2.1) :=
        mem_map_of_mem he
      rwa [map_append, hlbs] at hin
    simp only [captureCalls, cons_append, nil_append, mem_cons, not_mem_nil, or_false] at hmem
    rcases hmem with h | h | h | h | h | h | h | h <;> rw [h] <;>
      simp [Label.spares, Label.capture]
  · simp

end Alone

theorem started_empty : Started {} := stocked_empty.toStarted

theorem namedFiles_empty (crc : List UInt8 → UInt32) : NamedFiles crc ∅ := by
  simp [NamedFiles]

theorem lists_singleton {path : Path} (modified : ℕ) (hkeys : files.keys = {path})
    (hfile : files.lookup path = some file) : Lists files [⟨path, file.bytes, modified⟩] := by
  refine ⟨by simp [DistinctKeys], by simp [hfile], ?_⟩
  intro other found hfd
  have hmem : other ∈ files.keys := Finmap.mem_keys.mpr (Finmap.mem_of_lookup_eq_some hfd)
  rw [hkeys, Finset.mem_singleton] at hmem
  subst hmem
  rw [hfile] at hfd
  cases hfd
  exact ⟨_, mem_singleton_self _, rfl, rfl⟩

def CaptureStage.isPublishing : CaptureStage → Bool
  | .committing _ (.publishing _) => true
  | _ => false

/-- A record is captured and committed, and found and read back after a restart. -/
theorem survives_restart_iff_short : ∃ tr s entries t header buffer,
    Run (step firstByte (storeOf 40000 (by decide))) {} tr s ∧ tr.length = 11 ∧
    openStore firstByte (storeOf 40000 (by decide)) entries = some t ∧
    Survives firstByte (storeOf 40000 (by decide)) t header [1] buffer := by
  obtain ⟨tr, s, hrun, hlen, hspa, ⟨e, he, hlb, hcpt⟩, hkeys, hfile⟩ :=
    Run.exists_of_exec (step firstByte (storeOf 40000 (by decide))) {}
    (captureBytes 0 [1, 2, 3, 4, 5] ++ [.commit 0, .persist 0 .renamed, .publish 0 7, .promote 0,
      .close 0])
    (fun tr s => tr.length = 11 ∧ (∀ e ∈ tr, e.2.1.spares 0) ∧
      (∃ e ∈ tr, e.2.1 = .publish 0 7 ∧ (e.1.captures.lookup 0).any fun c =>
        c.tokens = [1] ∧ c.stage.isPublishing) ∧
      s.files.keys = {.record (keyHash zeroFingerprint [1])} ∧
      (s.files.lookup (.record (keyHash zeroFingerprint [1]))).any fun file =>
        file.bytes.length ≤ 40000) (by decide +kernel)
  obtain ⟨c, hc, hsg⟩ := Option.any_eq_true _ _ |>.mp hcpt
  obtain ⟨htok, hpbg⟩ := of_decide_eq_true hsg
  obtain ⟨file, hfile, hsize⟩ := Option.any_eq_true _ _ |>.mp hfile
  obtain ⟨job, blob, hjob⟩ : ∃ job blob, c.stage = .committing job (.publishing blob) := by
    unfold CaptureStage.isPublishing at hpbg
    split at hpbg
    · exact ⟨_, _, ‹_›⟩
    · cases hpbg
  have hlis := lists_singleton 0 hkeys hfile
  have hroom : ∀ path, (storeOf 40000 (by decide)).capacityBytes = 0 ∨
      (List.map (fun ent : DirEntry => ent.bytes.length) [⟨path, file.bytes, 0⟩]).sum ≤
        (storeOf 40000 (by decide)).capacityBytes :=
    fun _ => .inr (by simpa [storeOf] using hsize)
  obtain ⟨buffer, -, hiff⟩ := survives_restart_iff hrun started_empty (namedFiles_empty _) hspa he
    ⟨⟨7, hlb⟩, hc, blob, hjob⟩ hlis (hroom _)
  obtain ⟨t, hopen, hsur⟩ := hiff.mpr (by rw [htok]; decide)
  rw [htok] at hsur
  exact ⟨tr, s, _, t, job.header, buffer, hrun, hlen, hopen, hsur⟩

def manyTokens : List UInt32 := replicate (maxTokenCount + 1) 0

theorem exists_plan_manyTokens : ∃ hdr,
    planCapture (storeOf (2 ^ 30) (by decide)) zeroFingerprint manyTokens (oneRegion 5) =
      .ok hdr := by
  have hlen : manyTokens.length = 16777217 := length_replicate
  have hlay : ∀ hash, RecordHeader.layout zeroFingerprint hash 16777217 (oneRegion 5) =
      .ok ⟨zeroFingerprint, hash, 16777217, oneRegion 5, 4096, [67117056], 67117061, 67121152, 0,
        []⟩ := by
    intro hash
    simp [RecordHeader.layout, oneRegion, maxRegions, validateRegions, validateRegionName,
      checkedMul, checkedAdd, alignUp, headerBytes, pageBytes, bind, Except.bind, pure, Except.pure,
      usizeBound, regionOffsetsFrom, isAsciiGraphic, maxRegionNameBytes]
  unfold planCapture
  rw [hlen, hlay]
  simp [storeOf]

/-- A record of 2^24 + 1 tokens is captured and committed, and no `open` of its directory indexes
    it. -/
theorem restart_loses_long : ∃ tr s e c job,
    Run (step (fun _ => 0) (storeOf (2 ^ 30) (by decide))) {} tr s ∧ (∀ e ∈ tr, e.2.1.spares 0) ∧
    e ∈ tr ∧ Publishes e.1 e.2.1 0 c job ∧ c.tokens = manyTokens ∧
    ∀ config' entries t, Lists s.files entries → openStore (fun _ => 0) config' entries = some t →
      ∀ record ∈ t.index.records, record.header ≠ job.header := by
  obtain ⟨hdr, hplan⟩ := exists_plan_manyTokens
  obtain ⟨tr, s, e, c, job, hrun, hspa, he, hpub, htok⟩ := exists_published hplan rfl
  refine ⟨tr, s, e, c, job, hrun, hspa, he, hpub, htok, ?_⟩
  intro cfg' entries t _ hopen record hmem hhdr
  have hint := (exists_commitCall hrun started_empty (namedFiles_empty _) he hpub).1
  have hle := tokenCount_le_of_open hopen record hmem
  rw [hhdr, hint.count, htok, manyTokens, length_replicate] at hle
  omega

end LetsInfer.PrefixStore
