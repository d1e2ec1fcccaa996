import EovpnPro.Runs
import EovpnPro.ConfigReplacement

namespace EovpnPro.OverlappingImports

open ConfigImport ConfigReplacement ConfigSource Directories Runs

/-- What is left of an import into the staging directory. -/
inductive Task
  | folder (certs : List String) (entries : List FolderEntry)
  | archive (x : Extraction) (infos : List ZipEntry)

inductive Progress
  | more (task : Task)
  | done
  | failed

/-- Where a worker of `validate_and_load` stands in its `dispatch`. -/
inductive Stage
  | clearStaging (left : Removal String)
  | prepare
  | importing (task : Task)
  | clearOld (left : Removal String)
  | check
  | moveAside
  | install
  | removeOld (left : Removal String)
  | cleanUp (left : Removal String)
  | finished

def Progress.stage : Progress → Stage
  | .more task => .importing task
  | .done => .clearOld none
  | .failed => .cleanUp none

section Worker

variable (unicodeAlnum : Char → Bool)

/-- What reading the source makes of the import, before anything is written. -/
def plan : Source → Progress
  | .folder none => .done
  | .folder (some listing) =>
      let entries := listing.insertionSort (fun e f => e.name ≤ f.name)
      match scanFolder entries with
      | none => .done
      | some total =>
          if total > maxFolderImportTotalBytes then .failed else .more (.folder [] entries)
  | source =>
      match loadZipArchive source with
      | .error _ => .failed
      | .ok infos =>
          if infos.length > maxZipEntries then .failed
          else .more (.archive { dir := [] } (infos.filter (fun info => ovpnRegex info.filename) ++
            infos.filter (fun info => crtRegex unicodeAlnum info.filename)))

/-- The next entry. Without the directory a copy raises, while an archive entry is
only passed over. -/
def importStep (staging : Option ConfigDir) : Task → Option ConfigDir × Progress
  | .folder _ [] => (staging, .done)
  | .folder certs (entry :: entries) =>
      if selected entry && isSafePath entry.name then
        match staging with
        | none => (none, .failed)
        | some dir =>
            match copyFolder dir certs [entry] with
            | (dir, .ok certs) => (some dir, .more (.folder certs entries))
            | (dir, .error _) => (some dir, .failed)
      else (staging, .more (.folder certs entries))
  | .archive x [] => (staging, if x.bomb then .failed else .done)
  | .archive x (info :: infos) =>
      match staging with
      | none => (none, .more (.archive (extractInfo unicodeAlnum x { info with opens := false }).1 infos))
      | some dir =>
          let (x, stop) := extractInfo unicodeAlnum { x with dir } info
          (some x.dir, .more (.archive x (if stop then [] else infos)))

def removing (files : Files) (place : Place) (left : Removal String) (again : Removal String → Stage)
    (next : Stage) : Files × Stage :=
  let (files, left) := removalStep files place left
  (files, left.elim next again)

/-- The next file-system step of a worker, on the directories as it finds them. -/
def workerStep (source : Source) (files : Files) : Stage → Option (Files × Stage)
  | .clearStaging left => some (removing files .staging left .clearStaging .prepare)
  | .prepare =>
      some (Function.update files .staging (some ((files .staging).getD [])),
        (plan unicodeAlnum source).stage)
  | .importing task =>
      let (staging, progress) := importStep unicodeAlnum (files .staging) task
      some (Function.update files .staging staging, progress.stage)
  | .clearOld left => some (removing files .old left .clearOld .check)
  | .check => some (files, if (files .configs).isSome then .moveAside else .install)
  | .moveAside =>
      match rename files .configs .old with
      | some moved => some (moved, .install)
      | none => some (files, .cleanUp none)
  | .install =>
      match rename files .staging .configs with
      | some installed => some (installed, .removeOld none)
      | none => some (files, .cleanUp none)
  | .removeOld left => some (removing files .old left .removeOld .finished)
  | .cleanUp left => some (removing files .staging left .cleanUp .finished)
  | .finished => none

structure Imports where
  files : Files
  stage : Bool → Stage := fun _ => .clearStaging none

def step (source : Bool → Source) (s : Imports) (w : Bool) : Option Imports :=
  (workerStep unicodeAlnum (source w) s.files (s.stage w)).map fun (files, stage) =>
    { files, stage := Function.update s.stage w stage }

def complete (source : Source) : ConfigDir := (download unicodeAlnum source []).1

def Readable (source : Source) : Prop := ∃ certs, (download unicodeAlnum source []).2 = .ok certs

/-- With both workers finished, the configurations are one of the two imports. -/
def Installed (source : Bool → Source) (s : Imports) : Prop :=
  (∀ w, s.stage w = .finished) → ∃ w, s.files .configs = some (complete unicodeAlnum (source w))

end Worker

theorem configs_dispatch_complete {unicodeAlnum : Char → Bool} {source : Source} (files : Files)
    (h : Readable unicodeAlnum source) :
    (dispatch unicodeAlnum files source {}).files .configs = some (complete unicodeAlnum source) := by
  obtain ⟨certs, h⟩ := h
  have hstaging : leftStaging files {} = [] := by
    simp [leftStaging, removeTree_self]
  have hbackUp : backUpRaises files {} = false := by
    simp [backUpRaises, removeTree_self]
  rw [configs_dispatch, hstaging]
  simp only [Bool.not_true, Bool.false_eq_true, if_false, hbackUp]
  rw [← Prod.mk.eta (p := download unicodeAlnum source []), h]
  rfl

def Stage.staged : Stage → Bool
  | .importing _ | .clearOld _ | .check | .moveAside | .install => true
  | _ => false

def Stage.stages : Stage → Bool
  | .clearStaging _ | .prepare => true
  | _ => false

/-- Nobody clears or prepares the staging directory while the other has it in use. -/
def Apart (s : Imports) (w : Bool) : Prop :=
  (s.stage w).stages = true → (s.stage !w).staged = false

section Task

variable (unicodeAlnum : Char → Bool)

def finish : Task → ConfigDir → Option ConfigDir
  | .folder certs entries, dir =>
      match copyFolder dir certs entries with
      | (dir, .ok _) => some dir
      | (_, .error _) => none
  | .archive x infos, dir =>
      let x := extract unicodeAlnum { x with dir } infos
      if x.bomb then none else some x.dir

def Leads : Progress → ConfigDir → ConfigDir → Prop
  | .more task, dir, whole => finish unicodeAlnum task dir = some whole
  | .done, dir, whole => dir = whole
  | .failed, _, _ => False

variable {unicodeAlnum} {source : Source} {task : Task} {dir whole : ConfigDir}

theorem plan_leads (h : Readable unicodeAlnum source) :
    Leads unicodeAlnum (plan unicodeAlnum source) [] (complete unicodeAlnum source) := by
  obtain ⟨certs, h⟩ := h
  rcases source with (_ | listing) | _ | _
  · rfl
  · simp only [download, plan, complete] at h ⊢
    cases hs : scanFolder (listing.insertionSort fun e f => e.name ≤ f.name) with
    | none => rfl
    | some total =>
        simp only [hs] at h ⊢
        split_ifs at h ⊢
        simp only [Leads, finish]
        rcases hc : copyFolder [] [] _ with ⟨dir, _ | _⟩
        · rw [hc] at h
          cases h
        · rfl
  all_goals
    simp only [download, plan, complete] at h ⊢
    rcases hz : loadZipArchive _ with error | infos
    · rw [hz] at h
      cases h
    · simp only [hz, importArchive] at h ⊢
      split_ifs at h ⊢
      simp only [Leads, finish]
      split_ifs
      rfl

theorem copyFolder_cons (dir : ConfigDir) (certs : List String) (entry : FolderEntry)
    (entries : List FolderEntry) :
    copyFolder dir certs (entry :: entries) =
      match copyFolder dir certs [entry] with
      | (dir, .ok certs) => copyFolder dir certs entries
      | (dir, .error error) => (dir, .error error) := by
  simp only [copyFolder]
  split
  · cases entry.part <;> rfl
  · rfl

theorem importStep_leads (h : finish unicodeAlnum task dir = some whole) :
    ∃ next, (importStep unicodeAlnum (some dir) task).1 = some next ∧
      Leads unicodeAlnum (importStep unicodeAlnum (some dir) task).2 next whole := by
  rcases task with ⟨certs, _ | ⟨entry, entries⟩⟩ | ⟨x, _ | ⟨info, infos⟩⟩
  · exact ⟨dir, rfl, Option.some.inj h⟩
  · simp only [importStep]
    split
    · simp only [finish] at h
      rw [copyFolder_cons] at h
      rcases hc : copyFolder dir certs [entry] with ⟨next, error | certs⟩
      · rw [hc] at h
        cases h
      · rw [hc] at h
        exact ⟨next, rfl, h⟩
    · rename_i hs
      refine ⟨dir, rfl, ?_⟩
      simp only [finish, copyFolder, if_neg hs] at h
      exact h
  · simp only [finish, extract] at h
    cases hb : x.bomb with
    | true =>
        rw [hb] at h
        cases h
    | false =>
        rw [hb] at h
        simp only [importStep, hb]
        exact ⟨dir, rfl, Option.some.inj h⟩
  · simp only [finish, extract_cons] at h
    simp only [importStep]
    generalize extractInfo unicodeAlnum { x with dir } info = round at h ⊢
    obtain ⟨x, _ | _⟩ := round
    · exact ⟨x.dir, rfl, h⟩
    · exact ⟨x.dir, rfl, h⟩

end Task

section Alone

variable (unicodeAlnum : Char → Bool)

/-- What a worker relies on at its stage. `alone` says that the other one does not have
the staging directory in use. -/
def Known (source : Source) (files : Files) (alone : Prop) : Stage → Prop
  | .clearStaging left => alone → Covers files .staging left
  | .prepare => alone → files .staging = none
  | .importing task =>
      alone ∧ ∃ dir, files .staging = some dir ∧
        finish unicodeAlnum task dir = some (complete unicodeAlnum source)
  | .clearOld left =>
      alone ∧ files .staging = some (complete unicodeAlnum source) ∧ Covers files .old left
  | .check => alone ∧ files .staging = some (complete unicodeAlnum source) ∧ files .old = none
  | .moveAside =>
      alone ∧ files .staging = some (complete unicodeAlnum source) ∧ files .old = none ∧
        (files .configs).isSome = true
  | .install =>
      alone ∧ files .staging = some (complete unicodeAlnum source) ∧ files .configs = none
  | .cleanUp _ => False
  | .removeOld _ | .finished => True

variable {unicodeAlnum} {source : Source} {files next : Files} {alone : Prop} {stage after : Stage}

theorem covers_none (files : Files) (place : Place) : Covers files place none := by
  intro names hn
  cases hn

theorem known_of_leads {progress : Progress} {dir : ConfigDir} (ha : alone)
    (hs : files .staging = some dir)
    (hl : Leads unicodeAlnum progress dir (complete unicodeAlnum source)) :
    Known unicodeAlnum source files alone progress.stage := by
  cases progress with
  | more task => exact ⟨ha, dir, hs, hl⟩
  | done => exact ⟨ha, hs.trans (congrArg some hl), covers_none _ _⟩
  | failed => exact hl

theorem removing_eq {place : Place} {left : Removal String} {again : Removal String → Stage}
    (h : removing files place left again stage = (next, after)) :
    next = (removalStep files place left).1 ∧
      ((∃ rest, (removalStep files place left).2 = some rest ∧ after = again rest) ∨
        (removalStep files place left).2 = none ∧ after = stage) := by
  obtain ⟨rfl, rfl⟩ := Prod.ext_iff.mp h
  refine ⟨rfl, ?_⟩
  cases hl : (removalStep files place left).2 with
  | none => exact .inr ⟨rfl, by simp only [removing, hl, Option.elim]⟩
  | some rest => exact .inl ⟨rest, rfl, by simp only [removing, hl, Option.elim]⟩

/-- A step that a worker takes on its own leads it to what it relies on next. -/
theorem known_step (hr : Readable unicodeAlnum source)
    (hk : Known unicodeAlnum source files alone stage) (hg : stage.stages = true → alone)
    (h : workerStep unicodeAlnum source files stage = some (next, after)) :
    Known unicodeAlnum source next alone after := by
  cases stage with
  | clearStaging left =>
      have hc := hk (hg rfl)
      obtain ⟨rfl, ⟨rest, hl, rfl⟩ | ⟨hl, rfl⟩⟩ := removing_eq (Option.some.inj h)
      · exact fun _ => hc.next hl
      · exact fun _ => hc.gone hl
  | prepare =>
      simp only [workerStep, Option.some.injEq, Prod.mk.injEq] at h
      obtain ⟨rfl, rfl⟩ := h
      apply known_of_leads (hg rfl) (Function.update_self _ _ _)
      simp only [hk (hg rfl), Option.getD_none]
      exact plan_leads hr
  | importing task =>
      obtain ⟨ha, dir, hd, hf⟩ := hk
      simp only [workerStep, Option.some.injEq, Prod.mk.injEq] at h
      obtain ⟨rfl, rfl⟩ := h
      obtain ⟨dir, hn, hl⟩ := importStep_leads hf
      rw [hd]
      exact known_of_leads ha (by rw [Function.update_self, hn]) hl
  | clearOld left =>
      obtain ⟨ha, hs, hc⟩ := hk
      have hkeep := removalStep_of_ne files (show Place.staging ≠ .old by decide) left
      obtain ⟨rfl, ⟨rest, hl, rfl⟩ | ⟨hl, rfl⟩⟩ := removing_eq (Option.some.inj h)
      · exact ⟨ha, hkeep.trans hs, hc.next hl⟩
      · exact ⟨ha, hkeep.trans hs, hc.gone hl⟩
  | check =>
      obtain ⟨ha, hs, ho⟩ := hk
      simp only [workerStep, Option.some.injEq, Prod.mk.injEq] at h
      obtain ⟨rfl, rfl⟩ := h
      cases hc : files .configs with
      | none => exact ⟨ha, hs, hc⟩
      | some dir => exact ⟨ha, hs, ho, by rw [hc]; rfl⟩
  | moveAside =>
      obtain ⟨ha, hs, ho, hc⟩ := hk
      obtain ⟨moved, hm⟩ := Option.ne_none_iff_exists'.mp (rename_ne_none_of_free hc ho)
      simp only [workerStep, hm, Option.some.injEq, Prod.mk.injEq] at h
      obtain ⟨rfl, rfl⟩ := h
      exact ⟨ha, (rename_of_ne (by decide) (by decide) hm).trans hs, rename_source (by decide) hm⟩
  | install =>
      obtain ⟨-, hs, hc⟩ := hk
      obtain ⟨installed, hi⟩ :=
        Option.ne_none_iff_exists'.mp (rename_ne_none_of_free (by rw [hs]; rfl) hc)
      simp only [workerStep, hi, Option.some.injEq, Prod.mk.injEq] at h
      obtain ⟨-, rfl⟩ := h
      trivial
  | removeOld left =>
      obtain ⟨rfl, ⟨rest, hl, rfl⟩ | ⟨hl, rfl⟩⟩ := removing_eq (Option.some.inj h) <;> trivial
  | cleanUp left => exact hk.elim
  | finished => cases h

def Shrinks (files next : Files) (place : Place) : Prop :=
  (files place = none → next place = none) ∧ ∀ left, Covers files place left → Covers next place left

theorem shrinks_of_eq {place : Place} (h : next place = files place) : Shrinks files next place := by
  refine ⟨h.trans, fun left hc names hn dir hd => ?_⟩
  exact hc names hn dir (h.symm.trans hd)

theorem removalStep_shrinks (files : Files) (place : Place) (left : Removal String) :
    Shrinks files (removalStep files place left).1 place :=
  ⟨removalStep_eq_none left, fun _ hc => hc.kept left⟩

theorem staging_kept (hr : Readable unicodeAlnum source)
    (hk : Known unicodeAlnum source files alone stage) (hg : stage.stages = true → alone)
    (h : workerStep unicodeAlnum source files stage = some (next, after)) (hf : after.staged = false) :
    next .staging = none ∨ stage.staged = false ∧ Shrinks files next .staging := by
  have hn := known_step hr hk hg h
  cases stage with
  | clearStaging left =>
      obtain ⟨rfl, -⟩ := removing_eq (Option.some.inj h)
      exact .inr ⟨rfl, removalStep_shrinks files _ left⟩
  | prepare =>
      simp only [workerStep, Option.some.injEq, Prod.mk.injEq] at h
      obtain ⟨-, rfl⟩ := h
      cases hp : plan unicodeAlnum source <;> rw [hp] at hf hn
      · cases hf
      · cases hf
      · exact hn.elim
  | importing task =>
      simp only [workerStep, Option.some.injEq, Prod.mk.injEq] at h
      obtain ⟨-, rfl⟩ := h
      cases hp : (importStep unicodeAlnum (files .staging) task).2 <;> rw [hp] at hf hn
      · cases hf
      · cases hf
      · exact hn.elim
  | clearOld left =>
      obtain ⟨-, ⟨rest, -, rfl⟩ | ⟨-, rfl⟩⟩ := removing_eq (Option.some.inj h) <;> cases hf
  | check =>
      simp only [workerStep, Option.some.injEq, Prod.mk.injEq] at h
      obtain ⟨-, rfl⟩ := h
      split_ifs at hf <;> cases hf
  | moveAside =>
      simp only [workerStep] at h
      split at h
      · obtain ⟨-, rfl⟩ := Prod.mk.inj (Option.some.inj h)
        cases hf
      · obtain ⟨-, rfl⟩ := Prod.mk.inj (Option.some.inj h)
        exact hn.elim
  | install =>
      simp only [workerStep] at h
      split at h
      · rename_i hi
        obtain ⟨rfl, -⟩ := Prod.mk.inj (Option.some.inj h)
        exact .inl (rename_source (by decide) hi)
      · obtain ⟨-, rfl⟩ := Prod.mk.inj (Option.some.inj h)
        exact hn.elim
  | removeOld left =>
      obtain ⟨rfl, -⟩ := removing_eq (Option.some.inj h)
      exact .inr ⟨rfl, shrinks_of_eq (removalStep_of_ne files (by decide) left)⟩
  | cleanUp left => exact hk.elim
  | finished => cases h

theorem staged_kept {theirs : Stage} (hk : Known unicodeAlnum source files (theirs.staged = false) stage)
    (hg : stage.stages = true → theirs.staged = false)
    (h : workerStep unicodeAlnum source files stage = some (next, after)) (ht : theirs.staged = true)
    (hs : stage.staged = false) :
    after.staged = false ∧ next .staging = files .staging ∧ next .configs = files .configs ∧
      Shrinks files next .old := by
  cases stage with
  | clearStaging left | prepare => rw [hg rfl] at ht; cases ht
  | importing task | clearOld left | check | moveAside | install => cases hs
  | removeOld left =>
      obtain ⟨rfl, ha⟩ := removing_eq (Option.some.inj h)
      refine ⟨?_, removalStep_of_ne files (by decide) left, removalStep_of_ne files (by decide) left,
        removalStep_shrinks files _ left⟩
      obtain ⟨rest, -, rfl⟩ | ⟨-, rfl⟩ := ha <;> rfl
  | cleanUp left => exact hk.elim
  | finished => cases h

theorem known_kept {other : Source} {theirs : Stage} (hr : Readable unicodeAlnum source)
    (hk : Known unicodeAlnum source files (theirs.staged = false) stage)
    (hg : stage.stages = true → theirs.staged = false)
    (h : workerStep unicodeAlnum source files stage = some (next, after))
    (ho : Known unicodeAlnum other files (stage.staged = false) theirs) :
    Known unicodeAlnum other next (after.staged = false) theirs := by
  have hrest := staged_kept hk hg h
  cases theirs with
  | clearStaging left =>
      intro hf
      obtain hn | ⟨hs, hshrinks⟩ := staging_kept hr hk hg h hf
      · intro names _ dir hd
        rw [hn] at hd
        cases hd
      · exact hshrinks.2 left (ho hs)
  | prepare =>
      intro hf
      obtain hn | ⟨hs, hshrinks⟩ := staging_kept hr hk hg h hf
      · exact hn
      · exact hshrinks.1 (ho hs)
  | importing task =>
      obtain ⟨hs, dir, hd, hf⟩ := ho
      obtain ⟨ha, hstaging, -, -⟩ := hrest rfl hs
      exact ⟨ha, dir, hstaging.trans hd, hf⟩
  | clearOld left =>
      obtain ⟨hs, hd, hc⟩ := ho
      obtain ⟨ha, hstaging, -, hold⟩ := hrest rfl hs
      exact ⟨ha, hstaging.trans hd, hold.2 left hc⟩
  | check =>
      obtain ⟨hs, hd, hn⟩ := ho
      obtain ⟨ha, hstaging, -, hold⟩ := hrest rfl hs
      exact ⟨ha, hstaging.trans hd, hold.1 hn⟩
  | moveAside =>
      obtain ⟨hs, hd, hn, hc⟩ := ho
      obtain ⟨ha, hstaging, hconfigs, hold⟩ := hrest rfl hs
      exact ⟨ha, hstaging.trans hd, hold.1 hn, hconfigs ▸ hc⟩
  | install =>
      obtain ⟨hs, hd, hc⟩ := ho
      obtain ⟨ha, hstaging, hconfigs, -⟩ := hrest rfl hs
      exact ⟨ha, hstaging.trans hd, hconfigs.trans hc⟩
  | cleanUp left => exact ho
  | removeOld left | finished => trivial

end Alone

section Run

variable {unicodeAlnum : Char → Bool} {source : Bool → Source} {s t : Imports}

def Stage.past : Stage → Bool
  | .removeOld _ | .finished => true
  | _ => false

variable (unicodeAlnum source) in
/-- Once a worker is past its installation, the configurations are one of the two
imports, but for the moment between the other one's renames. -/
structure Orderly (s : Imports) : Prop where
  known : ∀ w, Known unicodeAlnum (source w) s.files ((s.stage !w).staged = false) (s.stage w)
  kept : (∃ w, (s.stage w).past = true) → (∀ w, s.stage w ≠ .install) →
    ∃ w, s.files .configs = some (complete unicodeAlnum (source w))

/-- The configurations change only when they are moved aside and when a worker
installs its own. -/
theorem configs_step {source : Source} {files next : Files} {stage after : Stage} {alone : Prop}
    (hk : Known unicodeAlnum source files alone stage)
    (h : workerStep unicodeAlnum source files stage = some (next, after)) :
    after = .install ∨
      (stage = .install ∧ next .configs = some (complete unicodeAlnum source)) ∨
      (stage ≠ .install ∧ next .configs = files .configs ∧ (after.past = true → stage.past = true)) := by
  have hclear {place : Place} {left : Removal String} {again : Removal String → Stage} {done : Stage}
      (hne : Place.configs ≠ place) (hr : removing files place left again done = (next, after)) :
      next .configs = files .configs ∧ (after = done ∨ ∃ rest, after = again rest) := by
    obtain ⟨rfl, ⟨rest, -, rfl⟩ | ⟨-, rfl⟩⟩ := removing_eq hr
    · exact ⟨removalStep_of_ne files hne left, .inr ⟨rest, rfl⟩⟩
    · exact ⟨removalStep_of_ne files hne left, .inl rfl⟩
  cases stage with
  | clearStaging left =>
      obtain ⟨hc, rfl | ⟨rest, rfl⟩⟩ := hclear (by decide) (Option.some.inj h) <;>
        exact .inr (.inr ⟨(by simp), hc, fun hp => (by cases hp)⟩)
  | prepare =>
      simp only [workerStep, Option.some.injEq, Prod.mk.injEq] at h
      obtain ⟨rfl, rfl⟩ := h
      refine .inr (.inr ⟨by simp, Function.update_of_ne (by decide) _ _, fun hp => ?_⟩)
      cases hl : plan unicodeAlnum source <;> rw [hl] at hp <;> cases hp
  | importing task =>
      simp only [workerStep, Option.some.injEq, Prod.mk.injEq] at h
      obtain ⟨rfl, rfl⟩ := h
      refine .inr (.inr ⟨by simp, Function.update_of_ne (by decide) _ _, fun hp => ?_⟩)
      cases hl : (importStep unicodeAlnum (files .staging) task).2 <;> rw [hl] at hp <;> cases hp
  | clearOld left =>
      obtain ⟨hc, rfl | ⟨rest, rfl⟩⟩ := hclear (by decide) (Option.some.inj h) <;>
        exact .inr (.inr ⟨(by simp), hc, fun hp => (by cases hp)⟩)
  | check =>
      simp only [workerStep, Option.some.injEq, Prod.mk.injEq] at h
      obtain ⟨rfl, rfl⟩ := h
      refine .inr (.inr ⟨by simp, rfl, fun hp => ?_⟩)
      split_ifs at hp <;> cases hp
  | moveAside =>
      simp only [workerStep] at h
      split at h
      · exact .inl (Prod.mk.inj (Option.some.inj h)).2.symm
      · obtain ⟨rfl, rfl⟩ := Prod.mk.inj (Option.some.inj h)
        exact .inr (.inr ⟨by simp, rfl, fun hp => by cases hp⟩)
  | install =>
      obtain ⟨-, hs, hc⟩ := hk
      obtain ⟨installed, hi⟩ :=
        Option.ne_none_iff_exists'.mp (rename_ne_none_of_free (by rw [hs]; rfl) hc)
      simp only [workerStep, hi, Option.some.injEq, Prod.mk.injEq] at h
      obtain ⟨rfl, -⟩ := h
      exact .inr (.inl ⟨rfl, (rename_destination hi).trans hs⟩)
  | removeOld left =>
      obtain ⟨hc, -⟩ := hclear (by decide) (Option.some.inj h)
      exact .inr (.inr ⟨by simp, hc, fun _ => rfl⟩)
  | cleanUp left => exact hk.elim
  | finished => cases h

theorem orderly_start (files : Files) : Orderly unicodeAlnum source { files } where
  known := fun _ _ => covers_none files _
  kept := by
    rintro ⟨_, hp⟩
    cases hp

theorem orderly_step (hr : ∀ w, Readable unicodeAlnum (source w)) {w : Bool}
    (hs : Orderly unicodeAlnum source s) (hg : Apart s w)
    (h : step unicodeAlnum source s w = some t) : Orderly unicodeAlnum source t := by
  obtain ⟨⟨next, after⟩, hw, rfl⟩ := Option.map_eq_some_iff.mp h
  have hk := hs.known w
  have hself : Function.update s.stage w after w = after := Function.update_self _ _ _
  have hother : Function.update s.stage w after (!w) = s.stage !w :=
    Function.update_of_ne (by simp) _ _
  have hboth {P : Bool → Prop} (hp : P w) (hq : P !w) : ∀ v, P v := by
    intro v
    obtain rfl | rfl := Bool.eq_or_eq_not v w
    · exact hp
    · exact hq
  constructor
  · refine hboth ?_ ?_
    · change Known unicodeAlnum (source w) next ((Function.update s.stage w after !w).staged = false)
        (Function.update s.stage w after w)
      rw [hself, hother]
      exact known_step (hr w) hk hg hw
    · have ho := hs.known !w
      rw [Bool.not_not] at ho
      simp only [Bool.not_not, hself, hother]
      exact known_kept (hr w) hk hg hw ho
  · intro hpast hinstall
    obtain rfl | ⟨-, hc⟩ | ⟨hne, hc, hp⟩ := configs_step hk hw
    · exact absurd hself (hinstall w)
    · exact ⟨w, hc⟩
    · have hpast : ∃ v, (s.stage v).past = true := by
        obtain ⟨v, hv⟩ := hpast
        obtain rfl | rfl := Bool.eq_or_eq_not v w
        · exact ⟨v, hp (hself ▸ hv)⟩
        · exact ⟨!w, hother ▸ hv⟩
      have hinstall : ∀ v, s.stage v ≠ .install := hboth hne (hother ▸ hinstall !w)
      obtain ⟨v, hv⟩ := hs.kept hpast hinstall
      exact ⟨v, hc.trans hv⟩

theorem installed_of_orderly (hs : Orderly unicodeAlnum source s) :
    Installed unicodeAlnum source s := by
  intro hf
  refine hs.kept ⟨true, by rw [hf]; rfl⟩ fun w hw => ?_
  rw [hf] at hw
  cases hw

/-- Two imports do not mix when neither clears or prepares the staging directory while
the other has it in use. -/
theorem imports_apart (unicodeAlnum : Char → Bool) (source : Bool → Source) (files : Files)
    (schedule : List Bool) (hr : ∀ w, Readable unicodeAlnum (source w))
    (hg : AllSteps (step unicodeAlnum source) Apart { files } schedule) :
    AllStates (step unicodeAlnum source) (Installed unicodeAlnum source) { files } schedule :=
  (allStates_of_guarded (fun _ _ _ hs hg h => orderly_step hr hs hg h) (orderly_start files) hg).mono
    fun _ => installed_of_orderly

end Run

instance (s : Imports) (w : Bool) : Decidable (Apart s w) :=
  inferInstanceAs (Decidable ((s.stage w).stages = true → (s.stage !w).staged = false))

def inTurn : List Bool :=
  [false, true, false, false, false, false, false, false, false, true, true, true, false, false, false,
    true, true, true, true, true, true, true]

theorem readable_oneConfig : Readable (fun _ => false) oneConfig :=
  ⟨[], congrArg Prod.snd download_oneConfig⟩

theorem imports_apart_inTurn :
    AllStates (step (fun _ => false) fun _ => oneConfig) (Installed (fun _ => false) fun _ => oneConfig)
      { files := before } inTurn :=
  imports_apart _ _ _ _ (fun _ => readable_oneConfig) (by decide)

/-- Both prepare the staging directory before either has installed it. The second one
then moves the new configurations aside and has nothing to put in their place. -/
def doubleClick : List Bool :=
  [false, true, false, true, false, false, true, true, false, false, false, false, false, false, false,
    true, true, true, true, true]

theorem imports_mixed : ¬ ∀ (unicodeAlnum : Char → Bool) (source : Bool → Source) (files : Files)
    (schedule : List Bool), (∀ w, Readable unicodeAlnum (source w)) →
      AllStates (step unicodeAlnum source) (Installed unicodeAlnum source) { files } schedule := by
  intro h
  have hi := h (fun _ => false) (fun _ => oneConfig) before doubleClick fun _ => readable_oneConfig
  have hsome : (run (step (fun _ => false) fun _ => oneConfig) { files := before } doubleClick).isSome =
    true := by decide
  have hf (w : Bool) : (Option.get _ hsome).stage w = .finished := by cases w <;> rfl
  have hc : (Option.get _ hsome).files .configs = none := rfl
  obtain ⟨w, hw⟩ := (hi.last (Option.some_get hsome).symm) hf
  rw [hc] at hw
  cases hw

end EovpnPro.OverlappingImports
