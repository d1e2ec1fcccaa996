import EovpnPro.ResetRestore

namespace EovpnPro.RestoreFailure

open FileTrees Settings ResetBackup ResetRestore

variable {C : Type}

/-- The exceptions that the system raises in the steps of a restore, each with what the
step leaves of the things that it writes. -/
structure Faults (C : Type) where
  backup : Option (String × Option (Entries C)) := none
  manifest : Option String := none
  symlink : Option String := none
  paths : Option (String × Option (Node C)) := none
  copy : Option (String × Option (Node C)) := none
  settings : Option (String × Store) := none

inductive Report
  | dismissed
  | failed (safety details : String)
  | completed (safety : String)
  deriving DecidableEq, Repr

def Report.response : Report → Response
  | .dismissed => .dismissed
  | .failed _ details => .failed details
  | .completed safety => .completed safety

def freshName (env : Env C) (moment : Moment) (items : List (Item C)) : String :=
  backupName moment (freshSuffix (fun n => taken env items (backupName moment n)) items.length 0)

/-- `create_reset_backup`, where the removal of a failed backup may fail as well. -/
def createBackup (env : Env C) (faults : Faults C) (moment : Moment) (st : State C) :
    EStateM.Result String (State C) String :=
  match faults.backup with
  | some (details, left) =>
      .error details { st with
        items := st.items ++ left.toList.map fun entries =>
          ⟨freshName env moment st.items, moment.mtime, .dir entries⟩ }
  | none => createResetBackup env moment (snapshot st) st

def replaceConfigs (env : Env C) (faults : Faults C) (source : Option (Node C)) (st : State C) :
    EStateM.Result String (State C) Unit :=
  match faults.paths with
  | some (details, left) => .error details { st with configs := left }
  | none =>
      match faults.copy with
      | none => restoreConfigs env source st
      | some (details, left) =>
          match resetPaths env st with
          | .error details st => .error details st
          | .ok _ st => .error details { st with configs := left }

def replaceSettings (env : Env C) (faults : Faults C) (items : List (String × Value)) (st : State C) :
    EStateM.Result String (State C) Unit :=
  match faults.settings with
  | some (details, left) => .error details { st with settings := left }
  | none => restoreSettings env items st

/-- The steps between the safety backup and the end of the `try` block. -/
def replaceState (env : Env C) (faults : Faults C) (backup : String) (username : Value) (st : State C) :
    EStateM.Result String (State C) Unit :=
  match faults.manifest with
  | some details => .error details st
  | none =>
      match loadResetManifest env st.items backup with
      | .error details => .error details st
      | .ok items =>
          match faults.symlink with
          | some details => .error details st
          | none =>
              let source := savedConfigs st.items backup
              if source.any (isSymlink env) then .error "reset snapshot config is a symlink" st
              else
                match replaceConfigs env faults source (clearPersistedPassword username st) with
                | .error details st => .error details st
                | .ok _ st => replaceSettings env faults items st

/-- `_apply_restore`. The report of a failure names the safety backup, which is not bound
when that could not be made. -/
def applyRestoreWith (env : Env C) (faults : Faults C) (moment : Moment) (toolkit : Toolkit) (index : Int)
    (backup : String) (st : State C) : EStateM.Result String (State C) Report :=
  if index ≠ 1 then .ok .dismissed st
  else
    match createBackup env faults moment st with
    | .error _ st => .error "UnboundLocalError" st
    | .ok safety next =>
        match replaceState env faults backup (getSetting st.settings .authUser) next with
        | .error details next => .ok (.failed safety details) next
        | .ok _ next => .ok (.completed safety) (refreshControls env toolkit next)

/-- The named backup exists, and in it the settings and the configurations of a state. -/
structure Saved (env : Env C) (moment : Moment) (st next : State C) (safety : String) : Prop where
  kept : ∃ entries, nodeAt next.items safety = some (.dir entries) ∧
    entries.find "manifest.json" = some (.file (env.dumps (manifest moment (snapshot st)))) ∧
    entries.find "config" = st.configs

/-- A restore does not end in an exception of its handler, and where it fails, nothing was
changed or all of it is in the backup that the report names. -/
def Recoverable (env : Env C) (moment : Moment) (st : State C) :
    EStateM.Result String (State C) Report → Prop
  | .error _ _ => False
  | .ok (.failed safety _) next =>
      next.settings = st.settings ∧ next.configs = st.configs ∨ Saved env moment st next safety
  | .ok _ _ => True

def copyable : Option (Node C) → Bool
  | none => true
  | some (.dir entries) => entries.whole
  | some _ => false

variable {env : Env C} {faults : Faults C} {moment : Moment} {st next : State C}

theorem backupEntries_isOk_iff {configs : Option (Node C)} (text : C) :
    (∃ entries, backupEntries configs text = .ok entries) ↔ copyable configs = true := by
  cases configs with
  | none => exact ⟨fun _ => rfl, fun _ => ⟨_, rfl⟩⟩
  | some node =>
      cases node with
      | file | link | special => simp [backupEntries, copyable]
      | dir entries =>
          simp only [backupEntries, copyable]
          split_ifs with h
          · exact ⟨fun _ => h, fun _ => ⟨_, rfl⟩⟩
          · simp [h]

theorem createResetBackup_isOk_iff (settings : List (String × Value)) :
    (∃ name next, createResetBackup env moment settings st = .ok name next) ↔
      copyable st.configs = true ∧ ∀ item ∈ st.items, item.name ≠ freshName env moment st.items := by
  rw [← backupEntries_isOk_iff (env.dumps (manifest moment settings))]
  simp only [createResetBackup]
  cases hb : backupEntries st.configs (env.dumps (manifest moment settings)) with
  | error details => simp
  | ok entries =>
      have hname : backupName moment
        (freshSuffix (fun n => taken env st.items (backupName moment n)) st.items.length 0) =
          freshName env moment st.items := rfl
      simp only [hname]
      by_cases hused : st.items.any fun item => decide (item.name = freshName env moment st.items)
      · rw [if_pos hused]
        obtain ⟨item, hitem, hsame⟩ := List.any_eq_true.mp hused
        refine iff_of_false (by simp) fun h => h.2 item hitem (of_decide_eq_true hsame)
      · rw [if_neg hused]
        refine iff_of_true ⟨_, _, rfl⟩ ⟨⟨entries, rfl⟩, fun item hitem hsame => hused ?_⟩
        exact List.any_eq_true.mpr ⟨item, hitem, decide_eq_true hsame⟩

theorem find_config {configs : Option (Node C)} {text : C} {entries : Entries C}
    (h : backupEntries configs text = .ok entries) : entries.find "config" = configs := by
  cases configs with
  | none => cases h; rfl
  | some node =>
      cases node with
      | file | link | special => cases h
      | dir files => exact (configs_of_backup h).1

theorem saved_of_created {name : String}
    (h : createResetBackup env moment (snapshot st) st = .ok name next) : Saved env moment st next name := by
  obtain ⟨entries, hentries, -, hfresh, rfl⟩ := createResetBackup_ok h
  exact ⟨entries, nodeAt_created hfresh moment.mtime (.dir entries), manifest_of_backup hentries,
    find_config hentries⟩

theorem Saved.of_items {other : State C} {safety : String} (h : Saved env moment st next safety)
    (hi : other.items = next.items) : Saved env moment st other safety := by
  obtain ⟨entries, hnode, hmanifest, hconfig⟩ := h.kept
  exact ⟨entries, by rw [hi]; exact hnode, hmanifest, hconfig⟩

def final {α : Type} : EStateM.Result String (State C) α → State C
  | .ok _ st => st
  | .error _ st => st

variable (env) in
theorem resetPaths_items (st : State C) : (final (resetPaths env st)).items = st.items := by
  rw [resetPaths]
  split
  · rfl
  · rfl
  · split <;> rfl
  · rfl
  · rfl

theorem restoreConfigs_items (source : Option (Node C)) (st : State C) :
    (final (restoreConfigs env source st)).items = st.items := by
  have hp := resetPaths_items env st
  rw [restoreConfigs]
  cases hr : resetPaths env st with
  | error details next => rw [hr] at hp; exact hp
  | ok u next =>
      rw [hr] at hp
      dsimp only
      split
      · split_ifs <;> exact hp
      · exact hp

variable (env) in
theorem replaceConfigs_items (faults : Faults C) (source : Option (Node C)) (st : State C) :
    (final (replaceConfigs env faults source st)).items = st.items := by
  have hp := resetPaths_items env st
  rw [replaceConfigs]
  split
  · rfl
  · split
    · exact restoreConfigs_items source st
    · cases hr : resetPaths env st with
      | error details next => rw [hr] at hp; exact hp
      | ok u next => rw [hr] at hp; exact hp

theorem replaceSettings_items (faults : Faults C) (items : List (String × Value)) (st : State C) :
    (final (replaceSettings env faults items st)).items = st.items := by
  rw [replaceSettings]
  split
  · rfl
  · rw [restoreSettings]
    split <;> rfl

variable (env) in
theorem replaceState_items (faults : Faults C) (backup : String) (username : Value) (st : State C) :
    (final (replaceState env faults backup username st)).items = st.items := by
  rw [replaceState]
  split
  · rfl
  · split
    · rfl
    · split
      · rfl
      · dsimp only
        split_ifs
        · rfl
        · have hclear := (clearPersistedPassword_keeps username st).1.items
          have hconfigs := replaceConfigs_items env faults (savedConfigs st.items backup)
            (clearPersistedPassword username st)
          generalize replaceConfigs env faults _ _ = replaced at hconfigs ⊢
          cases replaced with
          | error details next => exact hconfigs.trans hclear
          | ok u next => exact (replaceSettings_items faults _ next).trans (hconfigs.trans hclear)

theorem applyRestore_eq (env : Env C) (moment : Moment) (toolkit : Toolkit) (index : Int) (backup : String)
    (st : State C) :
    applyRestore env moment toolkit index backup st =
      match applyRestoreWith env {} moment toolkit index backup st with
      | .ok report next => .ok report.response next
      | .error details next => .error details next := by
  have hstate (username : Value) (st : State C) :
      replaceState env {} backup username st = restoreBackup env backup username st := rfl
  simp only [applyRestore, applyRestoreWith, createBackup, hstate]
  split_ifs
  · rfl
  · cases createResetBackup env moment (snapshot st) st with
    | error details next => rfl
    | ok safety next =>
        dsimp only
        cases restoreBackup env backup (getSetting st.settings .authUser) next <;> rfl

/-- A failed restore is reported and can be undone exactly when the safety backup does not
fail: the system lets it be written, all configurations can be copied, and its name is free. -/
theorem recoverable_iff (env : Env C) (faults : Faults C) (moment : Moment) (toolkit : Toolkit)
    (index : Int) (backup : String) (st : State C) :
    Recoverable env moment st (applyRestoreWith env faults moment toolkit index backup st) ↔
      (index = 1 → faults.backup = none ∧ copyable st.configs = true ∧
        ∀ item ∈ st.items, item.name ≠ freshName env moment st.items) := by
  rw [applyRestoreWith]
  split_ifs with hindex
  · exact iff_of_true trivial fun h => absurd h hindex
  · rw [← createResetBackup_isOk_iff (snapshot st), imp_iff_right (not_not.mp hindex), createBackup]
    cases hf : faults.backup with
    | some fault => exact iff_of_false id fun h => by cases h.1
    | none =>
        cases hc : createResetBackup env moment (snapshot st) st with
        | error details next => simp [Recoverable]
        | ok safety next =>
            refine iff_of_true ?_ ⟨rfl, safety, next, rfl⟩
            have hitems := replaceState_items env faults backup (getSetting st.settings .authUser) next
            dsimp only
            generalize replaceState env faults backup _ next = replaced at hitems ⊢
            cases replaced with
            | error details left => exact .inr ((saved_of_created hc).of_items hitems)
            | ok u left => trivial

def linked : State String := { used with configs := some (.link "/srv/vpn") }

theorem linked_restore_raises : ¬ ∀ (env : Env String) (faults : Faults String) (moment : Moment)
    (toolkit : Toolkit) (index : Int) (backup : String) (st : State String),
      Recoverable env moment st (applyRestoreWith env faults moment toolkit index backup st) := by
  intro h
  exact h plainEnv {} usedMoment loudToolkit 1 "reset-backup-20260101T000000Z-7" linked

end EovpnPro.RestoreFailure
