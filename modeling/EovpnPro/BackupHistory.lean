import EovpnPro.ResetRestore
import EovpnPro.Rollback

namespace EovpnPro.BackupHistory

open FileTrees Settings ResetBackup ResetRestore Rollback Runs

variable {C : Type}

structure Window (C : Type) where
  state : State C
  question : Option (Item C)

/-- `edit` is whatever the rest of the program makes of the settings, of the managed
directory and of the session password. The index is the button of a dialog that is
answered. -/
inductive Act (C : Type)
  | edit (settings : Store) (files : Entries C) (session : Option String)
  | reset (moment : Moment) (toolkit : Toolkit) (index : Int)
  | ask
  | restore (moment : Moment) (toolkit : Toolkit) (index : Int)

def finalState {α : Type} : EStateM.Result String (State C) α → State C
  | .ok _ st | .error _ st => st

def step (env : Env C) (w : Window C) : Act C → Option (Window C)
  | .edit settings files session =>
      some { w with state := { w.state with settings := settings, configs := some (.dir files), session := session } }
  | .reset moment toolkit index => some { w with state := finalState (applyReset env moment toolkit index w.state) }
  | .ask => some { w with question := latestResetBackup env w.state.items }
  | .restore moment toolkit index => w.question.map fun item =>
      ⟨finalState (applyRestore env moment toolkit index item.name w.state), none⟩

/-- A dialog that was confirmed, so that a backup was made. -/
def Act.Confirmed : Act C → Prop
  | .reset _ _ index | .restore _ _ index => index = 1
  | .edit _ _ _ | .ask => False

/-- What may happen while the question is open. -/
def Act.Waits : Act C → Prop
  | .edit _ _ _ | .reset _ _ _ => True
  | .ask | .restore _ _ _ => False

/-- The clock of a backup is past those of the backups before, and its manifest is
read back as it was written. -/
structure Timely (env : Env C) (moment : Moment) (st : State C) : Prop where
  clock : ∀ item ∈ st.items, item.mtime < moment.mtime
  json : env.loads (env.dumps (manifest moment (snapshot st))) = .ok (manifest moment (snapshot st))

def Ordinary (env : Env C) (w : Window C) : Act C → Prop
  | .edit settings files _ => (∀ key, Kept settings key) ∧ files.whole = true
  | .reset moment _ _ | .restore moment _ _ => Timely env moment w.state
  | .ask => True

structure View (C : Type) where
  reads : Key → Value
  configs : Option (Node C)

def view (w : Window C) : View C := ⟨getSetting w.state.settings, w.state.configs⟩

/-- A managed directory that can be copied, beside which no link leads nowhere. -/
structure Sound (env : Env C) (st : State C) : Prop where
  configs : ∃ files, st.configs = some (.dir files) ∧ files.whole = true
  present : ∀ item ∈ st.items, present env item.node = true
  kept : ∀ key, Kept st.settings key

/-- An entry beside the managed directory is the backup of a view. -/
structure Holds (env : Env C) (items : List (Item C)) (item : Item C) (v : View C) : Prop where
  holds : ∃ (st : State C) (moment : Moment) (files entries : Entries C),
    v = ⟨getSetting st.settings, some (.dir files)⟩ ∧ (∀ key, Kept st.settings key) ∧
      backupEntries (some (.dir files)) (env.dumps (manifest moment (snapshot st))) = .ok entries ∧
      nodeAt items item.name = some (.dir entries) ∧
      env.loads (env.dumps (manifest moment (snapshot st))) = .ok (manifest moment (snapshot st))

/-- Nothing, or the backup of what the register has. -/
def Backs (env : Env C) (items : List (Item C)) : Option (Item C) → Option (View C) → Prop
  | none, none => True
  | some item, some v => Holds env items item v
  | none, some _ | some _, none => False

structure Rel (env : Env C) (w : Window C) (r : Register (View C)) : Prop where
  sound : Sound env w.state
  current : r.current = view w
  saved : Backs env w.state.items (latestResetBackup env w.state.items) r.saved
  offered : Backs env w.state.items w.question r.offered

/-- What an action does to the register: a dialog that is dismissed changes nothing. -/
def opOf (_ : Window C) (a : Act C) (t : Window C) : Op (View C) :=
  match a with
  | .edit _ _ _ => .edit (view t)
  | .reset _ _ index => if index = 1 then .save (view t) else .edit (view t)
  | .ask => .offer
  | .restore _ _ index => if index = 1 then .restore else .withdraw

variable {env : Env C} {toolkit : Toolkit}

theorem kept_iff_reads {settings : Store} {key : Key} :
    Kept settings key ↔
      ∀ text, key.default = .string text → text ≠ "" → getSetting settings key ≠ .none := by
  have htype := getValue_type settings key
  constructor
  · intro hk text htext hne hread
    obtain ⟨hempty, hnull⟩ := hk text htext hne
    rw [htext] at htype
    cases hv : getValue settings key with
    | string s =>
        simp only [getSetting, hv] at hread
        rw [hv] at hempty hnull
        cases hs : readString s with
        | none =>
            rcases unset_of_readString hs with rfl | rfl
            · exact hnull rfl
            · exact hempty rfl
        | some _ => rw [hs] at hread; cases hread
    | boolean | int32 | double | strv => rw [hv] at htype; cases htype
  · intro hread text htext hne
    have h := hread text htext hne
    constructor <;> (intro hv; exact h (by simp [getSetting, hv, readString]))

theorem kept_of_reads {a b : Store} {key : Key} (h : getSetting a key = getSetting b key)
    (hk : Kept b key) : Kept a key := by
  rw [kept_iff_reads] at hk ⊢
  rwa [h]

theorem getValue_resetAll (settings : Store) (key : Key) : getValue (resetAllSettings settings) key = key.default := by
  have hreset : ∀ (keys : List Key) (st : Store), key ∈ keys →
      getValue (keys.foldl Settings.reset st) key = key.default := by
    intro keys
    induction keys using List.reverseRecOn with
    | nil => intro _ h; cases h
    | append_singleton keys last ih =>
        intro st hmem
        rw [List.foldl_append, List.foldl_cons, List.foldl_nil]
        by_cases h : key = last
        · subst h
          exact getValue_reset _ _
        · rw [getValue_reset_ne h]
          refine ih st ?_
          rcases List.mem_append.mp hmem with hin | hin
          · exact hin
          · exact absurd (List.mem_singleton.mp hin) h
  exact hreset _ _ (mem_allSettings key)

theorem kept_resetAll (settings : Store) (key : Key) : Kept (resetAllSettings settings) key := by
  intro text htext hne
  rw [getValue_resetAll, htext]
  constructor
  · intro h
    exact hne (Variant.string.inj h)
  · intro h
    cases key <;> simp_all [Key.default]

theorem blankControls_frame {key : Key} {text : String} (htext : key.default = .string text)
    (hne : text ≠ "") (st : State C) :
    getSetting (blankControls env toolkit st).settings key = getSetting st.settings key := by
  have hremote : key ≠ .remote := by rintro rfl; exact hne (Variant.string.inj htext).symm
  have huser : key ≠ .authUser := by rintro rfl; exact hne (Variant.string.inj htext).symm
  have hswitch : key ∉ switches := by intro h; cases key <;> simp_all [switches, Key.default]
  have hhandler : ∀ entry text (s : State C),
      getSetting (handler env entry text s).settings key = getSetting s.settings key := by
    intro entry text s
    cases entry with
    | configSource => exact assign_frame _ s hremote
    | username => exact assign_frame _ s huser
    | password =>
        simp only [handler, processPassword]
        split <;> rfl
  have hset : ∀ entry text (s : State C),
      getSetting (setText env toolkit entry text s).settings key = getSetting s.settings key := by
    intro entry text s
    rw [setText]
    generalize toolkit.seen entry text = texts
    induction texts generalizing s with
    | nil => rfl
    | cons seen texts ih => rw [List.foldl_cons, ih, hhandler]
  have hstate : ∀ (keys : List Key) (s : State C), key ∉ keys →
      getSetting (keys.foldl (fun st key => setState env toolkit key false st) s).settings key =
        getSetting s.settings key := by
    intro keys
    induction keys with
    | nil => exact fun _ _ => rfl
    | cons k keys ih =>
        intro s hnot
        obtain ⟨hk, hrest⟩ := not_or.mp (fun h => hnot (List.mem_cons.mpr h))
        rw [List.foldl_cons, ih _ hrest, setState]
        split
        · exact assign_frame _ s hk
        · rfl
  simp only [blankControls, List.foldl_cons, List.foldl_nil]
  rw [hstate _ _ hswitch, hset, hset, hset]

theorem applyReset_kept {moment : Moment} {st next : State C} {name : String}
    (h : applyReset env moment toolkit 1 st = .ok (.completed name) next) (key : Key) :
    Kept next.settings key := by
  rw [applyReset, if_neg (fun hne => hne rfl)] at h
  cases hc : createResetBackup env moment (snapshot st) st with
  | error details s => simp only [hc] at h; cases h
  | ok backup s =>
      simp only [hc] at h
      generalize clearPersistedPassword _ _ = cleared at h
      split at h
      · cases h
      · rename_i u emptied hempty
        cases h
        have hsettings := (resetPaths_ok hempty).2.1
        have hkept : Kept emptied.settings key := by
          rw [hsettings]
          exact kept_resetAll _ key
        rw [kept_iff_reads] at hkept ⊢
        intro text htext hne
        rw [blankControls_frame htext hne]
        exact hkept text htext hne

theorem present_append {items : List (Item C)} {name : String} {mtime : Nat} {entries : Entries C}
    (h : ∀ item ∈ items, present env item.node = true) :
    ∀ item ∈ items ++ [⟨name, mtime, .dir entries⟩], present env item.node = true := by
  intro item hitem
  rcases List.mem_append.mp hitem with hold | hnew
  · exact h item hold
  · rw [List.mem_singleton.mp hnew]
    rfl

theorem backs_created {st : State C} {moment : Moment} {files entries : Entries C} {suffix : Nat}
    (hsound : Sound env st) (htimely : Timely env moment st) (hfiles : st.configs = some (.dir files))
    (hentries : backupEntries st.configs (env.dumps (manifest moment (snapshot st))) = .ok entries)
    (hfresh : ∀ item ∈ st.items, item.name ≠ backupName moment suffix) :
    Backs env (st.items ++ [⟨backupName moment suffix, moment.mtime, .dir entries⟩])
      (latestResetBackup env (st.items ++ [⟨backupName moment suffix, moment.mtime, .dir entries⟩]))
      (some ⟨getSetting st.settings, st.configs⟩) := by
  rw [hfiles] at hentries ⊢
  rw [latestResetBackup_created env suffix (manifest_of_backup hentries) htimely.clock]
  exact ⟨st, moment, files, entries, rfl, hsound.kept, hentries, nodeAt_created hfresh _ _, htimely.json⟩

theorem Backs.append {items : List (Item C)} {item : Option (Item C)} {v : Option (View C)} (new : Item C)
    (h : Backs env items item v) : Backs env (items ++ [new]) item v := by
  cases item with
  | none => cases v <;> exact h
  | some item =>
      cases v with
      | none => exact h
      | some v =>
          obtain ⟨st, moment, files, entries, hv, hk, hentries, hnode, hjson⟩ := h.holds
          exact ⟨st, moment, files, entries, hv, hk, hentries, nodeAt_append new hnode, hjson⟩

variable (toolkit) in
theorem reset_backs {st : State C} {moment : Moment} (hsound : Sound env st) (htimely : Timely env moment st) :
    ∃ item, (finalState (applyReset env moment toolkit 1 st)).items = st.items ++ [item] ∧
      item.mtime = moment.mtime ∧ Sound env (finalState (applyReset env moment toolkit 1 st)) ∧
      Backs env (st.items ++ [item]) (latestResetBackup env (st.items ++ [item]))
        (some ⟨getSetting st.settings, st.configs⟩) := by
  obtain ⟨files, hfiles, hwhole⟩ := hsound.configs
  obtain ⟨backup, reset, hreset, hempty⟩ := applyReset_completes env moment toolkit hfiles hwhole hsound.present
  obtain ⟨entries, suffix, hentries, hfresh, hitems⟩ := applyReset_completed hreset
  rw [hreset]
  refine ⟨_, hitems, rfl, ⟨⟨.nil, hempty, rfl⟩, ?_, applyReset_kept hreset⟩,
    backs_created hsound htimely hfiles hentries hfresh⟩
  simp only [finalState, hitems]
  exact present_append hsound.present

theorem restoreConfigs_items {source : Option (Node C)} {st next : State C} {u : Unit}
    (h : restoreConfigs env source st = .ok u next) : next.items = st.items := by
  rw [restoreConfigs] at h
  split at h
  · cases h
  · rename_i hpaths
    have hitems := (resetPaths_ok hpaths).1
    split at h
    · split at h
      · cases h
        exact hitems
      · cases h
    · cases h
      exact hitems

theorem restoreSettings_items {items : List (String × Value)} {st next : State C} {u : Unit}
    (h : restoreSettings env items st = .ok u next) : next.items = st.items := by
  rw [restoreSettings] at h
  split at h
  · cases h
    rfl
  · cases h

theorem restoreBackup_items {backup : String} {username : Value} {st next : State C} {u : Unit}
    (h : restoreBackup env backup username st = .ok u next) : next.items = st.items := by
  simp only [restoreBackup] at h
  split at h
  · cases h
  · split at h
    · cases h
    · split at h
      · cases h
      · rename_i hconfigs
        rw [restoreSettings_items h, restoreConfigs_items hconfigs]
        exact (clearPersistedPassword_keeps username st).1.items

theorem applyRestore_items {moment : Moment} {backup name : String} {st next : State C}
    (h : applyRestore env moment toolkit 1 backup st = .ok (.completed name) next) :
    ∃ entries suffix, backupEntries st.configs (env.dumps (manifest moment (snapshot st))) = .ok entries ∧
      (∀ item ∈ st.items, item.name ≠ backupName moment suffix) ∧
      next.items = st.items ++ [⟨backupName moment suffix, moment.mtime, .dir entries⟩] := by
  rw [applyRestore, if_neg (fun hne => hne rfl)] at h
  cases hc : createResetBackup env moment (snapshot st) st with
  | error details s => simp only [hc] at h; cases h
  | ok safety s =>
      obtain ⟨entries, hentries, ⟨suffix, rfl⟩, hfresh, rfl⟩ := createResetBackup_ok hc
      refine ⟨entries, suffix, hentries, hfresh, ?_⟩
      simp only [hc] at h
      split at h
      · cases h
      · rename_i hbackup
        cases h
        rw [(refreshControls_files _).items, restoreBackup_items hbackup]

variable (toolkit) in
/-- A confirmed restore puts the present view aside as the latest backup, and makes
the view that the question offers the present one. -/
theorem restore_backs {st : State C} {moment : Moment} {item : Item C} {v : View C} (hsound : Sound env st)
    (htimely : Timely env moment st) (hholds : Holds env st.items item v) :
    ∃ new, (finalState (applyRestore env moment toolkit 1 item.name st)).items = st.items ++ [new] ∧
      Sound env (finalState (applyRestore env moment toolkit 1 item.name st)) ∧
      Backs env (st.items ++ [new]) (latestResetBackup env (st.items ++ [new]))
        (some ⟨getSetting st.settings, st.configs⟩) ∧
      view ⟨finalState (applyRestore env moment toolkit 1 item.name st), none⟩ = v := by
  obtain ⟨files, hfiles, hwhole⟩ := hsound.configs
  obtain ⟨saved, earlier, old, entries, rfl, hkept, hentries, hnode, hjson⟩ := hholds.holds
  obtain ⟨safety, next, hrestore⟩ := applyRestore_completes moment toolkit hkept hentries hnode hjson hfiles
    hwhole hsound.present
  obtain ⟨fresh, suffix, hfresh, hnew, hitems⟩ := applyRestore_items hrestore
  obtain ⟨hreads, hconfigs⟩ := applyRestore_completed hkept hentries hnode hjson hrestore
  rw [hrestore]
  refine ⟨_, hitems, ⟨⟨old, hconfigs, (configs_of_backup hentries).2⟩, ?_, ?_⟩,
    backs_created hsound htimely hfiles hfresh hnew, ?_⟩
  · simp only [finalState, hitems]
    exact present_append hsound.present
  · exact fun key => kept_of_reads (hreads key) (hkept key)
  · simp only [view, finalState, hconfigs, View.mk.injEq, and_true]
    exact funext hreads

theorem refines_step : Refines (step env) (Ordinary env) (Rel env) opOf := by
  intro w a t r hrel hguard hstep
  have hcurrent := hrel.current
  cases a with
  | edit settings files session =>
      cases hstep
      exact ⟨_, rfl, ⟨⟨files, rfl, hguard.2⟩, hrel.sound.present, hguard.1⟩, rfl, hrel.saved, hrel.offered⟩
  | ask =>
      cases hstep
      exact ⟨_, rfl, hrel.sound, hcurrent, hrel.saved, hrel.saved⟩
  | reset moment toolkit index =>
      cases hstep
      by_cases hindex : index = 1
      · subst hindex
        obtain ⟨item, hitems, -, hsound, hbacks⟩ := reset_backs toolkit hrel.sound hguard
        refine ⟨_, rfl, hsound, rfl, ?_, ?_⟩
        · rw [hitems, hcurrent]
          exact hbacks
        · rw [hitems]
          exact hrel.offered.append item
      · refine ⟨{ r with current := view w }, ?_, ?_⟩
        · simp [opOf, hindex, Rollback.apply, applyReset, finalState, view]
        · have hstay : finalState (applyReset env moment toolkit index w.state) = w.state := by
            rw [applyReset, if_pos hindex]
            rfl
          rw [hstay]
          exact ⟨hrel.sound, rfl, hrel.saved, hrel.offered⟩
  | restore moment toolkit index =>
      obtain ⟨item, hitem, rfl⟩ := Option.map_eq_some_iff.mp hstep
      have hoffered := hrel.offered
      rw [hitem] at hoffered
      cases ho : r.offered with
      | none => rw [ho] at hoffered; exact hoffered.elim
      | some v =>
          rw [ho] at hoffered
          by_cases hindex : index = 1
          · subst hindex
            obtain ⟨new, hitems, hsound, hbacks, hview⟩ :=
              restore_backs toolkit hrel.sound hguard hoffered
            refine ⟨⟨v, some r.current, none⟩, by simp [opOf, Rollback.apply, ho], hsound, hview.symm, ?_, trivial⟩
            rw [hitems, hcurrent]
            exact hbacks
          · have hstay : finalState (applyRestore env moment toolkit index item.name w.state) = w.state := by
              rw [applyRestore, if_pos hindex]
              rfl
            refine ⟨{ r with offered := none }, by simp [opOf, hindex, Rollback.apply], ?_⟩
            rw [hstay]
            exact ⟨hrel.sound, hcurrent, hrel.saved, trivial⟩

theorem not_saves_of_not_confirmed {a : Act C} (h : ¬a.Confirmed) (w t : Window C) : ¬(opOf w a t).Saves := by
  cases a with
  | edit settings files session => exact id
  | ask => exact id
  | reset moment toolkit index | restore moment toolkit index =>
      rw [opOf, if_neg (show index ≠ 1 from h)]
      exact id

theorem saves_of_confirmed {a : Act C} (h : a.Confirmed) (w t : Window C) : (opOf w a t).Saves := by
  cases a with
  | edit settings files session => exact h.elim
  | ask => exact h.elim
  | reset moment toolkit index | restore moment toolkit index =>
      rw [opOf, if_pos (show index = 1 from h)]
      trivial

theorem waits_of_waits {a : Act C} (h : a.Waits) (w t : Window C) : (opOf w a t).Waits := by
  cases a with
  | edit settings files session => trivial
  | reset moment toolkit index =>
      rw [opOf]
      split <;> trivial
  | ask => exact h.elim
  | restore moment toolkit index => exact h.elim

/-- A window of a fresh installation, before any backup. -/
structure Fresh (env : Env C) (w : Window C) : Prop where
  none_saved : latestResetBackup env w.state.items = none
  none_asked : w.question = none
  sound : Sound env w.state

theorem Fresh.rel {w : Window C} (h : Fresh env w) : Rel env w ⟨view w, none, none⟩ where
  sound := h.sound
  current := rfl
  saved := by
    rw [h.none_saved]
    trivial
  offered := by
    rw [h.none_asked]
    trivial

def unsaved : Window String := ⟨{ used with items := [] }, none⟩

def imported : Entries String := .cons "b.ovpn" (.file "remote b.example 1194") .nil

def resetAndImport : List (Act String) := [.reset usedMoment loudToolkit 1, .edit usedStore imported none]

def restoreLater : Act String := .restore { usedMoment with mtime := 3 } loudToolkit 1

theorem unsaved_fresh : Fresh plainEnv unsaved where
  none_saved := rfl
  none_asked := rfl
  sound :=
    { configs := ⟨_, rfl, rfl⟩
      present := fun _ h => by cases h
      kept := usedStore_kept }

theorem unsaved_timely : Timely plainEnv usedMoment unsaved.state where
  clock := fun _ h => by cases h
  json := if_pos rfl

theorem unsaved_run :
    ∃ m u t, run (step plainEnv) unsaved resetAndImport = some m ∧ run (step plainEnv) m [.ask] = some u ∧
      step plainEnv u restoreLater = some t ∧
      AllSteps (step plainEnv) (Ordinary plainEnv) unsaved (resetAndImport ++ [.ask, restoreLater]) := by
  obtain ⟨item, hitems, hmtime, hsound, hbacks⟩ :=
    reset_backs loudToolkit unsaved_fresh.sound unsaved_timely
  have hlatest : ∃ latest, latestResetBackup plainEnv ([] ++ [item]) = some latest := by
    cases hl : latestResetBackup plainEnv ([] ++ [item]) with
    | none => rw [show unsaved.state.items = [] from rfl, hl] at hbacks; exact hbacks.elim
    | some latest => exact ⟨latest, rfl⟩
  obtain ⟨latest, hlatest⟩ := hlatest
  generalize hreset : finalState (applyReset plainEnv usedMoment loudToolkit 1 unsaved.state) = reset
    at hitems hsound
  change reset.items = [] ++ [item] at hitems
  have hstep : step plainEnv unsaved (.reset usedMoment loudToolkit 1) = some ⟨reset, none⟩ := by
    rw [step, hreset]
    rfl
  let m : Window String := ⟨{ reset with settings := usedStore, configs := some (.dir imported), session := none }, none⟩
  have hask : step plainEnv m .ask = some ⟨m.state, some latest⟩ := by
    rw [step, ← hlatest, ← hitems]
  refine ⟨m, ⟨m.state, some latest⟩, _, ?_, ?_, rfl, ?_⟩
  · rw [resetAndImport, run, hstep]
    rfl
  · rw [run, hask]
    rfl
  · intro s hs
    cases hstep.symm.trans hs
    refine ⟨unsaved_timely, fun s hs => ?_⟩
    cases hs
    refine ⟨⟨usedStore_kept, rfl⟩, fun s hs => ?_⟩
    cases hask.symm.trans hs
    refine ⟨trivial, fun s _ => ⟨⟨?_, if_pos rfl⟩, trivial⟩⟩
    intro other hother
    replace hother : other ∈ reset.items := hother
    rw [hitems] at hother
    rw [List.mem_singleton.mp hother, hmtime]
    decide

/-- However edits, resets, questions and restores follow on each other, the settings
and the configurations are the register's, the newest backup holds what it has saved,
and an open question offers a backup of what it offers. -/
theorem run_follows_register {w t : Window C} {acts : List (Act C)} (hfresh : Fresh env w)
    (hordinary : AllSteps (step env) (Ordinary env) w acts) (hrun : run (step env) w acts = some t) :
    ∃ saved offered, run Rollback.apply ⟨view w, none, none⟩ (opsOf (step env) opOf w acts) =
        some ⟨view t, saved, offered⟩ ∧
      Backs env t.state.items (latestResetBackup env t.state.items) saved ∧
        Backs env t.state.items t.question offered := by
  obtain ⟨⟨current, saved, offered⟩, hops, hrel⟩ := refines_step.run hfresh.rel hordinary hrun
  obtain rfl : current = view t := hrel.current
  exact ⟨saved, offered, hops, hrel.saved, hrel.offered⟩

theorem run_follows_register_unsaved :
    ∃ t saved offered, run (step plainEnv) unsaved (resetAndImport ++ [.ask, restoreLater]) = some t ∧
      run Rollback.apply ⟨view unsaved, none, none⟩
        (opsOf (step plainEnv) opOf unsaved (resetAndImport ++ [.ask, restoreLater])) =
          some ⟨view t, saved, offered⟩ ∧
      Backs plainEnv t.state.items (latestResetBackup plainEnv t.state.items) saved ∧
        Backs plainEnv t.state.items t.question offered := by
  obtain ⟨m, u, t, hm, hu, ht, hordinary⟩ := unsaved_run
  have hrun : run (step plainEnv) unsaved (resetAndImport ++ [.ask, restoreLater]) = some t := by
    rw [run_append, hm, Option.bind_some, ← List.singleton_append, run_append, hu, Option.bind_some, run, ht]
    rfl
  obtain ⟨saved, offered, hops⟩ := run_follows_register unsaved_fresh hordinary hrun
  exact ⟨t, saved, offered, hrun, hops⟩

/-- A restore gives back the settings and the configurations from before the last
confirmed reset or restore that its question came after. -/
theorem restore_takes_back_last {w s m u t : Window C} {acts quiet waiting : List (Act C)} {last : Act C}
    {moment : Moment} {toolkit : Toolkit} (hfresh : Fresh env w) (hlast : last.Confirmed)
    (hquiet : ∀ a ∈ quiet, ¬a.Confirmed) (hwaiting : ∀ a ∈ waiting, a.Waits)
    (hs : run (step env) w acts = some s) (hm : run (step env) s (last :: quiet) = some m)
    (hu : run (step env) m (.ask :: waiting) = some u)
    (ht : step env u (.restore moment toolkit 1) = some t)
    (hordinary : AllSteps (step env) (Ordinary env) w
      (acts ++ (last :: quiet ++ (.ask :: waiting ++ [.restore moment toolkit 1])))) :
    view t = view s := by
  obtain ⟨hacts, hrest⟩ := allSteps_append hs hordinary
  obtain ⟨hbacked, hrest⟩ := allSteps_append hm hrest
  obtain ⟨hasked, hrest⟩ := allSteps_append hu hrest
  obtain ⟨r, -, hr⟩ := refines_step.run hfresh.rel hacts hs
  obtain ⟨r₁, h₁, hr₁⟩ := refines_step.run hr hbacked hm
  obtain ⟨r₂, h₂, hr₂⟩ := refines_step.run hr₁ hasked hu
  obtain ⟨r₃, h₃, hr₃⟩ := refines_step u _ t r₂ hr₂ (hrest t ht).1 ht
  obtain ⟨n, hn, -⟩ := Option.bind_eq_some_iff.mp hm
  rw [opsOf, hn] at h₁
  rw [← hr₃.current, ← hr.current]
  refine restore_brings_back (saves_of_confirmed hlast s n) ?_ ?_ h₁ h₂ h₃
  · intro op hop
    obtain ⟨a, ha, w', t', rfl⟩ := mem_opsOf hop
    exact not_saves_of_not_confirmed (hquiet a ha) w' t'
  · intro op hop
    obtain ⟨a, ha, w', t', rfl⟩ := mem_opsOf hop
    exact waits_of_waits (hwaiting a ha) w' t'

/-- What was imported after the reset gives way to what was there before it. -/
theorem restore_takes_back_last_unsaved :
    ∃ m u t, run (step plainEnv) unsaved resetAndImport = some m ∧ run (step plainEnv) m [.ask] = some u ∧
      step plainEnv u restoreLater = some t ∧ view t = view unsaved := by
  obtain ⟨m, u, t, hm, hu, ht, hordinary⟩ := unsaved_run
  refine ⟨m, u, t, hm, hu, ht, ?_⟩
  have hlast : (Act.reset usedMoment loudToolkit 1 : Act String).Confirmed := rfl
  have hs : run (step plainEnv) unsaved [] = some unsaved := rfl
  refine restore_takes_back_last unsaved_fresh hlast ?_ ?_ hs hm hu ht hordinary
  · intro a ha
    rw [List.mem_singleton.mp ha]
    exact id
  · exact fun a ha => by cases ha

end EovpnPro.BackupHistory
