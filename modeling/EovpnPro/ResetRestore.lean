import EovpnPro.ResetBackup

namespace EovpnPro.ResetRestore

open FileTrees Settings ResetBackup

variable {C : Type}

inductive Entry
  | configSource
  | username
  | password
  deriving DecidableEq, Repr

/-- The signals that widgets send while the code sets them: the texts that the
handler of "changed" finds in an entry, of which the last is the one that was set,
and whether the handler of "state-set" runs for a switch. -/
structure Toolkit where
  seen : Entry → String → List String
  seen_last : ∀ entry text, ∀ last ∈ (seen entry text).getLast?, last = text
  sends : Key → Bool → Bool

inductive Response
  | dismissed
  | failed (details : String)
  | completed (backup : String)
  deriving DecidableEq, Repr

def snapshot (st : State C) : List (String × Value) :=
  allSettings.map fun key => (key.name, getSetting st.settings key)

def truthy : Value → Bool
  | .none => false
  | .bool b => b
  | .int n => n ≠ 0
  | .float d => d ≠ 0 ∧ d ≠ 0x8000000000000000
  | .str s => s ≠ ""
  | .list xs => !xs.isEmpty
  | .dict items => !items.isEmpty

/-- `value or ""` -/
def textOf : Value → String
  | .str s => s
  | _ => ""

/-- `set_setting` in a handler, where an exception is printed and passed over. -/
def assign (env : Env C) (key : Key) (value : Value) (st : State C) : State C :=
  match setSetting env.repr st.settings key value with
  | .ok settings => { st with settings := settings }
  | .error _ => st

def textValue (text : String) : Value := if text = "" then .none else .str text

def processConfigEntry (env : Env C) (text : String) : State C → State C :=
  assign env .remote (textValue text)

def processUsername (env : Env C) (text : String) : State C → State C :=
  assign env .authUser (textValue text)

def processPassword (pwd : String) (st : State C) : State C :=
  if pwd ≠ "" ∧ truthy (getSetting st.settings .authUser) = true then { st with session := some pwd }
  else { st with session := none }

def handler (env : Env C) : Entry → String → State C → State C
  | .configSource => processConfigEntry env
  | .username => processUsername env
  | .password => processPassword

def setText (env : Env C) (toolkit : Toolkit) (entry : Entry) (text : String) (st : State C) : State C :=
  (toolkit.seen entry text).foldl (fun st text => handler env entry text st) st

def setState (env : Env C) (toolkit : Toolkit) (key : Key) (state : Bool) (st : State C) : State C :=
  if toolkit.sends key state then assign env key (.bool state) st else st

def switches : List Key := [.reqAuth, .notifications, .showFlag, .darkTheme, .autoReconnect]

def blankControls (env : Env C) (toolkit : Toolkit) (st : State C) : State C :=
  let st := [Entry.configSource, .username, .password].foldl (fun st e => setText env toolkit e "" st) st
  switches.foldl (fun st key => setState env toolkit key false st) st

def refreshControls (env : Env C) (toolkit : Toolkit) (st : State C) : State C :=
  let st := setText env toolkit .configSource (textOf (getSetting st.settings .remote)) st
  let st := setText env toolkit .username (textOf (getSetting st.settings .authUser)) st
  let st := setText env toolkit .password "" st
  switches.foldl (fun st key => setState env toolkit key (truthy (getSetting st.settings key)) st) st

def clearPersistedPassword (username : Value) (st : State C) : State C :=
  if truthy username then { st with cleared := st.cleared ++ [textOf username] } else st

/-- `rmtree` leaves alone what is not a directory, and `makedirs` then finds it. -/
def resetPaths (env : Env C) (st : State C) : EStateM.Result String (State C) Unit :=
  match st.configs with
  | some (.file _) | some .special => .error "FileExistsError" st
  | some (.link target) =>
      match env.follow target with
      | some (.dir _) => .ok () st
      | _ => .error "FileExistsError" st
  | some (.dir _) | none => .ok () { st with configs := some (.dir .nil) }

def applyReset (env : Env C) (moment : Moment) (toolkit : Toolkit) (index : Int) (st : State C) :
    EStateM.Result String (State C) Response :=
  if index ≠ 1 then .ok .dismissed st
  else
    match createResetBackup env moment (snapshot st) st with
    | .error details st => .ok (.failed details) st
    | .ok backup next =>
        let next := clearPersistedPassword (getSetting st.settings .authUser) next
        let next := { next with settings := resetAllSettings next.settings, session := none }
        match resetPaths env next with
        | .error details next => .error details next
        | .ok _ next => .ok (.completed backup) (blankControls env toolkit next)

def savedConfigs (items : List (Item C)) (backup : String) : Option (Node C) :=
  match nodeAt items backup with
  | some (.dir entries) => entries.find "config"
  | _ => none

def isSymlink (env : Env C) : Node C → Bool
  | .link target => (env.follow target).isSome
  | _ => false

def copyInto (configs : Option (Node C)) (entries : Entries C) : Option (Node C) :=
  match configs with
  | some (.link target) => some (.link target)
  | _ => some (.dir entries.copy)

/-- The managed directory is emptied first. What cannot be copied is reported once
the rest is there. -/
def restoreConfigs (env : Env C) (source : Option (Node C)) (st : State C) :
    EStateM.Result String (State C) Unit :=
  match resetPaths env st with
  | .error details st => .error details st
  | .ok _ st =>
      match source with
      | some (.dir entries) =>
          let st := { st with configs := copyInto st.configs entries }
          if entries.whole then .ok () st else .error "Error" st
      | _ => .ok () st

def restoreSettings (env : Env C) (items : List (String × Value)) (st : State C) :
    EStateM.Result String (State C) Unit :=
  match setAll env.repr (resetAllSettings st.settings) items with
  | .ok _ settings => .ok () { st with settings := settings, session := none }
  | .error details settings => .error details { st with settings := settings }

def restoreBackup (env : Env C) (backup : String) (username : Value) (st : State C) :
    EStateM.Result String (State C) Unit :=
  match loadResetManifest env st.items backup with
  | .error details => .error details st
  | .ok items =>
      let source := savedConfigs st.items backup
      if source.any (isSymlink env) then .error "reset snapshot config is a symlink" st
      else
        match restoreConfigs env source (clearPersistedPassword username st) with
        | .error details st => .error details st
        | .ok _ st => restoreSettings env items st

/-- Where the safety backup fails, the report of the failure raises itself, for it
names that backup. -/
def applyRestore (env : Env C) (moment : Moment) (toolkit : Toolkit) (index : Int) (backup : String)
    (st : State C) : EStateM.Result String (State C) Response :=
  if index ≠ 1 then .ok .dismissed st
  else
    match createResetBackup env moment (snapshot st) st with
    | .error _ st => .error "UnboundLocalError" st
    | .ok safety next =>
        match restoreBackup env backup (getSetting st.settings .authUser) next with
        | .error details next => .ok (.failed details) next
        | .ok _ next => .ok (.completed safety) (refreshControls env toolkit next)

structure SameFiles (a b : State C) : Prop where
  configs : a.configs = b.configs
  items : a.items = b.items

def SameReads (a b : State C) : Prop :=
  ∀ key, getSetting a.settings key = getSetting b.settings key

variable {env : Env C} {toolkit : Toolkit}

theorem SameFiles.foldl {α : Type} {f : State C → α → State C} (hf : ∀ st x, SameFiles (f st x) st)
    (xs : List α) (st : State C) : SameFiles (xs.foldl f st) st := by
  induction xs generalizing st with
  | nil => exact ⟨rfl, rfl⟩
  | cons x xs ih => exact ⟨(ih _).configs.trans (hf st x).configs, (ih _).items.trans (hf st x).items⟩

theorem assign_files (key : Key) (value : Value) (st : State C) :
    SameFiles (assign env key value st) st := by
  rw [assign]
  split <;> exact ⟨rfl, rfl⟩

theorem handler_files (entry : Entry) (text : String) (st : State C) :
    SameFiles (handler env entry text st) st := by
  cases entry with
  | configSource | username => exact assign_files _ _ st
  | password => simp only [handler, processPassword]; split <;> exact ⟨rfl, rfl⟩

theorem setText_files (env : Env C) (toolkit : Toolkit) (entry : Entry) (text : String) (st : State C) :
    SameFiles (setText env toolkit entry text st) st :=
  SameFiles.foldl (fun st text => handler_files entry text st) _ st

theorem setState_files (env : Env C) (toolkit : Toolkit) (key : Key) (state : Bool) (st : State C) :
    SameFiles (setState env toolkit key state st) st := by
  rw [setState]
  split
  · exact assign_files _ _ st
  · exact ⟨rfl, rfl⟩

theorem blankControls_files (st : State C) : SameFiles (blankControls env toolkit st) st := by
  rw [blankControls]
  have htexts := SameFiles.foldl (fun st e => setText_files env toolkit e "" st)
    [Entry.configSource, .username, .password] st
  generalize [Entry.configSource, .username, .password].foldl _ st = blank at htexts ⊢
  have hstates := SameFiles.foldl (fun st key => setState_files env toolkit key false st)
    switches blank
  exact ⟨hstates.configs.trans htexts.configs, hstates.items.trans htexts.items⟩

theorem refreshControls_files (st : State C) : SameFiles (refreshControls env toolkit st) st := by
  have htext : ∀ entry text (a : State C), SameFiles a st →
    SameFiles (setText env toolkit entry text a) st :=
    fun entry text a h =>
      ⟨(setText_files env toolkit entry text a).configs.trans h.configs,
        (setText_files env toolkit entry text a).items.trans h.items⟩
  have hset := htext .password "" _ (htext .username (textOf (getSetting
    (setText env toolkit .configSource (textOf (getSetting st.settings .remote)) st).settings .authUser)) _
    (htext .configSource (textOf (getSetting st.settings .remote)) st ⟨rfl, rfl⟩))
  have hstates := SameFiles.foldl (fun st key =>
    setState_files env toolkit key (truthy (getSetting st.settings key)) st) switches
  exact ⟨(hstates _).configs.trans hset.configs, (hstates _).items.trans hset.items⟩

theorem assign_frame {key other : Key} (value : Value) (st : State C) (h : other ≠ key) :
    getSetting (assign env key value st).settings other = getSetting st.settings other := by
  cases hs : setSetting env.repr st.settings key value with
  | error e => simp only [assign, hs]
  | ok settings => simp only [assign, hs, getSetting, getValue_setSetting_ne hs h]

theorem assign_reads {st s : State C} {key : Key} (hk : Kept st.settings key)
    (h : ∀ other ≠ key, getSetting s.settings other = getSetting st.settings other) :
    SameReads (assign env key (getSetting st.settings key) s) st := by
  intro other
  by_cases hne : other = key
  · subst other
    obtain ⟨settings, hset, hread⟩ := setSetting_getSetting hk env.repr s.settings
    rw [assign, hset]
    exact hread
  · rw [assign_frame _ _ hne, h other hne]

theorem kept_of_empty (settings : Store) {key : Key} (hd : key.default = .string "") :
    Kept settings key := by
  intro text htext hne
  rw [hd, Variant.string.injEq] at htext
  exact absurd htext.symm hne

theorem textValue_textOf (settings : Store) {key : Key} (hd : key.default = .string "") :
    textValue (textOf (getSetting settings key)) = getSetting settings key := by
  have htype := getValue_type settings key
  rw [hd] at htype
  cases hv : getValue settings key with
  | boolean | int32 | double | strv => rw [hv] at htype; cases htype
  | string s =>
      by_cases hs : s = "null" ∨ s = ""
      · simp only [getSetting, hv, readString, if_pos hs, Option.elim, textOf, textValue, if_pos]
      · have hne : s ≠ "" := fun h => hs (.inr h)
        simp only [getSetting, hv, readString, if_neg hs, Option.elim, textOf, textValue, if_neg hne]

theorem foldl_assign_reads {st : State C} {key : Key} (hd : key.default = .string "") {texts : List String}
    (hlast : ∀ last ∈ texts.getLast?, last = textOf (getSetting st.settings key)) :
    SameReads (texts.foldl (fun s text => assign env key (textValue text) s) st) st := by
  rcases List.eq_nil_or_concat texts with rfl | ⟨init, last, rfl⟩
  · exact fun _ => rfl
  · have hframe : ∀ other ≠ key, getSetting
        (init.foldl (fun s text => assign env key (textValue text) s) st).settings other =
          getSetting st.settings other := by
      intro other hne
      clear hlast
      induction init using List.reverseRecOn with
      | nil => rfl
      | append_singleton init text ih =>
          rw [List.foldl_append, List.foldl_cons, List.foldl_nil, assign_frame _ _ hne, ih]
    rw [List.concat_eq_append] at hlast
    rw [List.concat_eq_append, List.foldl_append, List.foldl_cons, List.foldl_nil, hlast last (by simp),
      textValue_textOf _ hd]
    exact assign_reads (kept_of_empty _ hd) hframe

theorem setText_reads {st : State C} {entry : Entry} {key : Key} (hd : key.default = .string "")
    (hentry : ∀ text (s : State C), handler env entry text s = assign env key (textValue text) s) :
    SameReads (setText env toolkit entry (textOf (getSetting st.settings key)) st) st := by
  rw [setText]
  simp only [hentry]
  exact foldl_assign_reads hd (toolkit.seen_last entry _)

theorem setText_password (text : String) (st : State C) :
    SameReads (setText env toolkit .password text st) st := by
  rw [setText]
  generalize toolkit.seen .password text = texts
  induction texts generalizing st with
  | nil => exact fun _ => rfl
  | cons pwd texts ih =>
      intro key
      rw [List.foldl_cons, ih _ key]
      simp only [handler, processPassword]
      split <;> rfl

theorem setState_reads {st : State C} {key : Key} (hb : key.default.type = .b) :
    SameReads (setState env toolkit key (truthy (getSetting st.settings key)) st) st := by
  have htype := getValue_type st.settings key
  rw [hb] at htype
  have hbool : .bool (truthy (getSetting st.settings key)) = getSetting st.settings key := by
    cases hv : getValue st.settings key with
    | boolean b => simp only [getSetting, hv, truthy]
    | int32 | string | double | strv => rw [hv] at htype; cases htype
  have hk : Kept st.settings key := by
    intro text htext
    rw [htext] at hb
    cases hb
  rw [setState]
  split
  · rw [hbool]
    exact assign_reads hk fun _ _ => rfl
  · exact fun _ => rfl

theorem refreshControls_reads (st : State C) : SameReads (refreshControls env toolkit st) st := by
  have hswitches : ∀ (keys : List Key) (s : State C), (∀ key ∈ keys, key.default.type = .b) →
      SameReads (keys.foldl (fun st key => setState env toolkit key
        (truthy (getSetting st.settings key)) st) s) s := by
    intro keys
    induction keys with
    | nil => exact fun _ _ _ => rfl
    | cons key keys ih =>
        intro s hb other
        rw [List.foldl_cons, ih _ (fun k hk => hb k (List.mem_cons_of_mem _ hk)) other]
        exact setState_reads (hb key List.mem_cons_self) other
  intro key
  rw [refreshControls, hswitches _ _ (by decide) key, setText_password _ _ key,
    setText_reads rfl (fun _ _ => rfl) key, setText_reads rfl (fun _ _ => rfl) key]

theorem resetPaths_ok {st next : State C} {u : Unit} (h : resetPaths env st = .ok u next) :
    next.items = st.items ∧ next.settings = st.settings ∧
      ((∀ target, st.configs ≠ some (.link target)) → next.configs = some (.dir .nil)) := by
  rw [resetPaths] at h
  split at h
  · cases h
  · cases h
  · rename_i target hlink
    split at h
    · cases h
      exact ⟨rfl, rfl, fun hno => absurd hlink (hno target)⟩
    · cases h
  · cases h
    exact ⟨rfl, rfl, fun _ => rfl⟩
  · cases h
    exact ⟨rfl, rfl, fun _ => rfl⟩

theorem clearPersistedPassword_keeps (username : Value) (st : State C) :
    SameFiles (clearPersistedPassword username st) st ∧
      (clearPersistedPassword username st).settings = st.settings := by
  rw [clearPersistedPassword]
  split <;> exact ⟨⟨rfl, rfl⟩, rfl⟩

/-- A reset that is completed leaves its backup behind as a new entry. -/
theorem applyReset_completed {moment : Moment} {st next : State C} {name : String}
    (h : applyReset env moment toolkit 1 st = .ok (.completed name) next) :
    ∃ entries suffix, backupEntries st.configs (env.dumps (manifest moment (snapshot st))) = .ok entries ∧
      (∀ item ∈ st.items, item.name ≠ backupName moment suffix) ∧
      next.items = st.items ++ [⟨backupName moment suffix, moment.mtime, .dir entries⟩] := by
  rw [applyReset, if_neg (fun hne => hne rfl)] at h
  cases hc : createResetBackup env moment (snapshot st) st with
  | error details s => simp only [hc] at h; cases h
  | ok backup s =>
      obtain ⟨entries, hentries, ⟨suffix, rfl⟩, hfresh, rfl⟩ := createResetBackup_ok hc
      refine ⟨entries, suffix, hentries, hfresh, ?_⟩
      simp only [hc] at h
      have hclear := (clearPersistedPassword_keeps (getSetting st.settings .authUser)
        { st with items := st.items ++ [⟨backupName moment suffix, moment.mtime, .dir entries⟩] }).1.items
      generalize clearPersistedPassword _ _ = cleared at h hclear
      split at h
      · cases h
      · rename_i u emptied hempty
        cases h
        rw [(blankControls_files emptied).items, (resetPaths_ok hempty).1]
        exact hclear

theorem savedConfigs_eq {items : List (Item C)} {backup : String} {entries : Entries C}
    (h : nodeAt items backup = some (.dir entries)) :
    savedConfigs items backup = entries.find "config" := by
  rw [savedConfigs, h]

theorem restoreConfigs_ok {st next : State C} {files : Entries C} {u : Unit} (hwhole : files.whole = true)
    (hlink : ∀ target, st.configs ≠ some (.link target))
    (h : restoreConfigs env (some (.dir files)) st = .ok u next) :
    next.configs = some (.dir files) := by
  rw [restoreConfigs] at h
  cases hp : resetPaths env st with
  | error details s => simp only [hp] at h; cases h
  | ok u s =>
      simp only [hp, if_pos hwhole] at h
      cases h
      simp only [(resetPaths_ok hp).2.2 hlink, copyInto, copy_entries files hwhole]

theorem snapshot_items {st : State C} {items : List (String × Value)} (h : items.Perm (snapshot st)) :
    ∀ item ∈ items, ∃ key, item = (Key.name key, getSetting st.settings key) := by
  intro item hitem
  obtain ⟨key, -, rfl⟩ := List.mem_map.mp (h.mem_iff.mp hitem)
  exact ⟨key, rfl⟩

theorem restoreSettings_reads {st s next : State C} {items : List (String × Value)} {u : Unit}
    (hk : ∀ key, Kept st.settings key) (hitems : items.Perm (snapshot st))
    (h : restoreSettings env items s = .ok u next) :
    SameReads next st ∧ next.configs = s.configs := by
  obtain ⟨settings, hset, hreads⟩ := setAll_reads hk env.repr (resetAllSettings s.settings)
    (snapshot_items hitems)
  simp only [restoreSettings, hset] at h
  cases h
  refine ⟨fun key => hreads key (.inl (hitems.mem_iff.mpr ?_)), rfl⟩
  exact List.mem_map.mpr ⟨key, mem_allSettings key, rfl⟩

theorem restoreBackup_created {st s : State C} {moment : Moment} {files entries : Entries C} {name : String}
    (username : Value)
    (hentries : backupEntries (some (.dir files)) (env.dumps (manifest moment (snapshot st))) = .ok entries)
    (hitem : nodeAt s.items name = some (.dir entries))
    (hjson : env.loads (env.dumps (manifest moment (snapshot st))) = .ok (manifest moment (snapshot st))) :
    restoreBackup env name username s =
      match restoreConfigs env (some (.dir files)) (clearPersistedPassword username s) with
      | .error details next => .error details next
      | .ok _ next => restoreSettings env (sortKeys (snapshot st)) next := by
  simp only [restoreBackup, loadResetManifest_created hitem (manifest_of_backup hentries) hjson,
    savedConfigs_eq hitem, (configs_of_backup hentries).1, Option.any_some, isSymlink, Bool.false_eq_true,
    if_false]

/-- What a backup of some state holds is what a restore that is completed brings
back, whatever has become of the settings and of the configurations since. -/
theorem applyRestore_completed {st s next : State C} {moment later : Moment} {files entries : Entries C}
    {name safety : String} (hk : ∀ key, Kept st.settings key)
    (hentries : backupEntries (some (.dir files)) (env.dumps (manifest moment (snapshot st))) = .ok entries)
    (hitem : nodeAt s.items name = some (.dir entries))
    (hjson : env.loads (env.dumps (manifest moment (snapshot st))) = .ok (manifest moment (snapshot st)))
    (h : applyRestore env later toolkit 1 name s = .ok (.completed safety) next) :
    SameReads next st ∧ next.configs = some (.dir files) := by
  rw [applyRestore, if_neg (fun hne => hne rfl)] at h
  cases hc : createResetBackup env later (snapshot s) s with
  | error details s' => simp only [hc] at h; cases h
  | ok saved created =>
      obtain ⟨kept, hkept, -, -, rfl⟩ := createResetBackup_ok hc
      -- A backup was taken of the present state, which therefore is no link.
      have hlink : ∀ target, s.configs ≠ some (.link target) := by
        intro target hlink
        rw [hlink] at hkept
        cases hkept
      have hbackup := restoreBackup_created (getSetting s.settings .authUser)
        (s := { s with items := s.items ++ [⟨saved, later.mtime, .dir kept⟩] }) hentries
        (nodeAt_append _ hitem) hjson
      simp only [hc, hbackup] at h
      obtain ⟨hfiles, -⟩ := clearPersistedPassword_keeps (getSetting s.settings .authUser)
        { s with items := s.items ++ [⟨saved, later.mtime, .dir kept⟩] }
      generalize clearPersistedPassword _ _ = cleared at h hfiles
      cases hr : restoreConfigs env (some (.dir files)) cleared with
      | error details s' => simp only [hr] at h; cases h
      | ok u copied =>
          simp only [hr] at h
          cases hs : restoreSettings env (sortKeys (snapshot st)) copied with
          | error details s' => simp only [hs] at h; cases h
          | ok u restored =>
              simp only [hs] at h
              cases h
              obtain ⟨hreads, hkeep⟩ := restoreSettings_reads hk (sortKeys_perm _) hs
              refine ⟨fun key => (refreshControls_reads restored key).trans (hreads key), ?_⟩
              rw [(refreshControls_files restored).configs, hkeep]
              exact restoreConfigs_ok (configs_of_backup hentries).2 (hfiles.configs ▸ hlink) hr

theorem resetPaths_dir (env : Env C) {st : State C} {files : Entries C}
    (h : st.configs = some (.dir files)) :
    resetPaths env st = .ok () { st with configs := some (.dir .nil) } := by
  simp only [resetPaths, h]

theorem applyReset_completes (env : Env C) {st : State C} {files : Entries C} (moment : Moment)
    (toolkit : Toolkit) (hconfigs : st.configs = some (.dir files)) (hwhole : files.whole = true)
    (hpresent : ∀ item ∈ st.items, present env item.node = true) :
    ∃ backup reset, applyReset env moment toolkit 1 st = .ok (.completed backup) reset ∧
      reset.configs = some (.dir .nil) := by
  obtain ⟨name, entries, hcreate⟩ := createResetBackup_completes moment (snapshot st) hconfigs hwhole
    hpresent
  rw [applyReset, if_neg (fun hne => hne rfl)]
  simp only [hcreate]
  have hclear := (clearPersistedPassword_keeps (getSetting st.settings .authUser)
    { st with items := st.items ++ [⟨name, moment.mtime, .dir entries⟩] }).1.configs.trans hconfigs
  generalize clearPersistedPassword _ _ = cleared at hclear ⊢
  have hpaths := resetPaths_dir env (show State.configs { cleared with
    settings := resetAllSettings cleared.settings, session := none } = _ from hclear)
  simp only [hpaths]
  exact ⟨name, _, rfl, (blankControls_files _).configs⟩

theorem applyRestore_completes {st s : State C} {moment : Moment} {files entries now : Entries C}
    {name : String} (later : Moment) (toolkit : Toolkit) (hk : ∀ key, Kept st.settings key)
    (hentries : backupEntries (some (.dir files)) (env.dumps (manifest moment (snapshot st))) = .ok entries)
    (hitem : nodeAt s.items name = some (.dir entries))
    (hjson : env.loads (env.dumps (manifest moment (snapshot st))) = .ok (manifest moment (snapshot st)))
    (hconfigs : s.configs = some (.dir now)) (hwhole : now.whole = true)
    (hpresent : ∀ item ∈ s.items, present env item.node = true) :
    ∃ safety next, applyRestore env later toolkit 1 name s = .ok (.completed safety) next := by
  obtain ⟨saved, kept, hcreate⟩ := createResetBackup_completes later (snapshot s) hconfigs hwhole hpresent
  rw [applyRestore, if_neg (fun hne => hne rfl)]
  have hbackup := restoreBackup_created (getSetting s.settings .authUser)
    (s := { s with items := s.items ++ [⟨saved, later.mtime, .dir kept⟩] }) hentries
    (nodeAt_append _ hitem) hjson
  simp only [hcreate, hbackup]
  have hclear := (clearPersistedPassword_keeps (getSetting s.settings .authUser)
    { s with items := s.items ++ [⟨saved, later.mtime, .dir kept⟩] }).1.configs.trans hconfigs
  generalize clearPersistedPassword _ _ = cleared at hclear ⊢
  simp only [restoreConfigs, resetPaths_dir env hclear, if_pos (configs_of_backup hentries).2]
  obtain ⟨settings, hset, -⟩ := setAll_reads hk env.repr (resetAllSettings cleared.settings)
    (snapshot_items (sortKeys_perm (snapshot st)))
  simp only [restoreSettings, hset]
  exact ⟨saved, _, rfl⟩

theorem reset_restore_completes {st : State C} {moment : Moment} {files : Entries C} (later : Moment)
    (before after : Toolkit) (hconfigs : st.configs = some (.dir files)) (hwhole : files.whole = true)
    (hpresent : ∀ item ∈ st.items, present env item.node = true) (hkept : ∀ key, Kept st.settings key)
    (hclock : ∀ item ∈ st.items, item.mtime < moment.mtime)
    (hjson : env.loads (env.dumps (manifest moment (snapshot st))) = .ok (manifest moment (snapshot st))) :
    ∃ backup reset latest safety restored, applyReset env moment before 1 st =
      .ok (.completed backup) reset ∧
      latestResetBackup env reset.items = some latest ∧
      applyRestore env later after 1 latest.name reset = .ok (.completed safety) restored := by
  obtain ⟨backup, reset, hreset, hempty⟩ := applyReset_completes env moment before hconfigs hwhole hpresent
  obtain ⟨entries, suffix, hentries, hfresh, hitems⟩ := applyReset_completed hreset
  rw [hconfigs] at hentries
  have hlatest := latestResetBackup_created env suffix (manifest_of_backup hentries) hclock
  rw [← hitems] at hlatest
  have hstay : ∀ item ∈ reset.items, present env item.node = true := by
    intro item hitem
    rw [hitems] at hitem
    rcases List.mem_append.mp hitem with hold | hnew
    · exact hpresent item hold
    · rw [List.mem_singleton.mp hnew]; rfl
  obtain ⟨safety, restored, hrestore⟩ := applyRestore_completes later after hkept hentries
    (hitems ▸ nodeAt_created hfresh moment.mtime (.dir entries)) hjson hempty rfl hstay
  exact ⟨backup, reset, _, safety, restored, hreset, hlatest, hrestore⟩

/-- Restoring the latest backup after a reset gives each setting and the
configurations back. -/
theorem restore_undoes_reset (env : Env C) (before after : Toolkit) {st reset restored : State C}
    {moment later : Moment} {files : Entries C} {latest : Item C} {backup safety : String}
    (hconfigs : st.configs = some (.dir files)) (hkept : ∀ key, Kept st.settings key)
    (hclock : ∀ item ∈ st.items, item.mtime < moment.mtime)
    (hjson : env.loads (env.dumps (manifest moment (snapshot st))) = .ok (manifest moment (snapshot st)))
    (hreset : applyReset env moment before 1 st = .ok (.completed backup) reset)
    (hlatest : latestResetBackup env reset.items = some latest)
    (hrestore : applyRestore env later after 1 latest.name reset = .ok (.completed safety) restored) :
    (∀ key ∈ allSettings, getSetting restored.settings key = getSetting st.settings key) ∧
      restored.configs = st.configs := by
  obtain ⟨entries, suffix, hentries, hfresh, hitems⟩ := applyReset_completed hreset
  rw [hconfigs] at hentries ⊢
  rw [hitems, latestResetBackup_created env suffix (manifest_of_backup hentries) hclock,
    Option.some.injEq] at hlatest
  subst latest
  obtain ⟨hreads, hsame⟩ := applyRestore_completed hkept hentries
    (hitems ▸ nodeAt_created hfresh moment.mtime (.dir entries)) hjson hrestore
  exact ⟨fun key _ => hreads key, hsame⟩

mutual

/-- `json.dumps` with an indent of two, of texts without escapes and of the double 0. -/
def render (pad : String) : Value → String
  | .none => "null"
  | .bool b => toString b
  | .int n => toString n
  | .float _ => "0.0"
  | .str s => "\"" ++ s ++ "\""
  | .list [] => "[]"
  | .list (x :: xs) => "[" ++ renderAll (pad ++ "  ") (x :: xs) ++ "\n" ++ pad ++ "]"
  | .dict [] => "\x7b\x7d"
  | .dict (item :: items) => "\x7b" ++ renderItems (pad ++ "  ") (item :: items) ++ "\n" ++ pad ++ "\x7d"

def renderAll (pad : String) : List Value → String
  | [] => ""
  | x :: xs => "\n" ++ pad ++ render pad x ++ (if xs.isEmpty then "" else ",") ++ renderAll pad xs

def renderItems (pad : String) : List (String × Value) → String
  | [] => ""
  | (name, value) :: items =>
      "\n" ++ pad ++ "\"" ++ name ++ "\": " ++ render pad value ++ (if items.isEmpty then "" else ",") ++
        renderItems pad items

end

def usedStore : Store where
  user
    | .language => some (.string "fa")
    | .notifications => some (.boolean false)
    | .remote => some (.string "null")
    | .lastConnectedCursor => some (.int32 3)
    | .favorites => some (.strv ["a.ovpn"])
    | _ => none
  typed key v h := by cases key <;> cases h <;> rfl

theorem usedStore_kept (key : Key) : Kept usedStore key := by
  intro text h hne
  cases key with
  | manager | layout | language => cases h; decide
  | lastConnected | ca | remote | authUser | nmActiveUuid => exact absurd (Variant.string.inj h).symm hne
  | _ => cases h

def used : State String where
  settings := usedStore
  configs := some (.dir (.cons "a.ovpn" (.file "remote a.example 1194")
    (.cons "keys" (.dir (.cons "ca.crt" (.file "CA") .nil)) .nil)))
  items := [⟨"reset-backup-20260101T000000Z-7", 1, .dir (.cons "manifest.json" (.file "\x7b\x7d") .nil)⟩]
  session := some "secret"
  cleared := []

def usedMoment : Moment := ⟨"20260102T000000Z", 7, "2026-01-02T00:00:00+00:00", 2⟩

def plainEnv : Env String where
  dumps := render ""
  loads text :=
    if text = render "" (manifest usedMoment (snapshot used)) then .ok (manifest usedMoment (snapshot used))
    else .error "Expecting value"
  follow _ := none
  repr := render ""

def loudToolkit : Toolkit where
  seen _ text := ["", text]
  seen_last _ _ _ h := (Option.some.inj h).symm
  sends _ _ := true

theorem restore_undoes_reset_used :
    ∃ backup reset latest safety restored,
      applyReset plainEnv usedMoment loudToolkit 1 used = .ok (.completed backup) reset ∧
      latestResetBackup plainEnv reset.items = some latest ∧
      applyRestore plainEnv { usedMoment with mtime := 3 } loudToolkit 1 latest.name reset =
        .ok (.completed safety) restored ∧
      (∀ key ∈ allSettings, getSetting restored.settings key = getSetting used.settings key) ∧
      restored.configs = used.configs := by
  have hclock : ∀ item ∈ used.items, item.mtime < usedMoment.mtime := by
    intro item h
    rw [List.mem_singleton.mp h]
    decide
  have hpresent : ∀ item ∈ used.items, present plainEnv item.node = true := by
    intro item h
    rw [List.mem_singleton.mp h]
    rfl
  have hjson : plainEnv.loads (plainEnv.dumps (manifest usedMoment (snapshot used))) =
      .ok (manifest usedMoment (snapshot used)) := if_pos rfl
  obtain ⟨backup, reset, latest, safety, restored, hreset, hlatest, hrestore⟩ :=
    reset_restore_completes { usedMoment with mtime := 3 } loudToolkit loudToolkit rfl rfl hpresent
      usedStore_kept hclock hjson
  exact ⟨backup, reset, latest, safety, restored, hreset, hlatest, hrestore,
    restore_undoes_reset plainEnv loudToolkit loudToolkit rfl usedStore_kept hclock hjson hreset
      hlatest hrestore⟩

end EovpnPro.ResetRestore
