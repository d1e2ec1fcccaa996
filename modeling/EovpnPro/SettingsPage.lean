import EovpnPro.BackupHistory
import EovpnPro.ConfigSource

namespace EovpnPro.SettingsPage

open ConfigSource Runs Settings ResetBackup ResetRestore

variable {C : Type}

/-- What GTK tells the handler of an entry: the texts that it finds while the text is
replaced, and while the buffer is exchanged. -/
structure Gtk where
  seen : String → String → List String
  seen_last : ∀ old new, ∀ last ∈ (seen old new).getLast?, last = new
  seen_changed : ∀ old new, old ≠ new → seen old new ≠ []
  rebound : String → String → List String
  rebound_last : ∀ old new, ∀ last ∈ (rebound old new).getLast?, last = new

abbrev FullPath := { path : String // '/' ∈ path.toList }

/-- The controls of a settings window, in the order in which windows are opened. -/
structure Page where
  id : Nat
  text : Entry → String
  active : Key → Bool
  caLabel : String
  revealed : Bool
  authSensitive : Bool

def entryKey : Entry → Option Key
  | .configSource => some .remote
  | .username => some .authUser
  | .password => none

def pageSwitches : List Key := switches ++ [.openvpn3Dco]

def noCa : String := "(None)"

def caLabelOf : Value → String
  | .str path => basename path
  | _ => noCa

/-- `SettingsWindow.setup`, which connects the handlers when the controls are built. -/
def setup (id : Nat) (settings : Store) : Page where
  id
  text
    | .configSource => textOf (getSetting settings .remote)
    | .username => textOf (getSetting settings .authUser)
    | .password => ""
  active key := truthy (getSetting settings key)
  caLabel := caLabelOf (getSetting settings .ca)
  revealed := false
  authSensitive := truthy (getSetting settings .reqAuth)

/-- How far a worker of `validate_and_load` is. The two attributes that it leaves the
certificate in are assigned one after the other. -/
inductive Progress
  | downloading
  | assigned (cert : String)
  | ended
  deriving DecidableEq, Repr

/-- The `self` of an import is the main window, or the signals of a settings window. -/
abbrev Owner := Option Nat

structure Worker where
  owner : Owner
  progress : Progress
  deriving DecidableEq, Repr

structure Pending where
  caSetting : Option FullPath := none
  caLabel : Option String := none
  deriving DecidableEq, Repr

/-- The program with the page that was opened last, the flag of the main window and the
theme that GTK prefers. -/
structure Desk (C : Type) where
  state : State C
  page : Page
  isOpen : Bool := false
  opened : Nat := 1
  flagVisible : Bool
  prefersDark : Bool
  pending : Owner → Pending := fun _ => {}
  workers : List Worker := []

/-- The start of the program, whose theme is the system's unless the dark one is set. -/
def started (st : State C) (systemDark : Bool) : Desk C where
  state := st
  page := setup 0 st.settings
  flagVisible := truthy (getSetting st.settings .showFlag)
  prefersDark := truthy (getSetting st.settings .darkTheme) || systemDark

def Page.toolkit (gtk : Gtk) (page : Page) : Toolkit where
  seen entry text := gtk.seen (page.text entry) text
  seen_last entry text := gtk.seen_last (page.text entry) text
  sends key state := decide (page.active key ≠ state)

def Page.setText (gtk : Gtk) (entry : Entry) (text : String) (page : Page) : Page :=
  { page with
    text := Function.update page.text entry text
    revealed :=
      if entry = .configSource then
        (gtk.seen (page.text entry) text).foldl (fun _ text => decide (text ≠ "")) page.revealed
      else page.revealed }

section Controls

variable (env : Env C) (gtk : Gtk)

def setText (entry : Entry) (text : String) (d : Desk C) : Desk C :=
  { d with
    state := ResetRestore.setText env (d.page.toolkit gtk) entry text d.state
    page := d.page.setText gtk entry text }

/-- Three of the handlers do more than store the state: `req_auth`, `show_flag_set` and
`dark_theme_set`. -/
def setState (key : Key) (state : Bool) (d : Desk C) : Desk C :=
  let changed := (d.page.toolkit gtk).sends key state
  { d with
    state := ResetRestore.setState env (d.page.toolkit gtk) key state d.state
    page := { d.page with
      active := Function.update d.page.active key state
      authSensitive := if changed && decide (key = .reqAuth) then state else d.page.authSensitive }
    flagVisible := if changed && decide (key = .showFlag) then state else d.flagVisible
    prefersDark := if changed && decide (key = .darkTheme) then state else d.prefersDark }

def setCaLabel (label : String) (d : Desk C) : Desk C :=
  { d with page := { d.page with caLabel := label } }

def fillEntries (source username : String) (d : Desk C) : Desk C :=
  setText env gtk .password "" (setText env gtk .username username (setText env gtk .configSource source d))

/-- The end of `_apply_reset`. -/
def blankControls (d : Desk C) : Desk C :=
  let d := setCaLabel noCa (fillEntries env gtk "" "" d)
  { switches.foldl (fun d key => setState env gtk key false d) d with flagVisible := false }

/-- `_refresh_controls_after_restore`, which reads the user name when the source is set. -/
def refreshControls (d : Desk C) : Desk C :=
  let source := textOf (getSetting d.state.settings .remote)
  let username := textOf (getSetting (setText env gtk .configSource source d).state.settings .authUser)
  let d := fillEntries env gtk source username d
  let d := setCaLabel (caLabelOf (getSetting d.state.settings .ca)) d
  let d := switches.foldl (fun d key => setState env gtk key (truthy (getSetting d.state.settings key)) d) d
  { d with flagVisible := truthy (getSetting d.state.settings .showFlag) }

/-- How a reset or a restore ends: before it has changed a setting, later by an
exception, or with the controls set anew. -/
inductive Ending
  | untouched
  | broken
  | completed
  deriving DecidableEq, Repr

/-- `_apply_reset` -/
def reset (moment : Moment) (index : Int) (d : Desk C) : Desk C × Ending :=
  if index ≠ 1 then (d, .untouched)
  else
    match createResetBackup env moment (snapshot d.state) d.state with
    | .error _ st => ({ d with state := st }, .untouched)
    | .ok _ next =>
        let next := clearPersistedPassword (getSetting d.state.settings .authUser) next
        let next := { next with settings := resetAllSettings next.settings, session := none }
        match resetPaths env next with
        | .error _ next => ({ d with state := next }, .broken)
        | .ok _ next => (blankControls env gtk { d with state := next }, .completed)

/-- `_apply_restore` -/
def restore (moment : Moment) (index : Int) (backup : String) (d : Desk C) : Desk C × Ending :=
  if index ≠ 1 then (d, .untouched)
  else
    match createResetBackup env moment (snapshot d.state) d.state with
    | .error _ st => ({ d with state := st }, .untouched)
    | .ok _ next =>
        match restoreBackup env backup (getSetting d.state.settings .authUser) next with
        | .error _ next => ({ d with state := next }, .broken)
        | .ok _ next => (refreshControls env gtk { d with state := next }, .completed)

/-- `process_source_picked`, which gives the entry another buffer. -/
def processSourcePicked (path : FullPath) (d : Desk C) : Desk C :=
  let state := assign env .remote (.str path) d.state
  { d with
    state := (gtk.rebound (d.page.text .configSource) path).foldl
      (fun st text => processConfigEntry env text st) state
    page := { d.page with text := Function.update d.page.text .configSource path, revealed := true } }

def processCaPicked (path : FullPath) (d : Desk C) : Desk C :=
  setCaLabel (basename path) { d with state := assign env .ca (.str path) d.state }

end Controls

/-- `validate_and_load`, as far as the thread that runs it goes. -/
def validateAndLoad (owner : Owner) (d : Desk C) : Desk C :=
  if textOf (getSetting d.state.settings .remote) = "" then d
  else { d with
    pending := Function.update d.pending owner {}
    workers := d.workers ++ [⟨owner, .downloading⟩] }

def pend (owner : Owner) (pending : Pending) (d : Desk C) : Desk C :=
  { d with pending := Function.update d.pending owner pending }

def pendingLabel (owner : Owner) (pending : Pending) : Option String :=
  if owner.isSome then pending.caLabel.filter fun label => label ≠ "" else none

/-- What `glib_func` does about the certificate. -/
def glibFunc (env : Env C) (owner : Owner) (d : Desk C) : Desk C :=
  let d := match pendingLabel owner (d.pending owner) with
    | none => d
    | some label =>
        pend owner { d.pending owner with caLabel := none }
          (if owner = some d.page.id then setCaLabel label d else d)
  match (d.pending owner).caSetting with
  | none => d
  | some path =>
      pend owner { d.pending owner with caSetting := none } { d with state := assign env .ca (.str path) d.state }

inductive Action
  | openPage
  | closePage
  | edit (entry : Entry) (text : String)
  | toggle (key : Key)
  | pickSource (path : FullPath)
  | pickCa (path : FullPath)
  | reset (moment : Moment) (index : Int)
  | restore (moment : Moment) (index : Int) (backup : String)
  | validate
  | update
  | found (worker : Nat) (cert : String)
  | named (worker : Nat)
  | ended (worker : Nat)
  | loaded (worker : Nat)

def caPath (configDir cert : String) : FullPath :=
  ⟨configDir ++ "/" ++ basename cert, by
    rw [String.toList_append, String.toList_append]
    exact List.mem_append_left _ (List.mem_append_right _ (List.mem_singleton_self _))⟩

def proceed (i : Nat) (w : Worker) (progress : Progress) (d : Desk C) : Desk C :=
  { d with workers := d.workers.set i { w with progress } }

/-- The steps of a worker: the certificate is found and assigned as the setting, then as
the label, or the thread ends without one; its callback comes after it. -/
def stepWorker (env : Env C) (configDir : String) (d : Desk C) (w : Worker) : Action → Option (Desk C)
  | .found i cert =>
      if w.progress = .downloading then
        some (proceed i w (.assigned cert)
          (pend w.owner { d.pending w.owner with caSetting := some (caPath configDir cert) } d))
      else none
  | .named i =>
      match w.progress with
      | .assigned cert =>
          some (proceed i w .ended (pend w.owner { d.pending w.owner with caLabel := some cert } d))
      | _ => none
  | .ended i => if w.progress = .downloading then some (proceed i w .ended d) else none
  | .loaded i =>
      if w.progress = .ended then some { glibFunc env w.owner d with workers := d.workers.eraseIdx i } else none
  | _ => none

def onPage (d : Desk C) (handler : Desk C → Desk C) : Option (Desk C) :=
  if d.isOpen then some (handler d) else none

def step (env : Env C) (gtk : Gtk) (configDir : String) (d : Desk C) : Action → Option (Desk C)
  | .openPage =>
      if d.isOpen then none
      else some { d with page := setup d.opened d.state.settings, isOpen := true, opened := d.opened + 1 }
  | .closePage => onPage d fun d => { d with isOpen := false }
  | .edit entry text => onPage d (setText env gtk entry text)
  | .toggle key =>
      if key ∈ pageSwitches then onPage d fun d => setState env gtk key (!d.page.active key) d else none
  | .pickSource path => onPage d (processSourcePicked env gtk path)
  | .pickCa path => onPage d (processCaPicked env path)
  | .reset moment index => onPage d fun d => (reset env gtk moment index d).1
  | .restore moment index backup => onPage d fun d => (restore env gtk moment index backup d).1
  | .validate => onPage d fun d => validateAndLoad (some d.page.id) d
  | .update => some (validateAndLoad none d)
  | .found i cert => d.workers[i]?.bind fun w => stepWorker env configDir d w (.found i cert)
  | .named i => d.workers[i]?.bind fun w => stepWorker env configDir d w (.named i)
  | .ended i => d.workers[i]?.bind fun w => stepWorker env configDir d w (.ended i)
  | .loaded i => d.workers[i]?.bind fun w => stepWorker env configDir d w (.loaded i)

/-- The page shows what is stored, as a page that is opened now would. -/
structure Shows (page : Page) (settings : Store) : Prop where
  texts : ∀ entry key, entryKey entry = some key → page.text entry = textOf (getSetting settings key)
  switches : ∀ key ∈ pageSwitches, page.active key = truthy (getSetting settings key)
  ca : page.caLabel = caLabelOf (getSetting settings .ca)

structure Truthful (d : Desk C) : Prop where
  shows : d.isOpen = true → Shows d.page d.state.settings
  flag : d.flagVisible = truthy (getSetting d.state.settings .showFlag)
  dark : truthy (getSetting d.state.settings .darkTheme) = true → d.prefersDark = true

/-- The credentials are open to changes when the switch above them is on, and only a
source can be validated. -/
structure Coherent (page : Page) : Prop where
  auth : page.authSensitive = page.active .reqAuth
  revealed : page.revealed = true → page.text .configSource ≠ ""

/-- What becomes of the settings and the controls agrees: a typed text is not the
sentinel of earlier releases, the two switches that are on by default are on before a
reset, that of the kernel module is what a restore brings back, what breaks off leaves
what is shown, and an import labels the page with the certificate that it sets. -/
def Kept (env : Env C) (gtk : Gtk) (d : Desk C) : Action → Prop
  | .edit entry text => entry = .password ∨ text ≠ "null"
  | .reset moment index =>
      match reset env gtk moment index d with
      | (_, .untouched) => True
      | (t, .broken) => Shows d.page t.state.settings
      | (_, .completed) => d.page.active .notifications = true ∧ d.page.active .openvpn3Dco = true
  | .restore moment index backup =>
      match restore env gtk moment index backup d with
      | (_, .untouched) => True
      | (t, .broken) => Shows d.page t.state.settings
      | (t, .completed) => d.page.active .openvpn3Dco = truthy (getSetting t.state.settings .openvpn3Dco)
  | .loaded i => d.isOpen = true → ∀ w ∈ d.workers[i]?,
      (if w.owner = some d.page.id then pendingLabel w.owner (d.pending w.owner) else none).getD d.page.caLabel =
        ((d.pending w.owner).caSetting.map fun path : FullPath => basename path.1).getD d.page.caLabel
  | _ => True

variable {env : Env C} {gtk : Gtk} {configDir : String} {d t : Desk C}

def stored (text : String) : Value := (readString text).elim .none .str

theorem textOf_stored (text : String) : textOf (stored text) = if text = "null" then "" else text := by
  simp only [stored, readString]
  split_ifs with h hnull hnull
  · rfl
  · exact (h.resolve_left hnull).symm
  · exact absurd (.inl hnull) h
  · rfl

theorem textOf_ne_null (settings : Store) (key : Key) : textOf (getSetting settings key) ≠ "null" := by
  rw [getSetting]
  cases getValue settings key with
  | string val =>
      change textOf (stored val) ≠ "null"
      rw [textOf_stored]
      split_ifs with h
      · decide
      · exact h
  | boolean | int32 | double | strv => exact (by decide : "" ≠ "null")

theorem getSetting_reset (settings : Store) {key : Key} (hd : key.default = .string "") :
    getSetting (Settings.reset settings key) key = .none := by
  rw [getSetting, getValue_reset, hd]
  rfl

theorem getSetting_assign_text {key : Key} (hd : key.default = .string "") (text : String) (st : State C) :
    getSetting (assign env key (textValue text) st).settings =
      Function.update (getSetting st.settings) key (stored text) := by
  funext other
  by_cases hne : other = key
  · subst other
    rw [Function.update_self, textValue]
    split_ifs with h
    · subst text
      exact getSetting_reset st.settings hd
    · have htype : (Variant.string text).type = key.default.type := by rw [hd]; rfl
      change getSetting (setValue st.settings key (.string text)) key = _
      rw [getSetting, getValue_setValue htype]
      rfl
  · rw [Function.update_of_ne hne]
    exact assign_frame _ _ hne

theorem getSetting_assign_bool {key : Key} (hb : key.default.type = .b) (b : Bool) (st : State C) :
    getSetting (assign env key (.bool b) st).settings = Function.update (getSetting st.settings) key (.bool b) := by
  funext other
  by_cases hne : other = key
  · subst other
    have htype : (Variant.boolean b).type = key.default.type := hb.symm
    change getSetting (setValue st.settings key (.boolean b)) key = _
    rw [Function.update_self, getSetting, getValue_setValue htype]
  · rw [Function.update_of_ne hne]
    exact assign_frame _ _ hne

theorem default_of_entryKey {entry : Entry} {key : Key} (h : entryKey entry = some key) : key.default = .string "" := by
  cases entry <;> cases h <;> rfl

theorem handler_of_entryKey {entry : Entry} {key : Key} (h : entryKey entry = some key) (text : String) (st : State C) :
    handler env entry text st = assign env key (textValue text) st := by
  cases entry <;> cases h <;> rfl

theorem foldl_assign_text {key : Key} (hd : key.default = .string "") (texts : List String) (st : State C) :
    getSetting (texts.foldl (fun st text => assign env key (textValue text) st) st).settings =
      texts.getLast?.elim (getSetting st.settings) fun last =>
        Function.update (getSetting st.settings) key (stored last) := by
  induction texts using List.reverseRecOn with
  | nil => rfl
  | append_singleton texts last ih =>
      rw [List.foldl_append, List.getLast?_concat]
      simp only [List.foldl_cons, List.foldl_nil, getSetting_assign_text hd, Option.elim_some, ih]
      cases texts.getLast? with
      | none => rfl
      | some old => exact Function.update_idem _ _ _

theorem getSetting_setText {entry : Entry} {key : Key} (he : entryKey entry = some key) (text : String) (d : Desk C) :
    getSetting (setText env gtk entry text d).state.settings =
      (gtk.seen (d.page.text entry) text).getLast?.elim (getSetting d.state.settings) fun last =>
        Function.update (getSetting d.state.settings) key (stored last) := by
  change getSetting (ResetRestore.setText env (d.page.toolkit gtk) entry text d.state).settings = _
  rw [ResetRestore.setText]
  simp only [handler_of_entryKey he]
  exact foldl_assign_text (default_of_entryKey he) _ _

theorem textOf_setText {entry : Entry} {key : Key} {text : String} (he : entryKey entry = some key)
    (hsame : d.page.text entry = text → textOf (getSetting d.state.settings key) = text) :
    textOf (getSetting (setText env gtk entry text d).state.settings key) = if text = "null" then "" else text := by
  rw [getSetting_setText he]
  cases hlast : (gtk.seen (d.page.text entry) text).getLast? with
  | none =>
      have htext : d.page.text entry = text := by
        by_contra hne
        exact gtk.seen_changed _ _ hne (List.getLast?_eq_none_iff.mp hlast)
      have hnull : text ≠ "null" := hsame htext ▸ textOf_ne_null d.state.settings key
      rw [if_neg hnull]
      exact hsame htext
  | some last =>
      obtain rfl := gtk.seen_last _ _ last hlast
      rw [Option.elim_some, Function.update_self, textOf_stored]

theorem getSetting_setText_ne {entry : Entry} {other : Key} (text : String) (d : Desk C)
    (hne : entryKey entry ≠ some other) :
    getSetting (setText env gtk entry text d).state.settings other = getSetting d.state.settings other := by
  cases he : entryKey entry with
  | none =>
      cases entry with
      | configSource | username => cases he
      | password => exact setText_password text d.state other
  | some key =>
      have hother : other ≠ key := fun h => hne (h ▸ he)
      rw [getSetting_setText he]
      cases (gtk.seen (d.page.text entry) text).getLast? with
      | none => rfl
      | some last => exact Function.update_of_ne hother _ _

structure SameTexts (d t : Desk C) : Prop where
  text : t.page.text = d.page.text
  caLabel : t.page.caLabel = d.page.caLabel
  isOpen : t.isOpen = d.isOpen

theorem SameTexts.trans {u : Desk C} (h : SameTexts d t) (h' : SameTexts t u) : SameTexts d u :=
  ⟨h'.text.trans h.text, h'.caLabel.trans h.caLabel, h'.isOpen.trans h.isOpen⟩

theorem getSetting_setState {key : Key} (hb : key.default.type = .b) (state : Bool) (d : Desk C) :
    getSetting (setState env gtk key state d).state.settings =
      if d.page.active key = state then getSetting d.state.settings
      else Function.update (getSetting d.state.settings) key (.bool state) := by
  change getSetting (ResetRestore.setState env (d.page.toolkit gtk) key state d.state).settings = _
  by_cases h : d.page.active key = state
  · simp [ResetRestore.setState, Page.toolkit, h]
  · simp only [ResetRestore.setState, Page.toolkit, decide_eq_true_eq, ne_eq, h, not_false_eq_true, if_true, if_false]
    exact getSetting_assign_bool hb state d.state

variable (env gtk) in
theorem foldl_setState_false {keys : List Key} (hb : ∀ key ∈ keys, key.default.type = .b) (d : Desk C) :
    SameTexts d (keys.foldl (fun d key => setState env gtk key false d) d) ∧ ∀ key,
      (keys.foldl (fun d key => setState env gtk key false d) d).page.active key =
          (if key ∈ keys then false else d.page.active key) ∧
        getSetting (keys.foldl (fun d key => setState env gtk key false d) d).state.settings key =
          if key ∈ keys ∧ d.page.active key = true then .bool false else getSetting d.state.settings key := by
  induction keys generalizing d with
  | nil => exact ⟨⟨rfl, rfl, rfl⟩, fun key => by simp⟩
  | cons k keys ih =>
      obtain ⟨hsame, hkeys⟩ := ih (fun key hkey => hb key (List.mem_cons_of_mem _ hkey)) (setState env gtk k false d)
      have hfirst : SameTexts d (setState env gtk k false d) := ⟨rfl, rfl, rfl⟩
      refine ⟨hfirst.trans hsame, fun key => ?_⟩
      obtain ⟨hactive, hread⟩ := hkeys key
      have hset : (setState env gtk k false d).page.active key = if key = k then false else d.page.active key := by
        change Function.update d.page.active k false key = _
        rw [Function.update_apply]
      rw [List.foldl_cons, hactive, hread, hset, getSetting_setState (hb k List.mem_cons_self)]
      by_cases hk : key = k
      · subst key
        cases d.page.active k <;> simp
      · simp only [List.mem_cons, hk, false_or, if_false, true_and]
        split_ifs <;> simp [Function.update_of_ne hk]

variable (env gtk) in
theorem foldl_setState_reads {keys : List Key} (hb : ∀ key ∈ keys, key.default.type = .b) (d : Desk C) :
    SameTexts d (keys.foldl (fun d key => setState env gtk key (truthy (getSetting d.state.settings key)) d) d) ∧
      (∀ key, (keys.foldl (fun d key => setState env gtk key (truthy (getSetting d.state.settings key)) d) d).page.active
          key = if key ∈ keys then truthy (getSetting d.state.settings key) else d.page.active key) ∧
      getSetting (keys.foldl (fun d key => setState env gtk key (truthy (getSetting d.state.settings key)) d)
        d).state.settings = getSetting d.state.settings := by
  induction keys generalizing d with
  | nil => exact ⟨⟨rfl, rfl, rfl⟩, fun key => by simp, rfl⟩
  | cons k keys ih =>
      obtain ⟨hsame, hactive, hread⟩ := ih (fun key hkey => hb key (List.mem_cons_of_mem _ hkey))
        (setState env gtk k (truthy (getSetting d.state.settings k)) d)
      have hfirst : SameTexts d (setState env gtk k (truthy (getSetting d.state.settings k)) d) := ⟨rfl, rfl, rfl⟩
      have hreads : getSetting (setState env gtk k (truthy (getSetting d.state.settings k)) d).state.settings =
          getSetting d.state.settings :=
        funext (setState_reads (hb k List.mem_cons_self))
      refine ⟨hfirst.trans hsame, fun key => ?_, hread.trans hreads⟩
      have hset : (setState env gtk k (truthy (getSetting d.state.settings k)) d).page.active key =
          if key = k then truthy (getSetting d.state.settings k) else d.page.active key := by
        change Function.update d.page.active k _ key = _
        rw [Function.update_apply]
      rw [List.foldl_cons, hactive, hreads, hset]
      by_cases hk : key = k
      · simp [hk]
      · simp [hk]

structure Followed (d : Desk C) : Prop where
  flag : d.flagVisible = d.page.active .showFlag
  dark : d.page.active .darkTheme = true → d.prefersDark = true

theorem followed_setState (h : Followed d) (key : Key) (state : Bool) : Followed (setState env gtk key state d) := by
  have hactive : (setState env gtk key state d).page.active = Function.update d.page.active key state := rfl
  constructor
  · rw [hactive]
    by_cases hk : key = .showFlag
    · subst key
      rw [Function.update_self]
      by_cases hs : d.page.active .showFlag = state
      · simp [setState, Page.toolkit, hs, h.flag]
      · simp [setState, Page.toolkit, hs]
    · rw [Function.update_of_ne (Ne.symm hk), ← h.flag]
      simp [setState, hk]
  · rw [hactive]
    by_cases hk : key = .darkTheme
    · subst key
      rw [Function.update_self]
      rintro rfl
      by_cases hs : d.page.active .darkTheme = true
      · simpa [setState, Page.toolkit, hs] using h.dark hs
      · simp [setState, Page.toolkit, hs]
    · rw [Function.update_of_ne (Ne.symm hk)]
      intro hdark
      simpa [setState, hk] using h.dark hdark

theorem followed_foldl (state : Desk C → Key → Bool) (keys : List Key) (h : Followed d) :
    Followed (keys.foldl (fun d key => setState env gtk key (state d key) d) d) := by
  induction keys generalizing d with
  | nil => exact h
  | cons key keys ih => exact ih (followed_setState h key (state d key))

theorem default_pageSwitches {key : Key} (h : key ∈ pageSwitches) :
    key.default = .boolean (decide (key = .notifications ∨ key = .openvpn3Dco)) := by
  revert h
  cases key <;> decide

theorem type_of_mem_pageSwitches {key : Key} (h : key ∈ pageSwitches) : key.default.type = .b := by
  rw [default_pageSwitches h]
  rfl

theorem type_of_mem_switches {key : Key} (h : key ∈ switches) : key.default.type = .b :=
  type_of_mem_pageSwitches (List.mem_append_left _ h)

theorem entryKey_ne_switch {entry : Entry} {key : Key} (h : key ∈ pageSwitches) : entryKey entry ≠ some key := by
  intro he
  have htype := type_of_mem_pageSwitches h
  rw [default_of_entryKey he] at htype
  cases htype

theorem entryKey_injective {entry other : Entry} {key : Key} (h : entryKey entry = some key)
    (h' : entryKey other = some key) : entry = other := by
  cases entry <;> cases other <;> cases h <;> cases h' <;> rfl

theorem Truthful.followed (h : Truthful d) (ho : d.isOpen = true) : Followed d := by
  have hs := h.shows ho
  refine ⟨h.flag.trans (hs.switches _ (by decide)).symm, fun hd => h.dark ?_⟩
  rw [← hs.switches _ (by decide)]
  exact hd

theorem Followed.truthful_iff (h : Followed d) (ho : d.isOpen = true) :
    Truthful d ↔ Shows d.page d.state.settings := by
  refine ⟨fun ht => ht.shows ho, fun hs => ⟨fun _ => hs, h.flag.trans (hs.switches _ (by decide)), fun hd => h.dark ?_⟩⟩
  rw [hs.switches _ (by decide)]
  exact hd

theorem shows_setText_iff (hs : Shows d.page d.state.settings) (entry : Entry) (text : String) :
    Shows (setText env gtk entry text d).page (setText env gtk entry text d).state.settings ↔
      entry = .password ∨ text ≠ "null" := by
  have htext : ∀ key, entryKey entry = some key →
      textOf (getSetting (setText env gtk entry text d).state.settings key) = if text = "null" then "" else text :=
    fun key he => textOf_setText he fun h => (hs.texts entry key he).symm.trans h
  constructor
  · intro ht
    refine or_iff_not_imp_left.mpr fun hne hnull => ?_
    obtain ⟨key, he⟩ : ∃ key, entryKey entry = some key := by
      cases entry with
      | configSource | username => exact ⟨_, rfl⟩
      | password => exact absurd rfl hne
    have hshown : (setText env gtk entry text d).page.text entry = text := Function.update_self ..
    have h := hshown.symm.trans ((ht.texts entry key he).trans (htext key he))
    rw [if_pos hnull, hnull] at h
    exact absurd h (by decide)
  · intro hkept
    refine ⟨fun other key he => ?_, fun key hkey => ?_, ?_⟩
    · by_cases hother : other = entry
      · subst other
        have hnull : text ≠ "null" := hkept.resolve_left fun h => by
          subst h
          cases he
        rw [htext key he, if_neg hnull]
        exact Function.update_self ..
      · have hne : entryKey entry ≠ some key := fun h => hother (entryKey_injective he h)
        rw [getSetting_setText_ne text d hne, ← hs.texts other key he]
        exact Function.update_of_ne hother ..
    · rw [getSetting_setText_ne text d (entryKey_ne_switch hkey)]
      exact hs.switches key hkey
    · rw [getSetting_setText_ne text d (by cases entry <;> decide)]
      exact hs.ca

theorem getSetting_fillEntries_ne {key : Key} (source username : String) (d : Desk C)
    (hs : key ≠ .remote) (hu : key ≠ .authUser) :
    getSetting (fillEntries env gtk source username d).state.settings key = getSetting d.state.settings key := by
  rw [fillEntries, getSetting_setText_ne _ _ (by simp [entryKey]),
    getSetting_setText_ne _ _ (by simp [entryKey, Ne.symm hu]),
    getSetting_setText_ne _ _ (by simp [entryKey, Ne.symm hs])]

theorem texts_fillEntries {source username : String} (hs : textOf (getSetting d.state.settings .remote) = source)
    (hu : textOf (getSetting d.state.settings .authUser) = username) :
    ∀ entry key, entryKey entry = some key → (fillEntries env gtk source username d).page.text entry =
      textOf (getSetting (fillEntries env gtk source username d).state.settings key) := by
  have hnull : ∀ key, textOf (getSetting d.state.settings key) ≠ "null" := textOf_ne_null _
  have hsource : textOf (getSetting (setText env gtk .configSource source d).state.settings .remote) = source := by
    rw [textOf_setText rfl fun _ => hs, if_neg (hs ▸ hnull .remote)]
  have huser : textOf (getSetting (setText env gtk .username username (setText env gtk .configSource source
      d)).state.settings .authUser) = username := by
    rw [textOf_setText rfl, if_neg (hu ▸ hnull .authUser)]
    intro _
    rw [getSetting_setText_ne source d (by decide)]
    exact hu
  intro entry key he
  cases entry with
  | configSource =>
      cases he
      rw [fillEntries, getSetting_setText_ne _ _ (by decide), getSetting_setText_ne _ _ (by decide), hsource]
      rfl
  | username =>
      cases he
      rw [fillEntries, getSetting_setText_ne _ _ (by decide), huser]
      rfl
  | password => cases he

theorem followed_fillEntries (h : Followed d) (source username label : String) :
    Followed (setCaLabel label (fillEntries env gtk source username d)) :=
  ⟨h.flag, h.dark⟩

theorem followed_blankControls (h : Followed d) : Followed (blankControls env gtk d) := by
  refine ⟨?_, (followed_foldl (fun _ _ => false) switches (followed_fillEntries h "" "" noCa)).dark⟩
  have hswept := (foldl_setState_false env gtk (fun _ => type_of_mem_switches)
    (setCaLabel noCa (fillEntries env gtk "" "" d))).2 .showFlag
  exact (hswept.1.trans (if_pos (by decide))).symm

/-- After a reset the page is right unless one of the two settings that are on by default
is shown to be off. -/
theorem shows_blankControls_iff (hd : ∀ key, getValue d.state.settings key = key.default) :
    Shows (blankControls env gtk d).page (blankControls env gtk d).state.settings ↔
      d.page.active .notifications = true ∧ d.page.active .openvpn3Dco = true := by
  obtain ⟨hsame, hswept⟩ := foldl_setState_false env gtk (fun _ => type_of_mem_switches)
    (setCaLabel noCa (fillEntries env gtk "" "" d))
  have hread : ∀ key ∉ switches, getSetting (blankControls env gtk d).state.settings key =
      getSetting (fillEntries env gtk "" "" d).state.settings key := by
    intro key hkey
    exact (hswept key).2.trans (if_neg fun h => hkey h.1)
  have hempty : ∀ key, key.default = .string "" → getSetting d.state.settings key = .none := by
    intro key hkey
    rw [getSetting, hd, hkey]
    rfl
  have hswitch : ∀ key ∈ pageSwitches, (blankControls env gtk d).page.active key =
      truthy (getSetting (blankControls env gtk d).state.settings key) ↔
        (key = .notifications ∨ key = .openvpn3Dco → d.page.active key = true) := by
    intro key hkey
    obtain ⟨hactive, hstored⟩ := hswept key
    have hs : key ≠ .remote := fun h => absurd (h ▸ hkey) (by decide)
    have hu : key ≠ .authUser := fun h => absurd (h ▸ hkey) (by decide)
    have hbefore : getSetting (setCaLabel noCa (fillEntries env gtk "" "" d)).state.settings key =
        .bool (decide (key = .notifications ∨ key = .openvpn3Dco)) := by
      refine (getSetting_fillEntries_ne "" "" d hs hu).trans ?_
      rw [getSetting, hd, default_pageSwitches hkey]
    have hafter : (blankControls env gtk d).page.active key =
        if key ∈ switches then false else d.page.active key := hactive
    have hreads : getSetting (blankControls env gtk d).state.settings key =
        if key ∈ switches ∧ d.page.active key = true then .bool false
        else .bool (decide (key = .notifications ∨ key = .openvpn3Dco)) := hbefore ▸ hstored
    rw [hafter, hreads]
    rcases List.mem_append.mp hkey with hin | hlast
    · cases d.page.active key <;> simp [hin, truthy]
    · obtain rfl := List.mem_singleton.mp hlast
      simp [show Key.openvpn3Dco ∉ switches by decide, truthy]
  constructor
  · intro h
    exact ⟨(hswitch _ (by decide)).mp (h.switches _ (by decide)) (.inl rfl),
      (hswitch _ (by decide)).mp (h.switches _ (by decide)) (.inr rfl)⟩
  · rintro ⟨hnotifications, hdco⟩
    refine ⟨fun entry key he => ?_, fun key hkey => (hswitch key hkey).mpr ?_, ?_⟩
    · have hkey : key ∉ switches := fun h => entryKey_ne_switch (List.mem_append_left _ h) he
      rw [hread key hkey, ← texts_fillEntries (by rw [hempty _ rfl]; rfl) (by rw [hempty _ rfl]; rfl) entry key he]
      exact congrFun hsame.text entry
    · rintro (rfl | rfl)
      · exact hnotifications
      · exact hdco
    · rw [hread _ (by decide), getSetting_fillEntries_ne _ _ _ (by decide) (by decide), hempty _ rfl]
      exact hsame.caLabel

theorem getSetting_setText_reads {entry : Entry} {key : Key} (he : entryKey entry = some key) (d : Desk C) :
    getSetting (setText env gtk entry (textOf (getSetting d.state.settings key)) d).state.settings =
      getSetting d.state.settings :=
  funext (setText_reads (default_of_entryKey he) (handler_of_entryKey he))

variable (env gtk) in
/-- The controls are set to what the settings say, but for the switch that a restore does
not get; and the flag follows. -/
theorem refreshControls_spec (d : Desk C) :
    getSetting (refreshControls env gtk d).state.settings = getSetting d.state.settings ∧
      (Followed d → Followed (refreshControls env gtk d)) ∧
      (Shows (refreshControls env gtk d).page (refreshControls env gtk d).state.settings ↔
        d.page.active .openvpn3Dco = truthy (getSetting d.state.settings .openvpn3Dco)) := by
  let source := textOf (getSetting d.state.settings .remote)
  let username := textOf (getSetting (setText env gtk .configSource source d).state.settings .authUser)
  let filled := fillEntries env gtk source username d
  let labelled := setCaLabel (caLabelOf (getSetting filled.state.settings .ca)) filled
  have hfirst : getSetting (setText env gtk .configSource source d).state.settings = getSetting d.state.settings :=
    getSetting_setText_reads rfl d
  have hsecond : getSetting (setText env gtk .username username (setText env gtk .configSource source
      d)).state.settings = getSetting d.state.settings :=
    (getSetting_setText_reads rfl _).trans hfirst
  have hfilled : getSetting filled.state.settings = getSetting d.state.settings := by
    funext key
    rw [show filled = setText env gtk .password "" _ from rfl, getSetting_setText_ne _ _ (by simp [entryKey]), hsecond]
  obtain ⟨hsame, hactive, hread⟩ := foldl_setState_reads env gtk
    (fun _ => type_of_mem_switches) labelled
  have hreads : getSetting (refreshControls env gtk d).state.settings = getSetting d.state.settings :=
    hread.trans hfilled
  have hswitch : ∀ key, (refreshControls env gtk d).page.active key =
      if key ∈ switches then truthy (getSetting d.state.settings key) else d.page.active key := by
    intro key
    rw [← hfilled]
    exact hactive key
  refine ⟨hreads, fun h => ⟨?_, ?_⟩, fun h => ?_, fun h => ?_⟩
  · rw [hswitch, if_pos (by decide), ← hreads]
    rfl
  · exact (followed_foldl (fun d key => truthy (getSetting d.state.settings key)) switches
      (followed_fillEntries h source username _)).dark
  · have hdco := h.switches .openvpn3Dco (by decide)
    rwa [hreads, hswitch, if_neg (by decide)] at hdco
  · refine ⟨fun entry key he => ?_, fun key hkey => ?_, ?_⟩
    · rw [hreads, ← hfilled, ← texts_fillEntries rfl (by rw [← hfirst]) entry key he]
      exact congrFun hsame.text entry
    · rw [hreads, hswitch]
      rcases List.mem_append.mp hkey with hin | hlast
      · rw [if_pos hin]
      · obtain rfl := List.mem_singleton.mp hlast
        rw [if_neg (by decide)]
        exact h
    · rw [hreads, ← hfilled]
      exact hsame.caLabel

theorem createResetBackup_settings {moment : Moment} {items : List (String × Value)} {st : State C} :
    (∀ {details next}, createResetBackup env moment items st = .error details next → next = st) ∧
      ∀ {name next}, createResetBackup env moment items st = .ok name next → next.settings = st.settings := by
  constructor
  · intro details next h
    simp only [createResetBackup] at h
    cases hb : backupEntries st.configs (env.dumps (manifest moment items)) with
    | error e =>
        rw [hb] at h
        cases h
        rfl
    | ok entries =>
        rw [hb] at h
        dsimp only at h
        split_ifs at h
        cases h
        rfl
  · intro name next h
    obtain ⟨entries, -, -, -, rfl⟩ := createResetBackup_ok h
    rfl

variable (env gtk) in
theorem reset_cases (moment : Moment) (index : Int) (d : Desk C) :
    (∃ st, st.settings = d.state.settings ∧ reset env gtk moment index d = ({ d with state := st }, .untouched)) ∨
      (∃ st, reset env gtk moment index d = ({ d with state := st }, .broken)) ∨
      ∃ st, (∀ key, getValue st.settings key = key.default) ∧
        reset env gtk moment index d = (blankControls env gtk { d with state := st }, .completed) := by
  rw [reset]
  split_ifs with hindex
  · exact .inl ⟨d.state, rfl, rfl⟩
  · cases hc : createResetBackup env moment (snapshot d.state) d.state with
    | error details st =>
        obtain rfl := createResetBackup_settings.1 hc
        exact .inl ⟨_, rfl, rfl⟩
    | ok name next =>
        dsimp only
        cases hp : resetPaths env { clearPersistedPassword (getSetting d.state.settings .authUser) next with
            settings := resetAllSettings
              (clearPersistedPassword (getSetting d.state.settings .authUser) next).settings, session := none } with
        | error details st => exact .inr (.inl ⟨st, rfl⟩)
        | ok u st =>
            refine .inr (.inr ⟨st, fun key => ?_, rfl⟩)
            rw [(resetPaths_ok hp).2.1]
            exact BackupHistory.getValue_resetAll _ key

variable (env gtk) in
theorem restore_cases (moment : Moment) (index : Int) (backup : String) (d : Desk C) :
    (∃ st, st.settings = d.state.settings ∧
        restore env gtk moment index backup d = ({ d with state := st }, .untouched)) ∨
      (∃ st, restore env gtk moment index backup d = ({ d with state := st }, .broken)) ∨
      ∃ st, restore env gtk moment index backup d = (refreshControls env gtk { d with state := st }, .completed) := by
  rw [restore]
  split_ifs with hindex
  · exact .inl ⟨d.state, rfl, rfl⟩
  · cases hc : createResetBackup env moment (snapshot d.state) d.state with
    | error details st =>
        obtain rfl := createResetBackup_settings.1 hc
        exact .inl ⟨_, rfl, rfl⟩
    | ok name next =>
        dsimp only
        cases restoreBackup env backup (getSetting d.state.settings .authUser) next with
        | error details st => exact .inr (.inl ⟨st, rfl⟩)
        | ok u st => exact .inr (.inr ⟨st, rfl⟩)

theorem switches_nodup : switches.Nodup := by decide

variable (env gtk) in
theorem state_foldl {keys : List Key} (hn : keys.Nodup) (f : State C → Key → Bool) (tk : Toolkit) (d : Desk C)
    (htk : ∀ key ∈ keys, ∀ state, tk.sends key state = decide (d.page.active key ≠ state)) :
    (keys.foldl (fun d key => setState env gtk key (f d.state key) d) d).state =
      keys.foldl (fun st key => ResetRestore.setState env tk key (f st key) st) d.state := by
  induction keys generalizing d with
  | nil => rfl
  | cons key keys ih =>
      obtain ⟨hkey, hn⟩ := List.nodup_cons.mp hn
      have hfirst : (setState env gtk key (f d.state key) d).state =
          ResetRestore.setState env tk key (f d.state key) d.state := by
        change ResetRestore.setState env (d.page.toolkit gtk) key (f d.state key) d.state = _
        rw [ResetRestore.setState, ResetRestore.setState, htk key List.mem_cons_self]
        rfl
      rw [List.foldl_cons, List.foldl_cons, ← hfirst]
      refine ih hn _ fun other hother state => ?_
      rw [htk other (List.mem_cons_of_mem _ hother)]
      have hne : other ≠ key := fun h => hkey (h ▸ hother)
      change _ = decide (Function.update d.page.active key _ other ≠ state)
      rw [Function.update_of_ne hne]

theorem state_fillEntries (source username : String) (d : Desk C) :
    (fillEntries env gtk source username d).state =
      ResetRestore.setText env (d.page.toolkit gtk) .password ""
        (ResetRestore.setText env (d.page.toolkit gtk) .username username
          (ResetRestore.setText env (d.page.toolkit gtk) .configSource source d.state)) := by
  simp [fillEntries, setText, ResetRestore.setText, Page.setText, Page.toolkit]

theorem state_blankControls (d : Desk C) :
    (blankControls env gtk d).state = ResetRestore.blankControls env (d.page.toolkit gtk) d.state := by
  have hfold := state_foldl env gtk switches_nodup (fun _ _ => false) (d.page.toolkit gtk)
    (setCaLabel noCa (fillEntries env gtk "" "" d)) fun _ _ _ => rfl
  have hfilled : (setCaLabel noCa (fillEntries env gtk "" "" d)).state = _ := state_fillEntries "" "" d
  rw [hfilled] at hfold
  rw [blankControls, ResetRestore.blankControls]
  exact hfold

theorem state_refreshControls (d : Desk C) :
    (refreshControls env gtk d).state = ResetRestore.refreshControls env (d.page.toolkit gtk) d.state := by
  let source := textOf (getSetting d.state.settings .remote)
  let username := textOf (getSetting (setText env gtk .configSource source d).state.settings .authUser)
  let label := caLabelOf (getSetting (fillEntries env gtk source username d).state.settings .ca)
  have hfold := state_foldl env gtk switches_nodup (fun st key => truthy (getSetting st.settings key))
    (d.page.toolkit gtk) (setCaLabel label (fillEntries env gtk source username d)) fun _ _ _ => rfl
  have hfilled : (setCaLabel label (fillEntries env gtk source username d)).state = _ :=
    state_fillEntries source username d
  rw [hfilled] at hfold
  rw [refreshControls, ResetRestore.refreshControls]
  exact hfold

theorem state_reset (moment : Moment) (index : Int) (d : Desk C) :
    (reset env gtk moment index d).1.state =
      BackupHistory.finalState (applyReset env moment (d.page.toolkit gtk) index d.state) := by
  rw [reset, applyReset]
  split_ifs
  · rfl
  · cases createResetBackup env moment (snapshot d.state) d.state with
    | error details st => rfl
    | ok name next =>
        dsimp only
        cases resetPaths env { clearPersistedPassword (getSetting d.state.settings .authUser) next with
            settings := resetAllSettings
              (clearPersistedPassword (getSetting d.state.settings .authUser) next).settings, session := none } with
        | error details st => rfl
        | ok u st => exact state_blankControls { d with state := st }

theorem state_restore (moment : Moment) (index : Int) (backup : String) (d : Desk C) :
    (restore env gtk moment index backup d).1.state =
      BackupHistory.finalState (applyRestore env moment (d.page.toolkit gtk) index backup d.state) := by
  rw [restore, applyRestore]
  split_ifs
  · rfl
  · cases createResetBackup env moment (snapshot d.state) d.state with
    | error details st => rfl
    | ok name next =>
        dsimp only
        cases restoreBackup env backup (getSetting d.state.settings .authUser) next with
        | error details st => rfl
        | ok u st => exact state_refreshControls { d with state := st }

variable (env gtk) in
theorem coherent_setText (h : Coherent d.page) (entry : Entry) (text : String) :
    Coherent (setText env gtk entry text d).page := by
  refine ⟨h.auth, fun hr => ?_⟩
  change Function.update d.page.text entry text .configSource ≠ ""
  by_cases he : entry = .configSource
  · subst entry
    rw [Function.update_self]
    have hfold : (gtk.seen (d.page.text .configSource) text).foldl (fun _ text => decide (text ≠ "")) d.page.revealed =
        true := hr
    rcases List.eq_nil_or_concat (gtk.seen (d.page.text .configSource) text) with hnil | ⟨texts, last, hlast⟩
    · have hsame : d.page.text .configSource = text := by
        by_contra hne
        exact gtk.seen_changed _ _ hne hnil
      rw [hnil] at hfold
      exact hsame ▸ h.revealed hfold
    · rw [List.concat_eq_append] at hlast
      obtain rfl := gtk.seen_last _ _ last (by rw [hlast, List.getLast?_concat]; rfl)
      rw [hlast, List.foldl_append] at hfold
      exact of_decide_eq_true hfold
  · rw [Function.update_of_ne (Ne.symm he)]
    have hrevealed : (setText env gtk entry text d).page.revealed = d.page.revealed := by
      simp [setText, Page.setText, he]
    exact h.revealed (hrevealed ▸ hr)

theorem coherent_setState (h : Coherent d.page) (key : Key) (state : Bool) :
    Coherent (setState env gtk key state d).page := by
  refine ⟨?_, h.revealed⟩
  by_cases hk : key = .reqAuth
  · subst key
    by_cases hs : d.page.active .reqAuth = state
    · simp [setState, Page.toolkit, hs, h.auth]
    · simp [setState, Page.toolkit, hs]
  · simp [setState, hk, Function.update_of_ne (Ne.symm hk), h.auth]

variable (env gtk) in
theorem coherent_foldl (state : Desk C → Key → Bool) (keys : List Key) (h : Coherent d.page) :
    Coherent (keys.foldl (fun d key => setState env gtk key (state d key) d) d).page := by
  induction keys generalizing d with
  | nil => exact h
  | cons key keys ih => exact ih (coherent_setState h key (state d key))

variable (env gtk) in
theorem coherent_fillEntries (h : Coherent d.page) (source username label : String) :
    Coherent (setCaLabel label (fillEntries env gtk source username d)).page := by
  have hfilled := coherent_setText env gtk (coherent_setText env gtk
    (coherent_setText env gtk h .configSource source) .username username) .password ""
  exact ⟨hfilled.auth, hfilled.revealed⟩

theorem ne_sentinel (path : FullPath) : path.1 ≠ "" ∧ path.1 ≠ "null" := by
  refine ⟨fun h => ?_, fun h => ?_⟩
  all_goals
    have hslash := path.2
    rw [h] at hslash
    revert hslash
    decide

variable (env) in
theorem glibFunc_spec (owner : Owner) (d : Desk C) :
    (glibFunc env owner d).page = { d.page with
        caLabel := (if owner = some d.page.id then pendingLabel owner (d.pending owner) else none).getD d.page.caLabel } ∧
      (glibFunc env owner d).state = (d.pending owner).caSetting.elim d.state
        (fun path => assign env .ca (.str path) d.state) ∧
      (glibFunc env owner d).isOpen = d.isOpen ∧ (glibFunc env owner d).flagVisible = d.flagVisible ∧
      (glibFunc env owner d).prefersDark = d.prefersDark := by
  simp only [glibFunc]
  cases hlabel : pendingLabel owner (d.pending owner) with
  | none => cases (d.pending owner).caSetting <;> simp [pend]
  | some label =>
      by_cases howner : owner = some d.page.id
      · cases (d.pending owner).caSetting <;> simp [pend, howner, setCaLabel]
      · cases (d.pending owner).caSetting <;> simp [pend, howner]

theorem coherent_setup (id : Nat) (settings : Store) : Coherent (setup id settings) :=
  ⟨rfl, (fun h => by cases h)⟩

theorem coherent_processSourcePicked (h : Coherent d.page) (path : FullPath) :
    Coherent (processSourcePicked env gtk path d).page := by
  refine ⟨h.auth, fun _ => ?_⟩
  change Function.update d.page.text .configSource path.1 .configSource ≠ ""
  rw [Function.update_self]
  exact (ne_sentinel path).1

theorem coherent_reset (h : Coherent d.page) (moment : Moment) (index : Int) :
    Coherent (reset env gtk moment index d).1.page := by
  rcases reset_cases env gtk moment index d with ⟨st, -, heq⟩ | ⟨st, heq⟩ | ⟨st, -, heq⟩
  · exact heq ▸ h
  · exact heq ▸ h
  · rw [heq]
    have hfilled : Coherent (setCaLabel noCa (fillEntries env gtk "" "" { d with state := st })).page :=
      coherent_fillEntries env gtk h "" "" noCa
    have hswept := coherent_foldl env gtk (fun _ _ => false) switches hfilled
    exact ⟨hswept.auth, hswept.revealed⟩

theorem coherent_refreshControls (h : Coherent d.page) : Coherent (refreshControls env gtk d).page := by
  let source := textOf (getSetting d.state.settings .remote)
  let username := textOf (getSetting (setText env gtk .configSource source d).state.settings .authUser)
  let label := caLabelOf (getSetting (fillEntries env gtk source username d).state.settings .ca)
  have hswept := coherent_foldl env gtk (fun d key => truthy (getSetting d.state.settings key)) switches
    (coherent_fillEntries env gtk h source username label)
  exact ⟨hswept.auth, hswept.revealed⟩

theorem coherent_restore (h : Coherent d.page) (moment : Moment) (index : Int) (backup : String) :
    Coherent (restore env gtk moment index backup d).1.page := by
  rcases restore_cases env gtk moment index backup d with ⟨st, -, heq⟩ | ⟨st, heq⟩ | ⟨st, heq⟩
  · exact heq ▸ h
  · exact heq ▸ h
  · rw [heq]
    exact coherent_refreshControls h

theorem onPage_eq_some {handler : Desk C → Desk C} (h : onPage d handler = some t) : d.isOpen = true ∧ t = handler d := by
  rw [onPage] at h
  split_ifs at h with ho
  exact ⟨ho, (Option.some.inj h).symm⟩

theorem worker_step {a : Action} {w : Worker} (h : stepWorker env configDir d w a = some t) :
    (t.page = d.page ∧ t.state = d.state ∧ t.isOpen = d.isOpen ∧ t.flagVisible = d.flagVisible ∧
        t.prefersDark = d.prefersDark ∧ ∀ i, a ≠ .loaded i) ∨
      ∃ i, a = .loaded i ∧ t = { glibFunc env w.owner d with workers := d.workers.eraseIdx i } := by
  cases a with
  | found i cert | ended i =>
      simp only [stepWorker] at h
      split_ifs at h
      obtain rfl := Option.some.inj h
      exact .inl ⟨rfl, rfl, rfl, rfl, rfl, (fun _ h => by cases h)⟩
  | named i =>
      simp only [stepWorker] at h
      split at h
      · obtain rfl := Option.some.inj h
        exact .inl ⟨rfl, rfl, rfl, rfl, rfl, (fun _ h => by cases h)⟩
      · cases h
  | loaded i =>
      simp only [stepWorker] at h
      split_ifs at h
      exact .inr ⟨i, rfl, (Option.some.inj h).symm⟩
  | openPage | closePage | edit | toggle | pickSource | pickCa | reset | restore | validate | update => cases h

theorem coherent_step {a : Action} (h : Coherent d.page) (hs : step env gtk configDir d a = some t) :
    Coherent t.page := by
  cases a with
  | openPage =>
      simp only [step] at hs
      split_ifs at hs
      obtain rfl := Option.some.inj hs
      exact coherent_setup _ _
  | toggle key =>
      simp only [step] at hs
      split_ifs at hs
      obtain ⟨-, rfl⟩ := onPage_eq_some hs
      exact coherent_setState h key _
  | closePage =>
      simp only [step] at hs
      obtain ⟨-, rfl⟩ := onPage_eq_some hs
      exact h
  | edit entry text =>
      obtain ⟨-, rfl⟩ := onPage_eq_some hs
      exact coherent_setText env gtk h entry text
  | pickSource path =>
      obtain ⟨-, rfl⟩ := onPage_eq_some hs
      exact coherent_processSourcePicked h path
  | pickCa path =>
      obtain ⟨-, rfl⟩ := onPage_eq_some hs
      exact ⟨h.auth, h.revealed⟩
  | reset moment index =>
      simp only [step] at hs
      obtain ⟨-, rfl⟩ := onPage_eq_some hs
      exact coherent_reset h moment index
  | restore moment index backup =>
      simp only [step] at hs
      obtain ⟨-, rfl⟩ := onPage_eq_some hs
      exact coherent_restore h moment index backup
  | validate =>
      simp only [step] at hs
      obtain ⟨-, rfl⟩ := onPage_eq_some hs
      rw [validateAndLoad]
      split <;> exact h
  | update =>
      obtain rfl := Option.some.inj hs
      rw [validateAndLoad]
      split <;> exact h
  | found i | named i | ended i | loaded i =>
      obtain ⟨w, -, hw⟩ := Option.bind_eq_some_iff.mp hs
      rcases worker_step hw with ⟨hpage, -⟩ | ⟨j, -, rfl⟩
      · exact hpage ▸ h
      · change Coherent (glibFunc env w.owner d).page
        rw [(glibFunc_spec env w.owner d).1]
        exact ⟨h.auth, h.revealed⟩

theorem stored_path (path : FullPath) : stored path = .str path := by
  obtain ⟨hempty, hnull⟩ := ne_sentinel path
  simp [stored, readString, hempty, hnull]

theorem getSetting_assign_path {key : Key} (hd : key.default = .string "") (path : FullPath) (st : State C) :
    getSetting (assign env key (.str path) st).settings = Function.update (getSetting st.settings) key (.str path) := by
  have hvalue : textValue path.1 = .str path := if_neg (ne_sentinel path).1
  rw [← hvalue, getSetting_assign_text hd, stored_path, hvalue]

theorem shows_toggle (hs : Shows d.page d.state.settings) {key : Key} (hkey : key ∈ pageSwitches) (state : Bool) :
    Shows (setState env gtk key state d).page (setState env gtk key state d).state.settings := by
  have hb := type_of_mem_pageSwitches hkey
  have hread : ∀ other, other ≠ key →
      getSetting (setState env gtk key state d).state.settings other = getSetting d.state.settings other := by
    intro other hne
    rw [getSetting_setState hb]
    split_ifs
    · rfl
    · exact Function.update_of_ne hne _ _
  have hne : ∀ other, other.default = .string "" → other ≠ key := by
    rintro other hd rfl
    rw [hd] at hb
    cases hb
  refine ⟨fun entry other he => ?_, fun other hother => ?_, ?_⟩
  · rw [hread other (hne other (default_of_entryKey he))]
    exact hs.texts entry other he
  · change Function.update d.page.active key state other = _
    by_cases hk : other = key
    · subst other
      rw [Function.update_self, getSetting_setState hb]
      split_ifs with h
      · rw [← h]
        exact hs.switches key hkey
      · rw [Function.update_self]
        rfl
    · rw [Function.update_of_ne hk, hread other hk]
      exact hs.switches other hother
  · rw [hread .ca (hne .ca rfl)]
    exact hs.ca

theorem shows_processSourcePicked (hs : Shows d.page d.state.settings) (path : FullPath) :
    Shows (processSourcePicked env gtk path d).page (processSourcePicked env gtk path d).state.settings := by
  have hread : getSetting (processSourcePicked env gtk path d).state.settings =
      Function.update (getSetting d.state.settings) .remote (.str path) := by
    refine (foldl_assign_text rfl (gtk.rebound (d.page.text .configSource) path) _).trans ?_
    rw [getSetting_assign_path rfl]
    cases hlast : (gtk.rebound (d.page.text .configSource) path).getLast? with
    | none => rfl
    | some last =>
        obtain rfl := gtk.rebound_last _ _ last hlast
        rw [Option.elim_some, Function.update_idem, stored_path]
  refine ⟨fun entry key he => ?_, fun key hkey => ?_, ?_⟩
  · change Function.update d.page.text .configSource path.1 entry = _
    rw [hread]
    cases entry with
    | configSource =>
        cases he
        rw [Function.update_self, Function.update_self]
        rfl
    | username =>
        cases he
        rw [Function.update_of_ne (by decide), Function.update_of_ne (by decide)]
        exact hs.texts .username .authUser rfl
    | password => cases he
  · have hne : key ≠ .remote := fun h => absurd (h ▸ hkey) (by decide)
    rw [hread, Function.update_of_ne hne]
    exact hs.switches key hkey
  · rw [hread, Function.update_of_ne (by decide)]
    exact hs.ca

variable (env) in
theorem shows_ca_iff (hs : Shows d.page d.state.settings) (label : String) (path : Option FullPath) :
    Shows { d.page with caLabel := label }
        (path.elim d.state fun path => assign env .ca (.str path) d.state).settings ↔
      label = (path.map fun path : FullPath => basename path.1).getD d.page.caLabel := by
  cases path with
  | none => exact ⟨fun h => h.ca.trans hs.ca.symm, fun h => ⟨hs.texts, hs.switches, h.trans hs.ca⟩⟩
  | some path =>
      rw [Option.elim_some, Option.map_some, Option.getD_some]
      have hread : getSetting (assign env .ca (.str path) d.state).settings =
          Function.update (getSetting d.state.settings) .ca (.str path) :=
        getSetting_assign_path rfl path d.state
      constructor
      · intro h
        have hca := h.ca
        rw [hread, Function.update_self] at hca
        exact hca
      · intro h
        refine ⟨fun entry key he => ?_, fun key hkey => ?_, ?_⟩
        · have hne : key ≠ .ca := by
            rintro rfl
            cases entry <;> cases he
          rw [hread, Function.update_of_ne hne]
          exact hs.texts entry key he
        · have hne : key ≠ .ca := fun h => absurd (h ▸ hkey) (by decide)
          rw [hread, Function.update_of_ne hne]
          exact hs.switches key hkey
        · rw [hread, Function.update_self]
          exact h

variable (env gtk) in
theorem isOpen_blankControls (d : Desk C) : (blankControls env gtk d).isOpen = d.isOpen :=
  (foldl_setState_false env gtk (fun _ => type_of_mem_switches)
    (setCaLabel noCa (fillEntries env gtk "" "" d))).1.isOpen

variable (env gtk) in
theorem isOpen_refreshControls (d : Desk C) : (refreshControls env gtk d).isOpen = d.isOpen := by
  let source := textOf (getSetting d.state.settings .remote)
  let username := textOf (getSetting (setText env gtk .configSource source d).state.settings .authUser)
  let label := caLabelOf (getSetting (fillEntries env gtk source username d).state.settings .ca)
  exact (foldl_setState_reads env gtk (fun _ => type_of_mem_switches)
    (setCaLabel label (fillEntries env gtk source username d))).1.isOpen

variable (gtk) in
theorem truthful_reset_iff (h : Truthful d) (ho : d.isOpen = true) (moment : Moment) (index : Int) :
    Truthful (reset env gtk moment index d).1 ↔ Kept env gtk d (.reset moment index) := by
  have hf := h.followed ho
  rcases reset_cases env gtk moment index d with ⟨st, hsame, heq⟩ | ⟨st, heq⟩ | ⟨st, hdefault, heq⟩
  · simp only [Kept, heq]
    exact iff_of_true ⟨fun ho => hsame ▸ h.shows ho, hsame ▸ h.flag, hsame ▸ h.dark⟩ trivial
  · simp only [Kept, heq]
    exact Followed.truthful_iff ⟨hf.flag, hf.dark⟩ ho
  · simp only [Kept, heq]
    have hopen := (isOpen_blankControls env gtk { d with state := st }).trans ho
    have hfollowed : Followed ({ d with state := st } : Desk C) := ⟨hf.flag, hf.dark⟩
    rw [(followed_blankControls hfollowed).truthful_iff hopen]
    exact shows_blankControls_iff hdefault

variable (gtk) in
theorem truthful_restore_iff (h : Truthful d) (ho : d.isOpen = true) (moment : Moment) (index : Int)
    (backup : String) :
    Truthful (restore env gtk moment index backup d).1 ↔ Kept env gtk d (.restore moment index backup) := by
  have hf := h.followed ho
  rcases restore_cases env gtk moment index backup d with ⟨st, hsame, heq⟩ | ⟨st, heq⟩ | ⟨st, heq⟩
  · simp only [Kept, heq]
    exact iff_of_true ⟨fun ho => hsame ▸ h.shows ho, hsame ▸ h.flag, hsame ▸ h.dark⟩ trivial
  · simp only [Kept, heq]
    exact Followed.truthful_iff ⟨hf.flag, hf.dark⟩ ho
  · simp only [Kept, heq]
    obtain ⟨hreads, hfollowed, hshows⟩ := refreshControls_spec env gtk { d with state := st }
    have hopen := (isOpen_refreshControls env gtk { d with state := st }).trans ho
    rw [(hfollowed ⟨hf.flag, hf.dark⟩).truthful_iff hopen, hshows, hreads]

theorem truthful_glibFunc_iff (h : Truthful d) (owner : Owner) (workers : List Worker) :
    Truthful { glibFunc env owner d with workers } ↔ (d.isOpen = true →
      (if owner = some d.page.id then pendingLabel owner (d.pending owner) else none).getD d.page.caLabel =
        ((d.pending owner).caSetting.map fun path : FullPath => basename path.1).getD d.page.caLabel) := by
  obtain ⟨hpage, hstate, hopen, hflag, hdark⟩ := glibFunc_spec env owner d
  have hother : ∀ key, key ≠ .ca →
      getSetting (glibFunc env owner d).state.settings key = getSetting d.state.settings key := by
    intro key hne
    rw [hstate]
    cases (d.pending owner).caSetting with
    | none => rfl
    | some path =>
        rw [Option.elim_some]
        exact assign_frame _ _ hne
  have hrest : Truthful { glibFunc env owner d with workers } ↔ (d.isOpen = true →
      Shows (glibFunc env owner d).page (glibFunc env owner d).state.settings) := by
    refine ⟨fun ht ho => ht.shows (hopen.trans ho), fun hshows => ⟨fun ho => hshows (hopen.symm.trans ho), ?_, ?_⟩⟩
    · exact hflag.trans (h.flag.trans (congrArg truthy (hother _ (by decide)).symm))
    · intro hd
      rw [hother _ (by decide)] at hd
      exact hdark.trans (h.dark hd)
  rw [hrest]
  refine forall_congr' fun ho => ?_
  rw [hpage, hstate]
  exact shows_ca_iff env (h.shows ho) _ _

theorem truthful_step {a : Action} (h : Truthful d) (hs : step env gtk configDir d a = some t) :
    Truthful t ↔ Kept env gtk d a := by
  cases a with
  | openPage =>
      simp only [step] at hs
      split_ifs at hs
      obtain rfl := Option.some.inj hs
      refine iff_of_true ⟨fun _ => ⟨fun entry key he => ?_, fun _ _ => rfl, rfl⟩, h.flag, h.dark⟩ trivial
      cases entry <;> cases he <;> rfl
  | closePage =>
      simp only [step] at hs
      obtain ⟨-, rfl⟩ := onPage_eq_some hs
      exact iff_of_true ⟨(fun h => by cases h), h.flag, h.dark⟩ trivial
  | edit entry text =>
      obtain ⟨ho, rfl⟩ := onPage_eq_some hs
      have hf : Followed (setText env gtk entry text d) := ⟨(h.followed ho).flag, (h.followed ho).dark⟩
      exact (hf.truthful_iff ho).trans (shows_setText_iff (h.shows ho) entry text)
  | toggle key =>
      simp only [step] at hs
      split_ifs at hs with hkey
      obtain ⟨ho, rfl⟩ := onPage_eq_some hs
      have hf : Followed (setState env gtk key (!d.page.active key) d) := followed_setState (h.followed ho) key _
      exact iff_of_true ((hf.truthful_iff ho).mpr (shows_toggle (h.shows ho) hkey _)) trivial
  | pickSource path =>
      obtain ⟨ho, rfl⟩ := onPage_eq_some hs
      have hf : Followed (processSourcePicked env gtk path d) := ⟨(h.followed ho).flag, (h.followed ho).dark⟩
      exact iff_of_true ((hf.truthful_iff ho).mpr (shows_processSourcePicked (h.shows ho) path)) trivial
  | pickCa path =>
      obtain ⟨ho, rfl⟩ := onPage_eq_some hs
      have hf : Followed (processCaPicked env path d) := ⟨(h.followed ho).flag, (h.followed ho).dark⟩
      have hs := (shows_ca_iff env (h.shows ho) (basename path) (some path)).mpr rfl
      exact iff_of_true ((hf.truthful_iff ho).mpr hs) trivial
  | reset moment index =>
      simp only [step] at hs
      obtain ⟨ho, rfl⟩ := onPage_eq_some hs
      exact truthful_reset_iff gtk h ho moment index
  | restore moment index backup =>
      simp only [step] at hs
      obtain ⟨ho, rfl⟩ := onPage_eq_some hs
      exact truthful_restore_iff gtk h ho moment index backup
  | validate =>
      simp only [step] at hs
      obtain ⟨-, rfl⟩ := onPage_eq_some hs
      rw [validateAndLoad]
      split <;> exact iff_of_true ⟨h.shows, h.flag, h.dark⟩ trivial
  | update =>
      obtain rfl := Option.some.inj hs
      rw [validateAndLoad]
      split <;> exact iff_of_true ⟨h.shows, h.flag, h.dark⟩ trivial
  | found i | named i | ended i =>
      obtain ⟨w, -, hw⟩ := Option.bind_eq_some_iff.mp hs
      obtain ⟨hpage, hstate, hopen, hflag, hdark, -⟩ | ⟨j, hj, -⟩ := worker_step hw
      · refine iff_of_true ⟨?_, ?_, ?_⟩ trivial
        · rw [hopen, hpage, hstate]
          exact h.shows
        · rw [hflag, hstate]
          exact h.flag
        · rw [hdark, hstate]
          exact h.dark
      · cases hj
  | loaded i =>
      obtain ⟨w, hw, hstep⟩ := Option.bind_eq_some_iff.mp hs
      obtain ⟨-, -, -, -, -, hne⟩ | ⟨j, hj, rfl⟩ := worker_step hstep
      · exact absurd rfl (hne i)
      · cases hj
        rw [truthful_glibFunc_iff h]
        simp only [Kept, hw, Option.mem_def, Option.some.injEq, forall_eq']

/-- Over every run the credentials are open when their switch is on and the button that
validates stands beside a source; and the page shows what is stored, the flag and the
theme with it, in every state of exactly the runs whose steps keep it so. -/
theorem page_truthful_iff (env : Env C) (gtk : Gtk) (configDir : String) (st : State C) (systemDark : Bool)
    (actions : List Action) :
    AllStates (step env gtk configDir) (fun d => Coherent d.page) (started st systemDark) actions ∧
      (AllStates (step env gtk configDir) Truthful (started st systemDark) actions ↔
        AllSteps (step env gtk configDir) (Kept env gtk) (started st systemDark) actions) := by
  have hcoherent : Coherent (started st systemDark).page := coherent_setup 0 st.settings
  have htruthful : Truthful (started st systemDark) :=
    ⟨(fun h => by cases h), rfl, fun h => Bool.or_eq_true_iff.mpr (.inl h)⟩
  exact ⟨allStates_of_invariant (fun _ _ _ h hs => coherent_step h hs) hcoherent actions,
    allStates_iff_allSteps (fun _ h => h) (fun _ _ _ h hs hk => (truthful_step h hs).mpr hk)
      (fun _ _ _ h hs => (truthful_step h hs).mp) actions htruthful⟩

def plainGtk : Gtk where
  seen old new := (if old = "" then [] else [""]) ++ if new = "" then [] else [new]
  seen_last old new last h := by
    by_cases hnew : new = ""
    · by_cases hold : old = "" <;> simp_all
    · simp_all
  seen_changed old new hne h := by
    by_cases hold : old = "" <;> simp_all
  rebound _ new := [new]
  rebound_last _ _ _ h := (Option.some.inj h).symm

def importing : List Action :=
  [.openPage, .edit .configSource "https://vpn.example.com/all.zip", .toggle .reqAuth, .edit .username "user", .validate,
    .found 0 "ca.crt", .named 0, .loaded 0, .closePage, .openPage]

theorem page_truthful_importing :
    AllStates (step plainEnv plainGtk "/configs") Truthful (started used true) importing ∧
      ∃ d, run (step plainEnv plainGtk "/configs") (started used true) importing = some d ∧
        d.page.caLabel = "ca.crt" ∧ d.page.text .username = "user" := by
  refine ⟨(page_truthful_iff plainEnv plainGtk "/configs" used true importing).2.mpr ?_, _, rfl, by decide, rfl⟩
  refine .cons rfl trivial (.cons rfl (.inr (by decide)) (.cons rfl trivial (.cons rfl (.inr (by decide))
    (.cons rfl trivial (.cons rfl trivial (.cons rfl trivial (.cons rfl ?_ (.cons rfl trivial (.cons rfl trivial trivial)))))))))
  intro _ w hw
  obtain rfl := Option.some.inj hw
  decide

end EovpnPro.SettingsPage
