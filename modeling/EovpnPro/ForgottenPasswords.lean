import EovpnPro.SettingsPage

namespace EovpnPro.ForgottenPasswords

open Runs Settings
open SettingsPage (Gtk)

/-- A settings page with its password entry, the write to the keyring that is scheduled for
when the user has paused typing, and whether it waits for what the keyring has. -/
structure Page where
  text : String := ""
  pending : Option (String × String) := none
  asking : Bool := false
  deriving DecidableEq, Repr

/-- The user name setting, the session password with the user it was entered for, all
settings pages there were, the newest first, the writes and the removals that the Secret
Service still works on, and the keyring. For the statements, the users whose password was
removed by a reset or a restore and has not been typed since. -/
structure Desk where
  user : Option String := none
  session : Option (String × String) := none
  pages : List Page := []
  isOpen : Bool := false
  storing : List (String × String) := []
  clearing : List String := []
  keyring : String → Option String := fun _ => none
  forgotten : List String := []

variable {gtk : Gtk} {d t : Desk} {user : String}

def entered (d : Desk) (pwd : String) : Option (String × String) :=
  if pwd = "" then none else d.user.map fun user => (user, pwd)

/-- `process_password` of a page, which cancels its scheduled write first. -/
def processPassword (page : Nat) (pwd : String) (d : Desk) : Desk :=
  { d with
    session := entered d pwd
    pages := d.pages.modify page fun p => { p with text := pwd, pending := entered d pwd } }

def setText (gtk : Gtk) (page : Nat) (text : String) (d : Desk) : Desk :=
  match d.pages[page]? with
  | some p => (gtk.seen p.text text).foldl (fun d text => processPassword page text d) d
  | none => d

/-- `_clear_persisted_password`, whose request may fail before it is sent. -/
def clearPersistedPassword (asked : Bool) (d : Desk) : Desk :=
  match d.user with
  | some user =>
      { d with
        clearing := if asked then d.clearing ++ [user] else d.clearing
        forgotten := user :: d.forgotten }
  | none => d

/-- `_apply_reset` from the removal on. It is completed unless `reset_paths` raises. -/
def applyReset (gtk : Gtk) (asked completed : Bool) (d : Desk) : Desk :=
  let d := { clearPersistedPassword asked d with user := none, session := none }
  if completed then setText gtk 0 "" d else d

/-- `_apply_restore` from the removal on, with the user name that it leaves. -/
def applyRestore (gtk : Gtk) (asked completed : Bool) (user : Option String) (d : Desk) : Desk :=
  let d := { clearPersistedPassword asked d with user }
  if completed then setText gtk 0 "" { d with session := none } else d

inductive Action
  | openPage
  | closePage
  | typeUsername (text : String)
  | typePassword (pwd : String)
  | found (page : Nat) (answer : Option String)
  | timer (page : Nat)
  | stored (k : Nat) (ok : Bool)
  | cleared (k : Nat) (ok : Bool)
  | reset (asked completed : Bool)
  | restore (asked completed : Bool) (user : Option String)

def onPage (d : Desk) (handler : Desk → Desk) : Option Desk := if d.isOpen then some (handler d) else none

def typePassword (pwd : String) (d : Desk) : Desk :=
  let t := processPassword 0 pwd d
  match entered d pwd with
  | some (user, _) => { t with forgotten := t.forgotten.filter fun other => other ≠ user }
  | none => t

/-- A page that was closed still hears of its timer and of what it asked the keyring. -/
def step (gtk : Gtk) (d : Desk) : Action → Option Desk
  | .openPage =>
      if d.isOpen then none else some { d with pages := { asking := d.user.isSome } :: d.pages, isOpen := true }
  | .closePage => onPage d fun d => { d with isOpen := false }
  | .typeUsername text => onPage d fun d => { d with user := readString text }
  | .typePassword pwd => onPage d (typePassword pwd)
  | .found page answer =>
      match d.pages[page]? with
      | some p =>
          if p.asking then
            let d := { d with pages := d.pages.set page { p with asking := false } }
            match answer with
            | some pwd => if pwd = "" then some d else some (setText gtk page pwd d)
            | none => some d
          else none
      | none => none
  | .timer page =>
      match d.pages[page]? with
      | some p => p.pending.map fun pair =>
          { d with pages := d.pages.set page { p with pending := none }, storing := d.storing ++ [pair] }
      | none => none
  | .stored k ok => (d.storing[k]?).map fun pair =>
      { d with
        storing := d.storing.eraseIdx k
        keyring := if ok then Function.update d.keyring pair.1 (some pair.2) else d.keyring }
  | .cleared k ok => (d.clearing[k]?).map fun user =>
      { d with
        clearing := d.clearing.eraseIdx k
        keyring := if ok then Function.update d.keyring user none else d.keyring }
  | .reset asked completed => onPage d (applyReset gtk asked completed)
  | .restore asked completed user => onPage d (applyRestore gtk asked completed user)

/-- Nothing of the user's password is held, scheduled or on its way to the keyring, and what
the keyring still has is about to be removed. -/
structure Forgotten (d : Desk) (user : String) : Prop where
  session : ∀ pwd, d.session ≠ some (user, pwd)
  pending : ∀ p ∈ d.pages, ∀ pwd, p.pending ≠ some (user, pwd)
  storing : ∀ pwd, (user, pwd) ∉ d.storing
  kept : d.keyring user ≠ none → user ∈ d.clearing

def Clean (d : Desk) : Prop := ∀ user ∈ d.forgotten, Forgotten d user

/-- The password is not about to be written, and what the keyring has is asked for. -/
structure Erasable (d : Desk) (asked : Bool) (pages : List Page) (user : String) : Prop where
  asked : asked = true ∨ d.keyring user = none ∨ user ∈ d.clearing
  storing : ∀ pwd, (user, pwd) ∉ d.storing
  pending : ∀ p ∈ pages, ∀ pwd, p.pending ≠ some (user, pwd)

/-- A reset and a restore come when no write for the user is under way or scheduled but by
the page itself, and do all they are to do; a removal succeeds; and the keyring does not give
a password that is forgotten back to a page. -/
def Kept (gtk : Gtk) (d : Desk) : Action → Prop
  | .found page answer => ∀ p ∈ d.pages[page]?, ∀ pwd ∈ answer, pwd ≠ "" → gtk.seen p.text pwd ≠ [] →
      ∀ user ∈ d.user, user ∉ d.forgotten
  | .cleared k ok => ∀ user ∈ d.clearing[k]?, user ∈ d.forgotten →
      ok = true ∨ d.keyring user = none ∨ user ∈ d.clearing.eraseIdx k
  | .reset asked completed => ∀ user ∈ d.user,
      Erasable d asked (if completed then d.pages.tail else d.pages) user
  | .restore asked completed _ => ∀ user ∈ d.user,
      Erasable d asked (if completed then d.pages.tail else d.pages) user ∧
        (completed = true ∨ ∀ pwd, d.session ≠ some (user, pwd))
  | _ => True

def Scheduled (d : Desk) : Prop := ∀ p ∈ d.pages, p.text = "" → p.pending = none

theorem processPassword_again (page : Nat) (other text : String) (d : Desk) :
    processPassword page text (processPassword page other d) = processPassword page text d := by
  simp only [processPassword, entered, List.modify_modify_eq]
  rfl

theorem foldl_processPassword (page : Nat) (texts : List String) (d : Desk) :
    texts.foldl (fun d text => processPassword page text d) d =
      texts.getLast?.elim d fun text => processPassword page text d := by
  induction texts using List.reverseRecOn with
  | nil => rfl
  | append_singleton texts text ih =>
      rw [List.foldl_append, List.foldl_cons, List.foldl_nil, ih, List.getLast?_concat, Option.elim_some]
      cases texts.getLast? with
      | none => rfl
      | some other => exact processPassword_again page other text d

theorem setText_eq (gtk : Gtk) {page : Nat} {p : Page} (hp : d.pages[page]? = some p) (text : String) :
    setText gtk page text d = if gtk.seen p.text text = [] then d else processPassword page text d := by
  rw [setText, hp]
  dsimp only
  rw [foldl_processPassword]
  cases hlast : (gtk.seen p.text text).getLast? with
  | none => rw [if_pos (List.getLast?_eq_none_iff.mp hlast), Option.elim_none]
  | some last =>
      have hseen : gtk.seen p.text text ≠ [] := by
        rintro hnil
        rw [hnil] at hlast
        cases hlast
      rw [if_neg hseen, Option.elim_some, gtk.seen_last _ _ last hlast]

theorem mem_modify {α : Type} {l : List α} {i : Nat} {f : α → α} {x : α} (h : x ∈ l.modify i f) :
    x ∈ l ∨ ∃ y ∈ l, x = f y := by
  obtain ⟨j, hj⟩ := List.mem_iff_getElem?.mp h
  rw [List.getElem?_modify] at hj
  obtain ⟨y, hy, rfl⟩ := Option.map_eq_some_iff.mp hj
  split_ifs
  · exact .inr ⟨y, List.mem_of_getElem? hy, rfl⟩
  · exact .inl (List.mem_of_getElem? hy)

theorem Scheduled.processPassword (h : Scheduled d) (page : Nat) (pwd : String) :
    Scheduled (processPassword page pwd d) := by
  intro p hp hempty
  rcases mem_modify hp with hp | ⟨q, -, rfl⟩
  · exact h p hp hempty
  · change entered d pwd = none
    rw [entered, if_pos hempty]

theorem Scheduled.setText (h : Scheduled d) (gtk : Gtk) (page : Nat) (text : String) :
    Scheduled (setText gtk page text d) := by
  cases hp : d.pages[page]? with
  | none =>
      rw [ForgottenPasswords.setText, hp]
      exact h
  | some p =>
      rw [setText_eq gtk hp]
      split_ifs
      · exact h
      · exact h.processPassword page text

theorem Scheduled.set (h : Scheduled d) {page : Nat} {p q : Page} (hp : d.pages[page]? = some p)
    (htext : q.text = p.text) (hpending : p.pending = none → q.pending = none) :
    Scheduled { d with pages := d.pages.set page q } := by
  intro other hother hempty
  rcases List.mem_or_eq_of_mem_set hother with hmem | rfl
  · exact h other hmem hempty
  · exact hpending (h p (List.mem_of_getElem? hp) (htext.symm.trans hempty))

theorem pages_clearPersistedPassword (asked : Bool) (d : Desk) : (clearPersistedPassword asked d).pages = d.pages := by
  rw [clearPersistedPassword]
  split <;> rfl

theorem session_clearPersistedPassword (asked : Bool) (d : Desk) :
    (clearPersistedPassword asked d).session = d.session := by
  rw [clearPersistedPassword]
  split <;> rfl

theorem step_cases {a : Action} (hs : step gtk d a = some t) :
    match a with
    | .openPage => t = { d with pages := { asking := d.user.isSome } :: d.pages, isOpen := true }
    | .closePage => t = { d with isOpen := false }
    | .typeUsername text => t = { d with user := readString text }
    | .typePassword pwd => t = typePassword pwd d
    | .found page answer => ∃ p, d.pages[page]? = some p ∧
        ((∀ pwd ∈ answer, pwd = "") ∧ t = { d with pages := d.pages.set page { p with asking := false } } ∨
          ∃ pwd, answer = some pwd ∧ pwd ≠ "" ∧
            t = setText gtk page pwd { d with pages := d.pages.set page { p with asking := false } })
    | .timer page => ∃ p pair, d.pages[page]? = some p ∧ p.pending = some pair ∧
        t = { d with pages := d.pages.set page { p with pending := none }, storing := d.storing ++ [pair] }
    | .stored k ok => ∃ pair, d.storing[k]? = some pair ∧
        t = { d with
          storing := d.storing.eraseIdx k
          keyring := if ok then Function.update d.keyring pair.1 (some pair.2) else d.keyring }
    | .cleared k ok => ∃ name, d.clearing[k]? = some name ∧
        t = { d with
          clearing := d.clearing.eraseIdx k
          keyring := if ok then Function.update d.keyring name none else d.keyring }
    | .reset asked completed => t = applyReset gtk asked completed d
    | .restore asked completed user => t = applyRestore gtk asked completed user d := by
  cases a with
  | openPage | closePage | typeUsername text | typePassword pwd | reset asked completed
  | restore asked completed user =>
      simp only [step, onPage] at hs
      split_ifs at hs
      exact (Option.some.inj hs).symm
  | found page answer =>
      simp only [step] at hs
      split at hs
      · next p hp =>
          split_ifs at hs
          refine ⟨p, hp, ?_⟩
          cases answer with
          | none => exact .inl ⟨(fun _ h => by cases h), (Option.some.inj hs).symm⟩
          | some pwd =>
              dsimp only at hs
              split_ifs at hs with hpwd
              · exact .inl ⟨fun _ h => Option.some.inj h ▸ hpwd, (Option.some.inj hs).symm⟩
              · exact .inr ⟨pwd, rfl, hpwd, (Option.some.inj hs).symm⟩
      · cases hs
  | timer page =>
      simp only [step] at hs
      split at hs
      · next p hp =>
          obtain ⟨pair, hpair, rfl⟩ := Option.map_eq_some_iff.mp hs
          exact ⟨p, pair, hp, hpair, rfl⟩
      · cases hs
  | stored k ok | cleared k ok =>
      obtain ⟨x, hk, rfl⟩ := Option.map_eq_some_iff.mp hs
      exact ⟨x, hk, rfl⟩

theorem scheduled_step {a : Action} (h : Scheduled d) (hs : step gtk d a = some t) : Scheduled t := by
  replace hs := step_cases hs
  cases a with
  | openPage =>
      obtain rfl : t = _ := hs
      intro p hp hempty
      rcases List.mem_cons.mp hp with rfl | hp
      · rfl
      · exact h p hp hempty
  | closePage | typeUsername text =>
      obtain rfl : t = _ := hs
      exact h
  | typePassword pwd =>
      obtain rfl : t = _ := hs
      rw [typePassword]
      split <;> exact h.processPassword 0 pwd
  | found page answer =>
      obtain ⟨p, hp, hfound⟩ := hs
      have hasked : Scheduled { d with pages := d.pages.set page { p with asking := false } } :=
        h.set hp rfl fun hpending => hpending
      obtain ⟨-, rfl⟩ | ⟨pwd, -, -, rfl⟩ := hfound
      · exact hasked
      · exact hasked.setText gtk page pwd
  | timer page =>
      obtain ⟨p, pair, hp, -, rfl⟩ := hs
      exact h.set hp rfl fun _ => rfl
  | stored k ok | cleared k ok =>
      obtain ⟨x, -, rfl⟩ := hs
      exact h
  | reset asked completed =>
      obtain rfl : t = _ := hs
      have hcleared : Scheduled { clearPersistedPassword asked d with user := none, session := none } := by
        rw [Scheduled, pages_clearPersistedPassword]
        exact h
      rw [applyReset]
      dsimp only
      split_ifs
      · exact hcleared.setText gtk 0 ""
      · exact hcleared
  | restore asked completed user =>
      obtain rfl : t = _ := hs
      have hcleared : Scheduled { clearPersistedPassword asked d with user } := by
        rw [Scheduled, pages_clearPersistedPassword]
        exact h
      rw [applyRestore]
      dsimp only
      split_ifs
      · exact Scheduled.setText (d := { clearPersistedPassword asked d with user, session := none }) hcleared gtk 0 ""
      · exact hcleared

theorem Forgotten.mono (h : Forgotten d user) (hsession : ∀ pwd, t.session ≠ some (user, pwd))
    (hpending : ∀ p ∈ t.pages, ∀ pwd, p.pending = some (user, pwd) → ∃ q ∈ d.pages, q.pending = some (user, pwd))
    (hstoring : ∀ pwd, (user, pwd) ∈ t.storing → (user, pwd) ∈ d.storing)
    (hkept : t.keyring user ≠ none → d.keyring user ≠ none ∧ (user ∈ d.clearing → user ∈ t.clearing)) :
    Forgotten t user where
  session := hsession
  pending p hp pwd hpair := by
    obtain ⟨q, hq, hpair⟩ := hpending p hp pwd hpair
    exact h.pending q hq pwd hpair
  storing pwd hmem := h.storing pwd (hstoring pwd hmem)
  kept hne := (hkept hne).2 (h.kept (hkept hne).1)

theorem Forgotten.processPassword (h : Forgotten d user) {pwd : String}
    (hne : ∀ other, entered d pwd ≠ some (user, other)) (page : Nat) :
    Forgotten (processPassword page pwd d) user := by
  refine h.mono hne (fun p hp other hpair => ?_) (fun _ hmem => hmem) fun hkept => ⟨hkept, fun hmem => hmem⟩
  rcases mem_modify hp with hp | ⟨q, -, rfl⟩
  · exact ⟨p, hp, hpair⟩
  · exact absurd hpair (hne other)

theorem Clean.typePassword (h : Clean d) (pwd : String) : Clean (typePassword pwd d) := by
  intro user hmem
  rw [ForgottenPasswords.typePassword] at hmem ⊢
  cases hentered : entered d pwd with
  | none =>
      rw [hentered] at hmem
      refine (h user hmem).processPassword (fun other he => ?_) 0
      rw [hentered] at he
      cases he
  | some pair =>
      rw [hentered] at hmem
      obtain ⟨hmem, hne⟩ := List.mem_filter.mp hmem
      obtain ⟨session, pending, storing, kept⟩ := (h user hmem).processPassword (fun other he => by
        rw [hentered] at he
        cases he
        exact of_decide_eq_true hne rfl) 0
      exact ⟨session, pending, storing, kept⟩

structure Spared (asked : Bool) (pages : List Page) (d t : Desk) : Prop where
  forgotten : t.forgotten = (clearPersistedPassword asked d).forgotten
  clearing : t.clearing = (clearPersistedPassword asked d).clearing
  storing : t.storing = d.storing
  keyring : t.keyring = d.keyring
  pending : ∀ pair, (∃ p ∈ t.pages, p.pending = some pair) ↔ ∃ p ∈ pages, p.pending = some pair
  old : ∀ p ∈ pages, p ∈ d.pages
  session : t.session = none ∨ t.session = d.session

variable {asked : Bool} {pages : List Page}

theorem Spared.mono (hs : Spared asked pages d t) (h : Forgotten d user) : Forgotten t user := by
  refine h.mono (fun pwd he => ?_) (fun p hp pwd hpair => ?_) (fun pwd hmem => hs.storing ▸ hmem) fun hkept => ?_
  · rcases hs.session with hnone | hsame
    · rw [hnone] at he
      cases he
    · exact h.session pwd (hsame.symm.trans he)
  · obtain ⟨q, hq, hpair⟩ := (hs.pending _).mp ⟨p, hp, hpair⟩
    exact ⟨q, hs.old q hq, hpair⟩
  · refine ⟨hs.keyring ▸ hkept, fun hmem => ?_⟩
    rw [hs.clearing, clearPersistedPassword]
    split
    · dsimp only
      split_ifs
      · exact List.mem_append_left _ hmem
      · exact hmem
    · exact hmem

theorem Spared.forgotten_iff (hs : Spared asked pages d t) (huser : d.user = some user) :
    Forgotten t user ↔ Erasable d asked pages user ∧ ∀ pwd, t.session ≠ some (user, pwd) := by
  have hclearing : t.clearing = if asked then d.clearing ++ [user] else d.clearing := by
    rw [hs.clearing, clearPersistedPassword, huser]
  constructor
  · rintro ⟨hsession, hpending, hstoring, hkept⟩
    refine ⟨⟨?_, fun pwd hmem => hstoring pwd (hs.storing ▸ hmem), fun p hp pwd hpair => ?_⟩, hsession⟩
    · cases asked with
      | true => exact .inl rfl
      | false =>
          refine .inr (or_iff_not_imp_left.mpr fun hne => ?_)
          rw [hs.keyring, hclearing] at hkept
          exact hkept hne
    · obtain ⟨q, hq, hpair⟩ := (hs.pending _).mpr ⟨p, hp, hpair⟩
      exact hpending q hq pwd hpair
  · rintro ⟨⟨hasked, hstoring, hpending⟩, hsession⟩
    refine ⟨hsession, fun p hp pwd hpair => ?_, fun pwd hmem => hstoring pwd (hs.storing ▸ hmem), fun hne => ?_⟩
    · obtain ⟨q, hq, hpair⟩ := (hs.pending _).mp ⟨p, hp, hpair⟩
      exact hpending q hq pwd hpair
    · rw [hclearing]
      rw [hs.keyring] at hne
      rcases hasked with rfl | hnone | hmem
      · exact List.mem_append_right _ (List.mem_singleton_self user)
      · exact absurd hnone hne
      · split_ifs
        · exact List.mem_append_left _ hmem
        · exact hmem

section SettingsWindow

open ResetBackup (State Env Moment createResetBackup createResetBackup_ok)
open ResetRestore (Toolkit SameReads)

variable {C : Type} {env : Env C} {toolkit : Toolkit} {st next : State C}

def userOf (st : State C) : Option String :=
  let user := ResetRestore.textOf (getSetting st.settings .authUser)
  if user = "" then none else some user

/-- The user name and the session password are those of the settings and the process. -/
structure Follows (st : State C) (d : Desk) : Prop where
  user : d.user = userOf st
  session : d.session.map Prod.snd = st.session

structure Silent (a b : State C) : Prop where
  session : a.session = b.session
  cleared : a.cleared = b.cleared

theorem Silent.foldl {α : Type} {f : State C → α → State C} (hf : ∀ st a, Silent (f st a) st) (as : List α)
    (st : State C) : Silent (as.foldl f st) st := by
  induction as generalizing st with
  | nil => exact ⟨rfl, rfl⟩
  | cons a as ih => exact ⟨(ih _).session.trans (hf st a).session, (ih _).cleared.trans (hf st a).cleared⟩

theorem Silent.trans {a b c : State C} (h : Silent a b) (hb : Silent b c) : Silent a c :=
  ⟨h.session.trans hb.session, h.cleared.trans hb.cleared⟩

theorem silent_assign (key : Key) (value : Value) (st : State C) : Silent (ResetRestore.assign env key value st) st := by
  rw [ResetRestore.assign]
  split <;> exact ⟨rfl, rfl⟩

theorem silent_setText {entry : ResetRestore.Entry} (he : entry ≠ .password) (text : String) (st : State C) :
    Silent (ResetRestore.setText env toolkit entry text st) st := by
  refine Silent.foldl (fun st text => ?_) _ st
  cases entry with
  | configSource | username => exact silent_assign _ _ st
  | password => exact absurd rfl he

theorem silent_setState (key : Key) (state : Bool) (st : State C) :
    Silent (ResetRestore.setState env toolkit key state st) st := by
  rw [ResetRestore.setState]
  split
  · exact silent_assign _ _ st
  · exact ⟨rfl, rfl⟩

theorem silent_blankPassword (h : st.session = none) :
    Silent (ResetRestore.setText env toolkit .password "" st) st := by
  rw [ResetRestore.setText]
  have hlast := toolkit.seen_last .password ""
  generalize toolkit.seen .password "" = texts at hlast
  have hcleared : ∀ (texts : List String) (st : State C),
      (texts.foldl (fun st text => ResetRestore.handler env .password text st) st).cleared = st.cleared := by
    intro texts
    induction texts with
    | nil => exact fun _ => rfl
    | cons text texts ih =>
        intro st
        rw [List.foldl_cons, ih, ResetRestore.handler, ResetRestore.processPassword]
        split <;> rfl
  refine ⟨?_, hcleared texts st⟩
  rcases List.eq_nil_or_concat texts with rfl | ⟨texts, last, rfl⟩
  · rfl
  · obtain rfl := hlast last (by simp)
    rw [List.concat_eq_append, List.foldl_append, List.foldl_cons, List.foldl_nil, ResetRestore.handler,
      ResetRestore.processPassword, if_neg fun hne => hne.1 rfl, h]

theorem silent_filled (h : st.session = none) (source user : String) :
    Silent (ResetRestore.setText env toolkit .password "" (ResetRestore.setText env toolkit .username user
      (ResetRestore.setText env toolkit .configSource source st))) st :=
  have hentries := (silent_setText (by decide) user _).trans (silent_setText (by decide) source st)
  (silent_blankPassword (hentries.session.trans h)).trans hentries

variable (env toolkit) in
theorem silent_blankControls (h : st.session = none) : Silent (ResetRestore.blankControls env toolkit st) st :=
  (Silent.foldl (fun st key => silent_setState key false st) ResetRestore.switches _).trans (silent_filled h "" "")

variable (env toolkit) in
theorem silent_refreshControls (h : st.session = none) : Silent (ResetRestore.refreshControls env toolkit st) st :=
  (Silent.foldl (fun st key => silent_setState key (ResetRestore.truthy (getSetting st.settings key)) st)
    ResetRestore.switches _).trans (silent_filled h _ _)

theorem userOf_blankControls (hd : ∀ key, getValue st.settings key = key.default) :
    userOf (ResetRestore.blankControls env toolkit st) = none := by
  have hempty : ∀ key, key.default = .string "" → ResetRestore.textOf (getSetting st.settings key) = "" := by
    intro key hkey
    rw [getSetting, hd, hkey]
    rfl
  have hsource : SameReads (ResetRestore.setText env toolkit .configSource
      (ResetRestore.textOf (getSetting st.settings .remote)) st) st := ResetRestore.setText_reads rfl fun _ _ => rfl
  rw [hempty .remote rfl] at hsource
  have huser : SameReads (ResetRestore.setText env toolkit .username (ResetRestore.textOf (getSetting
      (ResetRestore.setText env toolkit .configSource "" st).settings .authUser))
      (ResetRestore.setText env toolkit .configSource "" st)) (ResetRestore.setText env toolkit .configSource "" st) :=
    ResetRestore.setText_reads rfl fun _ _ => rfl
  rw [hsource .authUser, hempty .authUser rfl] at huser
  have hswitches : ∀ (keys : List Key) (st : State C), Key.authUser ∉ keys →
      getSetting (keys.foldl (fun st key => ResetRestore.setState env toolkit key false st) st).settings .authUser =
        getSetting st.settings .authUser := by
    intro keys
    induction keys with
    | nil => exact fun _ _ => rfl
    | cons key keys ih =>
        intro st hkeys
        obtain ⟨hne, hkeys⟩ := not_or.mp (mt List.mem_cons.mpr hkeys)
        rw [List.foldl_cons, ih _ hkeys, ResetRestore.setState]
        split
        · exact ResetRestore.assign_frame _ _ hne
        · rfl
  have hread : getSetting (ResetRestore.blankControls env toolkit st).settings .authUser =
      getSetting st.settings .authUser := by
    rw [ResetRestore.blankControls]
    exact (hswitches ResetRestore.switches _ (by decide)).trans
      ((ResetRestore.setText_password "" _ .authUser).trans ((huser .authUser).trans (hsource .authUser)))
  simp only [userOf, hread, hempty .authUser rfl, if_true]

theorem cleared_clearPersistedPassword (st other : State C) :
    (ResetRestore.clearPersistedPassword (getSetting st.settings .authUser) other).cleared =
      other.cleared ++ (userOf st).toList := by
  have htruthy : ResetRestore.truthy (getSetting st.settings .authUser) = true ↔
      ResetRestore.textOf (getSetting st.settings .authUser) ≠ "" := by
    have htype := getValue_type st.settings .authUser
    cases hv : getValue st.settings .authUser with
    | boolean | int32 | double | strv => rw [hv] at htype; cases htype
    | string text =>
        have hread : getSetting st.settings .authUser = (readString text).elim .none .str := by rw [getSetting, hv]
        rw [hread]
        cases readString text <;> simp [ResetRestore.truthy, ResetRestore.textOf]
  rw [ResetRestore.clearPersistedPassword, userOf]
  by_cases h : ResetRestore.textOf (getSetting st.settings .authUser) = ""
  · rw [if_neg (fun ht => htruthy.mp ht h), if_pos h]
    exact (List.append_nil _).symm
  · rw [if_pos (htruthy.mpr h), if_neg h]
    rfl

theorem session_clearPersisted (value : Settings.Value) (st : State C) :
    (ResetRestore.clearPersistedPassword value st).session = st.session := by
  rw [ResetRestore.clearPersistedPassword]
  split <;> rfl

variable (env) in
theorem resetPaths_eq (st : State C) : ∃ configs, ResetRestore.resetPaths env st = .ok () { st with configs } ∨
    ∃ details, ResetRestore.resetPaths env st = .error details st := by
  rw [ResetRestore.resetPaths]
  split
  · exact ⟨none, .inr ⟨_, rfl⟩⟩
  · exact ⟨none, .inr ⟨_, rfl⟩⟩
  · split
    · exact ⟨st.configs, .inl rfl⟩
    · exact ⟨none, .inr ⟨_, rfl⟩⟩
  · exact ⟨_, .inl rfl⟩
  · exact ⟨_, .inl rfl⟩

variable (env) in
theorem restoreConfigs_eq (source : Option (FileTrees.Node C)) (st : State C) :
    ∃ next, (ResetRestore.restoreConfigs env source st = .ok () next ∨
      ∃ details, ResetRestore.restoreConfigs env source st = .error details next) ∧ Silent next st := by
  rw [ResetRestore.restoreConfigs]
  obtain ⟨configs, hp | ⟨details, hp⟩⟩ := resetPaths_eq env st
  · rw [hp]
    dsimp only
    split
    · split_ifs
      · exact ⟨_, .inl rfl, rfl, rfl⟩
      · exact ⟨_, .inr ⟨_, rfl⟩, rfl, rfl⟩
    · exact ⟨_, .inl rfl, rfl, rfl⟩
  · rw [hp]
    exact ⟨st, .inr ⟨details, rfl⟩, rfl, rfl⟩

variable (env) in
/-- What is restored stops before the removal, or after it, or has emptied the session. -/
theorem restoreBackup_cases (backup : String) (st other : State C) :
    match ResetRestore.restoreBackup env backup (getSetting st.settings .authUser) other with
    | .ok _ next => next.cleared = other.cleared ++ (userOf st).toList ∧ next.session = none
    | .error _ next => next = other ∨
        next.cleared = other.cleared ++ (userOf st).toList ∧ next.session = other.session := by
  have hcleared := cleared_clearPersistedPassword st other
  have hsession := session_clearPersisted (getSetting st.settings .authUser) other
  rw [ResetRestore.restoreBackup]
  cases ResetBackup.loadResetManifest env other.items backup with
  | error details => exact .inl rfl
  | ok items =>
      dsimp only
      split_ifs
      · exact .inl rfl
      · generalize ResetRestore.clearPersistedPassword (getSetting st.settings .authUser) other = next at hcleared hsession
        obtain ⟨copied, hr | ⟨details, hr⟩, hcopied⟩ :=
          restoreConfigs_eq env (ResetRestore.savedConfigs other.items backup) next
        · rw [hr]
          dsimp only
          rw [ResetRestore.restoreSettings]
          cases setAll env.repr (resetAllSettings copied.settings) items with
          | ok u settings => exact ⟨hcopied.cleared.trans hcleared, rfl⟩
          | error details settings => exact .inr ⟨hcopied.cleared.trans hcleared, hcopied.session.trans hsession⟩
        · rw [hr]
          exact .inr ⟨hcopied.cleared.trans hcleared, hcopied.session.trans hsession⟩

variable {d : Desk}

theorem setText_none (gtk : Gtk) (page : Nat) (hsession : d.session = none) :
    (setText gtk page "" d).user = d.user ∧ (setText gtk page "" d).session = none := by
  rw [setText]
  split
  · rw [foldl_processPassword]
    cases hlast : (gtk.seen _ "").getLast? with
    | none => exact ⟨rfl, hsession⟩
    | some last =>
        obtain rfl := gtk.seen_last _ _ last hlast
        exact ⟨rfl, (if_pos rfl : entered d "" = none)⟩
  · exact ⟨rfl, hsession⟩

theorem follows_finished (gtk : Gtk) (completed : Bool) (hsession : d.session.map Prod.snd = st.session)
    (huser : d.user = userOf st) (hcompleted : completed = true → d.session = none) :
    Follows st (if completed then setText gtk 0 "" d else d) := by
  cases completed with
  | false => exact ⟨huser, hsession⟩
  | true =>
      obtain ⟨hu, hs⟩ := setText_none gtk 0 (hcompleted rfl)
      refine ⟨hu.trans huser, ?_⟩
      rw [if_pos rfl, hs, ← hsession, hcompleted rfl]

/-- What a reset of the settings window does to the passwords, once it gets to the removal. -/
theorem follows_applyReset (h : Follows st d) (gtk : Gtk) (moment : Moment) :
    match ResetRestore.applyReset env moment toolkit 1 st with
    | .ok (.completed _) next =>
        Follows next (applyReset gtk true true d) ∧ next.cleared = st.cleared ++ d.user.toList
    | .ok _ next => Follows next d ∧ next.cleared = st.cleared
    | .error _ next => Follows next (applyReset gtk true false d) ∧ next.cleared = st.cleared ++ d.user.toList := by
  rw [ResetRestore.applyReset, if_neg fun hne => hne rfl]
  cases hc : createResetBackup env moment (ResetRestore.snapshot st) st with
  | error details next =>
      obtain rfl := SettingsPage.createResetBackup_settings.1 hc
      exact ⟨h, rfl⟩
  | ok name next =>
      obtain ⟨entries, -, -, -, rfl⟩ := createResetBackup_ok hc
      dsimp only
      generalize hn : ResetRestore.clearPersistedPassword (getSetting st.settings .authUser)
        { st with items := st.items ++ [⟨name, moment.mtime, .dir entries⟩] } = next
      have hcleared : next.cleared = st.cleared ++ d.user.toList := by
        rw [← hn, h.user]
        exact cleared_clearPersistedPassword st _
      have hdefault : ∀ key, getValue (resetAllSettings next.settings) key = key.default :=
        BackupHistory.getValue_resetAll next.settings
      obtain ⟨configs, hp | ⟨details, hp⟩⟩ :=
        resetPaths_eq env { next with settings := resetAllSettings next.settings, session := none }
      · rw [hp]
        have hsilent := silent_blankControls env toolkit
          (rfl : { next with settings := resetAllSettings next.settings, session := none, configs }.session = none)
        exact ⟨follows_finished gtk true hsilent.session.symm (userOf_blankControls hdefault).symm fun _ => rfl,
          hsilent.cleared.trans hcleared⟩
      · rw [hp]
        refine ⟨⟨?_, rfl⟩, hcleared⟩
        simp only [applyReset, Bool.false_eq_true, if_false, userOf, getSetting, hdefault]
        rfl

/-- A restore that does not complete has removed nothing, or it breaks off after the removal. -/
theorem follows_applyRestore (h : Follows st d) (gtk : Gtk) (moment : Moment) (backup : String) :
    match ResetRestore.applyRestore env moment toolkit 1 backup st with
    | .ok (.completed _) next => Follows next (applyRestore gtk true true (userOf next) d) ∧
        next.cleared = st.cleared ++ d.user.toList
    | .ok _ next => Follows next d ∧ next.cleared = st.cleared ∨
        Follows next (applyRestore gtk true false (userOf next) d) ∧ next.cleared = st.cleared ++ d.user.toList
    | .error _ next => Follows next d ∧ next.cleared = st.cleared := by
  rw [ResetRestore.applyRestore, if_neg fun hne => hne rfl]
  cases hc : createResetBackup env moment (ResetRestore.snapshot st) st with
  | error details next =>
      obtain rfl := SettingsPage.createResetBackup_settings.1 hc
      exact ⟨h, rfl⟩
  | ok name next =>
      obtain ⟨entries, -, -, -, rfl⟩ := createResetBackup_ok hc
      have hr := restoreBackup_cases env backup st
        { st with items := st.items ++ [⟨name, moment.mtime, .dir entries⟩] }
      dsimp only
      cases hb : ResetRestore.restoreBackup env backup (getSetting st.settings .authUser)
          { st with items := st.items ++ [⟨name, moment.mtime, .dir entries⟩] } with
      | error details next =>
          rw [hb] at hr
          obtain rfl | ⟨hcleared, hsession⟩ := hr
          · exact .inl ⟨⟨h.user, h.session⟩, rfl⟩
          · rw [← h.user] at hcleared
            refine .inr ⟨⟨rfl, ?_⟩, hcleared⟩
            change (clearPersistedPassword true d).session.map Prod.snd = _
            rw [session_clearPersistedPassword, h.session, hsession]
      | ok u next =>
          rw [hb] at hr
          obtain ⟨hcleared, hsession⟩ := hr
          rw [← h.user] at hcleared
          have hsilent := silent_refreshControls env toolkit hsession
          refine ⟨follows_finished gtk true (hsilent.session.trans hsession).symm rfl fun _ => rfl,
            hsilent.cleared.trans hcleared⟩

end SettingsWindow

end EovpnPro.ForgottenPasswords
