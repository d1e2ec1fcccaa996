import EovpnPro.Runs
import EovpnPro.Settings

namespace EovpnPro.Credentials

open Runs Settings

inductive Lookup
  | answers
  | nothing
  | raises
  deriving DecidableEq, Repr

inductive Backend
  | networkManager
  | openVpn3
  deriving DecidableEq, Repr

/-- What a backend hands on, with what had last been typed for that user. -/
structure Supply where
  backend : Backend
  username : Option String
  password : Option String
  typed : Option String
  deriving DecidableEq, Repr

/-- The username setting, the session cache, the debounced write with the values
it captured, the writes under way, the keyring, the lookup of a page that opens,
and the user that the NetworkManager worker has read. For the statements: the
password edits, newest first, each for the username of its time; the pairs that
belong together, which are those of the edits and of the keyring at the start;
the pairs handed to the keyring; and what the backends handed on. -/
structure Page where
  authUser : String := ""
  session : Option String := none
  pending : Option (String × String) := none
  storing : List (String × String) := []
  keyring : List (String × String) := []
  opening : Option String := none
  reading : Option (Option String) := none
  edits : List (String × Option String) := []
  together : List (String × String) := []
  stored : List (String × String) := []
  supplied : List Supply := []

variable {s t : Page}

def username (s : Page) : Option String := readString s.authUser

def latest (s : Page) (user : String) : Option String := (s.edits.lookup user).join

def processUsername (s : Page) (text : String) : Page := { s with authUser := text }

/-- `process_password`, for the text that the entry then has. -/
def processPassword (s : Page) (pwd : String) : Page :=
  match username s with
  | some user =>
      if pwd = "" then { s with session := none, pending := none }
      else { s with session := some pwd, pending := some (user, pwd) }
  | none => { s with session := none, pending := none }

def typePassword (s : Page) (pwd : String) : Page :=
  let s' := processPassword s pwd
  match username s with
  | some user =>
      if pwd = "" then { s' with edits := (user, none) :: s.edits }
      else { s' with edits := (user, some pwd) :: s.edits, together := (user, pwd) :: s.together }
  | none => s'

def flushPassword (s : Page) : Page :=
  match s.pending with
  | some pair => { s with pending := none, storing := s.storing ++ [pair], stored := pair :: s.stored }
  | none => s

def store (keyring : List (String × String)) (pair : String × String) : List (String × String) :=
  pair :: keyring.filter (fun other => other.1 ≠ pair.1)

def lookUp (s : Page) (user : String) : Lookup → Option String
  | .answers => s.keyring.lookup user
  | .nothing => none
  | .raises => s.session

/-- `get_auth_password`, whose nothing is sent as an empty text, as an unset
username is. -/
def attention (s : Page) (answer : Lookup) : Supply where
  backend := .openVpn3
  username := some ((username s).getD "")
  password := some (((username s).bind fun user => lookUp s user answer).getD "")
  typed := (username s).bind (latest s)

def connectBlocking (s : Page) (user : Option String) (answer : Lookup) : Supply where
  backend := .networkManager
  username := user
  password := user.bind fun user => lookUp s user answer
  typed := user.bind (latest s)

inductive Action
  | typeUsername (text : String)
  | typePassword (text : String)
  | timer
  | stored (k : Nat) (ok : Bool)
  | openPage
  | pageLookup (answer : Lookup)
  | attention (answer : Lookup)
  | readUser
  | connectBlocking (answer : Lookup)

/-- The worker reads the username and asks the keyring in two steps, between which
the page goes on. The lookup of a page that opens fills the password entry. -/
def step (s : Page) : Action → Option Page
  | .typeUsername text => some (processUsername s text)
  | .typePassword text => some (typePassword s text)
  | .timer => if s.pending.isSome then some (flushPassword s) else none
  | .stored k ok =>
      (s.storing[k]?).map fun pair =>
        { s with
          storing := s.storing.eraseIdx k
          keyring := if ok then store s.keyring pair else s.keyring }
  | .openPage => some { s with opening := username s }
  | .pageLookup answer =>
      s.opening.map fun user =>
        let s' := { s with opening := none }
        match lookUp s user answer with
        | some pwd => if pwd = "" then s' else processPassword s' pwd
        | none => s'
  | .attention answer => some { s with supplied := attention s answer :: s.supplied }
  | .readUser => if s.reading.isNone then some { s with reading := some (username s) } else none
  | .connectBlocking answer =>
      s.reading.map fun user =>
        { s with reading := none, supplied := connectBlocking s user answer :: s.supplied }

/-- Passwords go only where they belong, and what was typed for the user is what
the backend hands on. -/
structure Right (s : Page) : Prop where
  stored : ∀ pair ∈ s.stored, pair ∈ s.together
  own : ∀ d ∈ s.supplied, ∀ user ∈ d.username, ∀ pwd ∈ d.password, pwd ≠ "" → (user, pwd) ∈ s.together
  typed : ∀ d ∈ s.supplied, ∀ pwd ∈ d.typed, d.password = some pwd

/-- What is last typed for the user is in the keyring when that answers, and in the
cache when the lookup raises; nothing has been typed for him when it finds nothing.
The cache then holds nothing that was typed for others only. -/
def Kept (s : Page) (user : String) : Lookup → Prop
  | .answers => ∀ pwd ∈ latest s user, s.keyring.lookup user = some pwd
  | .nothing => latest s user = none
  | .raises => (∀ pwd ∈ latest s user, s.session = some pwd) ∧ ∀ pwd ∈ s.session, (user, pwd) ∈ s.together

/-- The condition of one step: a connection finds what was typed where it looks,
and the write is not of a password that the page filled in for another user. -/
def Ready (s : Page) : Action → Prop
  | .timer => ∀ pair ∈ s.pending, pair ∈ s.together
  | .attention answer => ∀ user ∈ username s, Kept s user answer
  | .connectBlocking answer => ∀ name ∈ s.reading, ∀ user ∈ name, Kept s user answer
  | _ => True

/-- What is kept under the surface: only pairs that belong together are on their
way to the keyring or in it, and no empty password is ever held. -/
structure Held (s : Page) : Prop where
  keyring : ∀ pair ∈ s.keyring, pair ∈ s.together
  storing : ∀ pair ∈ s.storing, pair ∈ s.together
  edits : ∀ user pwd, (user, some pwd) ∈ s.edits → (user, pwd) ∈ s.together ∧ pwd ≠ ""
  session : s.session ≠ some ""

theorem mem_of_lookup {β : Type} {user : String} {v : β} {pairs : List (String × β)}
    (h : pairs.lookup user = some v) : (user, v) ∈ pairs := by
  obtain ⟨before, after, rfl, -⟩ := List.lookup_eq_some_iff.mp h
  exact List.mem_append_right before List.mem_cons_self

theorem Held.latest (h : Held s) {user pwd : String} (hl : latest s user = some pwd) :
    (user, pwd) ∈ s.together ∧ pwd ≠ "" := by
  obtain ⟨v, hv, hp⟩ := Option.bind_eq_some_iff.mp hl
  exact h.edits user pwd (mem_of_lookup (hv.trans (congrArg some hp)))

theorem Held.of_password (h : Held s) (pwd : String) : Held (processPassword s pwd) := by
  simp only [processPassword]
  split
  · split_ifs with hp
    · exact ⟨h.keyring, h.storing, h.edits, by simp⟩
    · exact ⟨h.keyring, h.storing, h.edits, by simpa using hp⟩
  · exact ⟨h.keyring, h.storing, h.edits, by simp⟩

theorem kept_iff (h : Held s) (user : String) (answer : Lookup) :
    Kept s user answer ↔
      (∀ pwd ∈ lookUp s user answer, pwd ≠ "" → (user, pwd) ∈ s.together) ∧
        ∀ pwd ∈ latest s user, lookUp s user answer = some pwd := by
  cases answer with
  | answers =>
      refine ⟨fun hk => ⟨fun pwd hp _ => h.keyring _ (mem_of_lookup hp), hk⟩, fun hk => hk.2⟩
  | nothing =>
      constructor
      · intro hk
        refine ⟨fun _ hp => (by cases hp), fun pwd hp => ?_⟩
        rw [show latest s user = none from hk] at hp
        cases hp
      · intro hk
        refine Option.eq_none_iff_forall_ne_some.mpr fun pwd hp => ?_
        cases hk.2 pwd hp
  | raises =>
      refine ⟨fun hk => ⟨fun pwd hp _ => hk.2 pwd hp, hk.1⟩, fun hk => ⟨hk.2, fun pwd hp => hk.1 pwd hp ?_⟩⟩
      rintro rfl
      exact h.session hp

theorem right_supply (h : Right s) (d : Supply) :
    Right { s with supplied := d :: s.supplied } ↔
      (∀ user ∈ d.username, ∀ pwd ∈ d.password, pwd ≠ "" → (user, pwd) ∈ s.together) ∧
        ∀ pwd ∈ d.typed, d.password = some pwd := by
  constructor
  · intro hr
    exact ⟨hr.own d List.mem_cons_self, hr.typed d List.mem_cons_self⟩
  · rintro ⟨hown, htyped⟩
    refine ⟨h.stored, fun d' hd => ?_, fun d' hd => ?_⟩
    · rcases List.mem_cons.mp hd with rfl | hd
      · exact hown
      · exact h.own d' hd
    · rcases List.mem_cons.mp hd with rfl | hd
      · exact htyped
      · exact h.typed d' hd

theorem right_attention_iff (hh : Held s) (h : Right s) (answer : Lookup) :
    Right { s with supplied := attention s answer :: s.supplied } ↔ Ready s (.attention answer) := by
  rw [right_supply h]
  simp only [attention, Ready]
  cases hu : username s with
  | none =>
      refine iff_of_true ⟨fun user _ pwd hp hne => ?_, fun _ hp => by cases hp⟩ fun _ hp => by cases hp
      obtain rfl := Option.some.inj hp
      exact absurd rfl hne
  | some user =>
      simp only [Option.mem_some_iff, forall_eq', Option.getD_some, Option.bind_some, Option.some.injEq]
      rw [kept_iff hh]
      constructor
      · rintro ⟨hown, htyped⟩
        refine ⟨fun pwd hp hne => ?_, fun pwd hp => ?_⟩
        · rw [show lookUp s user answer = some pwd from hp] at hown
          exact hown hne
        · have ht := htyped pwd hp
          cases hl : lookUp s user answer with
          | none =>
              rw [hl] at ht
              exact absurd ht.symm (hh.latest hp).2
          | some other =>
              rw [hl] at ht
              exact congrArg some ht
      · rintro ⟨hown, htyped⟩
        refine ⟨fun hne => ?_, fun pwd hp => by rw [htyped pwd hp]; rfl⟩
        cases hl : lookUp s user answer with
        | none =>
            rw [hl] at hne
            exact absurd rfl hne
        | some pwd =>
            rw [hl] at hne
            exact hown pwd hl hne

theorem right_connectBlocking_iff (hh : Held s) (h : Right s) {name : Option String}
    (hr : s.reading = some name) (answer : Lookup) :
    Right { s with reading := none, supplied := connectBlocking s name answer :: s.supplied } ↔
      Ready s (.connectBlocking answer) := by
  have hs : Right { s with reading := none } := ⟨h.stored, h.own, h.typed⟩
  apply (right_supply hs (connectBlocking s name answer)).trans
  simp only [connectBlocking, Ready, hr, Option.mem_some_iff, forall_eq']
  cases name with
  | none => exact iff_of_true ⟨fun _ hu => (by cases hu), fun _ hp => by cases hp⟩ fun _ hu => by cases hu
  | some user =>
      simp only [Option.mem_some_iff, forall_eq', Option.bind_some]
      exact (kept_iff hh user answer).symm

theorem Right.of_view (h : Right s) (hs : t.stored = s.stored) (hd : t.supplied = s.supplied)
    (ht : ∀ pair ∈ s.together, pair ∈ t.together) : Right t := by
  refine ⟨?_, ?_, ?_⟩
  · rw [hs]
    exact fun pair hp => ht pair (h.stored pair hp)
  · rw [hd]
    exact fun d hm user hu pwd hp hne => ht _ (h.own d hm user hu pwd hp hne)
  · rw [hd]
    exact h.typed

theorem Right.of_password (h : Right s) (pwd : String) : Right (processPassword s pwd) := by
  simp only [processPassword]
  split
  · split_ifs <;> exact h.of_view rfl rfl fun _ hp => hp
  · exact h.of_view rfl rfl fun _ hp => hp

theorem Held.of_type (h : Held s) (pwd : String) : Held (typePassword s pwd) := by
  have hp := h.of_password pwd
  have ht : (processPassword s pwd).together = s.together := by
    simp only [processPassword]
    split
    · split_ifs <;> rfl
    · rfl
  simp only [typePassword]
  split
  · rename_i user _
    split_ifs with hne
    · refine ⟨hp.keyring, hp.storing, fun name other hm => ?_, hp.session⟩
      rcases List.mem_cons.mp hm with hm | hm
      · cases hm
      · exact ht ▸ h.edits name other hm
    · refine ⟨fun pair hm => List.mem_cons_of_mem _ (ht ▸ hp.keyring pair hm),
        fun pair hm => List.mem_cons_of_mem _ (ht ▸ hp.storing pair hm), fun name other hm => ?_,
          hp.session⟩
      rcases List.mem_cons.mp hm with hm | hm
      · obtain ⟨rfl, ho⟩ := Prod.mk.inj hm
        obtain rfl := Option.some.inj ho
        exact ⟨List.mem_cons_self, hne⟩
      · exact ⟨List.mem_cons_of_mem _ (h.edits name other hm).1, (h.edits name other hm).2⟩
  · exact hp

theorem Right.of_type (h : Right s) (pwd : String) : Right (typePassword s pwd) := by
  have hv : (processPassword s pwd).stored = s.stored ∧ (processPassword s pwd).supplied = s.supplied := by
    simp only [processPassword]
    split
    · split_ifs <;> exact ⟨rfl, rfl⟩
    · exact ⟨rfl, rfl⟩
  simp only [typePassword]
  split
  · split_ifs
    · exact (h.of_password pwd).of_view rfl rfl fun _ hp => hp
    · exact h.of_view hv.1 hv.2 fun _ hp => List.mem_cons_of_mem _ hp
  · exact h.of_password pwd

theorem Held.stored (h : Held s) {pair : String × String} {k : Nat}
    (hk : s.storing[k]? = some pair) (ok : Bool) : Held { s with
      storing := s.storing.eraseIdx k
      keyring := if ok then store s.keyring pair else s.keyring } := by
  refine ⟨fun other hm => ?_, fun other hm => h.storing other (List.mem_of_mem_eraseIdx hm), h.edits,
    h.session⟩
  cases ok with
  | false => exact h.keyring other hm
  | true =>
      rcases List.mem_cons.mp hm with rfl | hm
      · exact h.storing other (List.mem_of_getElem? hk)
      · exact h.keyring other (List.mem_of_mem_filter hm)

theorem timer_iff {pair : String × String} (hh : Held s) (h : Right s) (hp : s.pending = some pair) :
    (Right (flushPassword s) ↔ pair ∈ s.together) ∧ (pair ∈ s.together → Held (flushPassword s)) := by
  simp only [flushPassword, hp]
  refine ⟨⟨fun hr => hr.stored pair List.mem_cons_self, fun hm => ⟨fun other ho => ?_, h.own, h.typed⟩⟩,
    fun hm => ⟨hh.keyring, fun other ho => ?_, hh.edits, hh.session⟩⟩
  · rcases List.mem_cons.mp ho with rfl | ho
    · exact hm
    · exact h.stored other ho
  · rcases List.mem_append.mp ho with ho | ho
    · exact hh.storing other ho
    · exact List.mem_singleton.mp ho ▸ hm

theorem step_iff {action : Action} (hh : Held s) (h : Right s) (ht : step s action = some t) :
    (Ready s action → Held t) ∧ (Right t ↔ Ready s action) := by
  cases action with
  | typeUsername text =>
      obtain rfl := Option.some.inj ht
      exact ⟨fun _ => ⟨hh.keyring, hh.storing, hh.edits, hh.session⟩,
        iff_of_true (h.of_view rfl rfl fun _ hp => hp) trivial⟩
  | typePassword text =>
      obtain rfl := Option.some.inj ht
      exact ⟨fun _ => hh.of_type text, iff_of_true (h.of_type text) trivial⟩
  | timer =>
      simp only [step] at ht
      split_ifs at ht with hsome
      obtain ⟨pair, hp⟩ := Option.isSome_iff_exists.mp hsome
      obtain rfl := Option.some.inj ht
      obtain ⟨hiff, hheld⟩ := timer_iff hh h hp
      simp only [Ready, hp, Option.mem_some_iff, forall_eq']
      exact ⟨hheld, hiff⟩
  | stored k ok =>
      obtain ⟨pair, hk, rfl⟩ := Option.map_eq_some_iff.mp ht
      exact ⟨fun _ => hh.stored hk ok, iff_of_true (h.of_view rfl rfl fun _ hp => hp) trivial⟩
  | openPage =>
      obtain rfl := Option.some.inj ht
      exact ⟨fun _ => ⟨hh.keyring, hh.storing, hh.edits, hh.session⟩,
        iff_of_true (h.of_view rfl rfl fun _ hp => hp) trivial⟩
  | pageLookup answer =>
      obtain ⟨user, -, rfl⟩ := Option.map_eq_some_iff.mp ht
      have hh' : Held { s with opening := none } := ⟨hh.keyring, hh.storing, hh.edits, hh.session⟩
      have h' : Right { s with opening := none } := h.of_view rfl rfl fun _ hp => hp
      split
      · rename_i pwd _
        split_ifs
        · exact ⟨fun _ => hh', iff_of_true h' trivial⟩
        · exact ⟨fun _ => hh'.of_password pwd, iff_of_true (h'.of_password pwd) trivial⟩
      · exact ⟨fun _ => hh', iff_of_true h' trivial⟩
  | attention answer =>
      obtain rfl := Option.some.inj ht
      exact ⟨fun _ => ⟨hh.keyring, hh.storing, hh.edits, hh.session⟩, right_attention_iff hh h answer⟩
  | readUser =>
      simp only [step] at ht
      split_ifs at ht
      obtain rfl := Option.some.inj ht
      exact ⟨fun _ => ⟨hh.keyring, hh.storing, hh.edits, hh.session⟩,
        iff_of_true (h.of_view rfl rfl fun _ hp => hp) trivial⟩
  | connectBlocking answer =>
      obtain ⟨name, hn, rfl⟩ := Option.map_eq_some_iff.mp ht
      exact ⟨fun _ => ⟨hh.keyring, hh.storing, hh.edits, hh.session⟩,
        right_connectBlocking_iff hh h hn answer⟩

def opened (authUser : String) (keyring : List (String × String)) : Page :=
  { authUser, keyring, together := keyring }

theorem right_password_iff (authUser : String) (keyring : List (String × String)) (actions : List Action) :
    AllStates step Right (opened authUser keyring) actions ↔
      AllSteps step Ready (opened authUser keyring) actions := by
  refine allStates_iff_allSteps (I := fun s => Held s ∧ Right s) (fun _ h => h.2) ?_ ?_ actions ?_
  · intro s action t h ht hg
    obtain ⟨hheld, hiff⟩ := step_iff h.1 h.2 ht
    exact ⟨hheld hg, hiff.mpr hg⟩
  · intro s action t h ht hr
    exact (step_iff h.1 h.2 ht).2.mp hr
  · refine ⟨⟨fun _ hp => hp, ?_, ?_, ?_⟩, ?_, ?_, ?_⟩ <;> simp [opened]

/-- A user types both fields and connects before the write, over an empty keyring. -/
def connectAtOnce : List Action := [.typeUsername "alice", .typePassword "secret", .attention .answers]

theorem connectAtOnce_supplied :
    (run step (opened "" []) connectAtOnce).map Page.supplied =
      some [⟨.openVpn3, some "alice", some "", some "secret"⟩] := by
  decide

theorem typed_password_left_out :
    ¬ ∀ (authUser : String) (keyring : List (String × String)) (actions : List Action),
      AllStates step Right (opened authUser keyring) actions := by
  intro h
  obtain ⟨s, hs, hd⟩ := Option.map_eq_some_iff.mp connectAtOnce_supplied
  have ht := ((h "" [] connectAtOnce).last hs).typed _ (hd ▸ List.mem_cons_self) "secret" rfl
  exact absurd ht (by decide)

end EovpnPro.Credentials
