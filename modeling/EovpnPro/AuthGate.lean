import EovpnPro.AuditSpelling
import EovpnPro.Runs
import EovpnPro.Settings

namespace EovpnPro.AuthGate

open AuditSpelling OvpnSyntax PyText Runs Settings

def asks (raw : List Char) : Bool :=
  let stripped := strip raw
  if stripped.head? = some '#' ∨ stripped.head? = some ';' ∨ stripped = [] then false
  else occursIn authUserPass stripped

/-- `ovpn_is_auth_required`, of a file given by its decoded text. One that cannot be read
is logged, and requires nothing. -/
def ovpnIsAuthRequired : Option (List Char) → Bool
  | none => false
  | some text => (lines (universalNewlines text)).any asks

def Requires (content : List Symbol) : Prop :=
  ∃ line ∈ fileLines content, ∃ first arguments,
    parameters escapable line.2 = some (first :: arguments) ∧ bypassDoubledash first = symbols authUserPass

theorem asks_of_word {q : List Char} (hq : '#' ∉ q ∧ ';' ∉ q) (r : List Char) :
    asks (q ++ (authUserPass.toList ++ r)) = true := by
  have hletters : ∀ c ∈ authUserPass.toList, isSpace c = false := by simp [authUserPass, isSpace]
  obtain ⟨q', r', hstrip, hsuffix⟩ := strip_word hletters (by decide) q r
  have hhead : ∀ c ∈ (q' ++ (authUserPass.toList ++ r')).head?, c ≠ '#' ∧ c ≠ ';' := by
    intro c hc
    cases q' with
    | nil =>
        obtain rfl : 'a' = c := Option.some.inj hc
        decide
    | cons a q' =>
        obtain rfl : a = c := Option.some.inj hc
        have ha := hsuffix.subset List.mem_cons_self
        exact ⟨fun h => hq.1 (h ▸ ha), fun h => hq.2 (h ▸ ha)⟩
  have hinfix : authUserPass.toList <:+: q' ++ (authUserPass.toList ++ r') := ⟨q', r', by simp⟩
  rw [asks, hstrip, if_neg, occursIn, decide_eq_true_eq]
  · exact hinfix
  · rintro (h | h | h)
    · exact (hhead '#' h).1 rfl
    · exact (hhead ';' h).2 rfl
    · rw [h] at hinfix
      cases List.eq_nil_of_infix_nil hinfix

theorem eq_or_of_bypassDoubledash (word : List Symbol) :
    bypassDoubledash word = word ∨ word = symbols "--" ++ bypassDoubledash word := by
  unfold bypassDoubledash
  split
  · exact .inr rfl
  · exact .inl rfl

def isLead (x : Symbol) : Bool :=
  isBlank x || x = some '"' || x = some '\'' || x = some '\\' || x = some '-' || x = some '\uFEFF'

theorem not_mem_decode {lead : List Symbol} (h : ∀ x ∈ lead, isLead x = true) :
    '#' ∉ decode lead ∧ ';' ∉ decode lead := by
  have hnot {c : Char} (hc : isLead (some c) = false) : c ∉ decode lead := by
    intro hmem
    obtain ⟨x, hx, rfl⟩ := List.mem_filterMap.mp hmem
    rw [h _ hx] at hc
    cases hc
  exact ⟨hnot (by decide), hnot (by decide)⟩

theorem exists_of_reads {raw read first : List Symbol} {arguments : List (List Symbol)}
    (hraw : read = raw ∨ raw = some '\uFEFF' :: read) (hp : parameters escapable read = some (first :: arguments))
    (hfirst : bypassDoubledash first = symbols authUserPass) :
    ∃ lead after, raw = lead ++ (symbols authUserPass ++ after) ∧ ∀ x ∈ lead, isLead x = true := by
  have hword : ∃ dashes, first = dashes ++ symbols authUserPass ∧ (∀ x ∈ dashes, isLead x = true) ∧
      ∀ x ∈ first, escapable x = false := by
    rcases eq_or_of_bypassDoubledash first with h | h
    · rw [hfirst] at h
      exact ⟨[], h.symm, by simp, by rw [← h]; decide⟩
    · rw [hfirst] at h
      exact ⟨symbols "--", h, by decide, by rw [h]; decide⟩
  obtain ⟨dashes, hdashes, hlead, hplain⟩ := hword
  obtain ⟨before, after, hread, hbefore⟩ := exists_of_parameters hp hplain
  have hall : ∀ x ∈ before ++ dashes, isLead x = true := by
    intro x hx
    rcases List.mem_append.mp hx with hx | hx
    · rcases hbefore x hx with h | rfl | rfl | rfl
      · simp [isLead, h]
      · rfl
      · rfl
      · rfl
    · exact hlead x hx
  have hread : read = before ++ dashes ++ (symbols authUserPass ++ after) := by
    rw [hread, hdashes, List.append_assoc, List.append_assoc]
  rcases hraw with rfl | rfl
  · exact ⟨before ++ dashes, after, hread, hall⟩
  · refine ⟨some '\uFEFF' :: (before ++ dashes), after, ?_, List.forall_mem_cons.mpr ⟨rfl, hall⟩⟩
    rw [hread]
    rfl

theorem required_of_requires {content : List Symbol} (h : Requires content) :
    ovpnIsAuthRequired (some (decode content)) = true := by
  obtain ⟨⟨raw, read⟩, hl, first, arguments, hp, hfirst⟩ := h
  obtain ⟨lead, after, rfl, hlead⟩ := exists_of_reads (read_of_mem_fileLines hl) hp hfirst
  obtain ⟨before, rest, heq, hbefore, -⟩ := exists_of_mem_rawLines (exists_of_mem_fileLines hl)
  obtain rfl : content = before ++ (lead ++ (symbols authUserPass ++ after) ++ rest) := heq
  have hends : decode before = [] ∨ ∃ s, decode before = s ++ ['\n'] := by
    rcases hbefore with rfl | ⟨s, rfl⟩
    · exact .inl rfl
    · exact .inr ⟨decode s, decode_append s [some '\n']⟩
  have hread : decode (before ++ (lead ++ (symbols authUserPass ++ after) ++ rest)) =
      decode before ++ (decode lead ++ (authUserPass.toList ++ (decode after ++ decode rest))) := by
    simp only [decode_append, symbols, decode_map_some, List.append_assoc]
  have hword : ∀ c ∈ authUserPass.toList, c ≠ '\n' ∧ c ≠ '\r' := by simp [authUserPass]
  obtain ⟨q, r, hmem, hq⟩ :=
    exists_line hends hword (by decide) (decode lead) (decode after ++ decode rest)
  obtain ⟨hhash, hsemicolon⟩ := not_mem_decode hlead
  rw [ovpnIsAuthRequired, hread, List.any_eq_true]
  exact ⟨_, hmem, asks_of_word ⟨fun h => hhash (hq _ h), fun h => hsemicolon (hq _ h)⟩ r⟩

/-- The button that connects, with what it goes by. -/
structure Desk where
  settings : Store
  files : String → Option (List Symbol)
  selected : Option String
  sensitive : Bool
  tooltip : String

def reqAuth (settings : Store) : Bool :=
  match getSetting settings .reqAuth with
  | .bool required => required
  | _ => false

def noUser (settings : Store) : Bool :=
  match getSetting settings .authUser with
  | .none => true
  | _ => false

def lacksUser (d : Desk) : Bool :=
  match d.selected with
  | none => false
  | some name => reqAuth d.settings && ovpnIsAuthRequired ((d.files name).map decode) && noUser d.settings

/-- `row_changed` -/
def rowChanged (selected : Option String) (d : Desk) : Desk :=
  let d := { d with selected }
  if lacksUser d then { d with sensitive := false, tooltip := "Authentication Required!" }
  else { d with sensitive := true, tooltip := "" }

/-- A row is selected or the selection goes, settings and files are changed elsewhere, and
a run of the cascade begins and ends. -/
inductive Action
  | select (selected : Option String)
  | stored (settings : Store)
  | files (files : String → Option (List Symbol))
  | begin
  | finish

def step (d : Desk) : Action → Option Desk
  -- a row that is selected already is not selected again
  | .select selected => if selected = d.selected then none else some (rowChanged selected d)
  | .stored settings => some { d with settings }
  | .files files => some { d with files }
  -- locked with the other controls, the button is made sensitive again to cancel with
  | .begin => some { d with sensitive := true }
  | .finish => some { d with sensitive := true }

def opened (settings : Store) (files : String → Option (List Symbol)) : Desk where
  settings := settings
  files := files
  selected := none
  sensitive := true
  tooltip := ""

/-- The button is insensitive while the selected configuration lacks a user, and then the
tooltip tells why. -/
structure Truthful (d : Desk) : Prop where
  sensitive : d.sensitive = !lacksUser d
  tooltip : d.sensitive = false → d.tooltip = "Authentication Required!"

/-- No configuration that makes OpenVPN ask for a user can be connected without one by the button. -/
def Guarded (d : Desk) : Prop :=
  ∀ name content, d.selected = some name → d.files name = some content → Requires content →
    reqAuth d.settings = true → noUser d.settings = true → d.sensitive = false

/-- What is changed elsewhere makes no difference to the selected configuration, and the
cascade runs with one that lacks no user. -/
def Kept (d : Desk) : Action → Prop
  | .select _ => True
  | .stored settings => lacksUser { d with settings } = lacksUser d
  | .files files => lacksUser { d with files } = lacksUser d
  | .begin | .finish => lacksUser d = false

variable {d t : Desk} {a : Action}

theorem Truthful.guarded (h : Truthful d) : Guarded d := by
  intro name content hselected hfile hrequires hreq huser
  have hlacks : lacksUser d = true := by
    simp only [lacksUser, hselected, hfile, Option.map_some, required_of_requires hrequires, hreq, huser,
      Bool.and_self]
  rw [h.sensitive, hlacks]
  rfl

theorem truthful_rowChanged (selected : Option String) (d : Desk) : Truthful (rowChanged selected d) := by
  rw [rowChanged]
  dsimp only
  split_ifs with hlacks
  · exact ⟨(congrArg Bool.not hlacks).symm, fun _ => rfl⟩
  · exact ⟨(congrArg Bool.not (Bool.eq_false_iff.mpr hlacks)).symm, nofun⟩

theorem Truthful.untouched_iff (h : Truthful d) (hs : t.sensitive = d.sensitive) (ht : t.tooltip = d.tooltip) :
    Truthful t ↔ lacksUser t = lacksUser d := by
  constructor
  · intro htruthful
    exact Bool.not_inj (htruthful.sensitive.symm.trans (hs.trans h.sensitive))
  · intro hsame
    refine ⟨hs.trans (h.sensitive.trans (congrArg Bool.not hsame.symm)), fun hoff => ?_⟩
    rw [ht]
    exact h.tooltip (hs.symm.trans hoff)

theorem truthful_step (h : Truthful d) (hstep : step d a = some t) : Truthful t ↔ Kept d a := by
  cases a with
  | select selected =>
      rw [step] at hstep
      split_ifs at hstep
      obtain rfl := Option.some.inj hstep
      exact iff_of_true (truthful_rowChanged selected d) trivial
  | stored settings | files files =>
      obtain rfl := Option.some.inj hstep
      exact h.untouched_iff rfl rfl
  | begin | finish =>
      obtain rfl := Option.some.inj hstep
      refine ⟨fun ht => Bool.not_inj ht.sensitive.symm, fun hkept => ⟨?_, nofun⟩⟩
      exact (congrArg Bool.not hkept).symm

/-- The button is insensitive, and says why, while the selected configuration lacks a user,
which one that makes OpenVPN ask for a user does unless one is stored, in every state of
exactly the runs in which that is changed by selecting a row only. -/
theorem button_truthful_iff (settings : Store) (files : String → Option (List Symbol))
    (actions : List Action) :
    AllStates step (fun d => Truthful d ∧ Guarded d) (opened settings files) actions ↔
      AllSteps step Kept (opened settings files) actions :=
  allStates_iff_allSteps (I := Truthful) (fun _ h => ⟨h, h.guarded⟩)
    (fun _ _ _ h hs hk => (truthful_step h hs).mpr hk) (fun _ _ _ h hs ht => (truthful_step h hs).mp ht.1) actions
    ⟨rfl, nofun⟩

end EovpnPro.AuthGate
