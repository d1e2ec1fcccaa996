import EovpnPro.PyInt
import EovpnPro.Runs
import Mathlib.Data.List.FinRange
import Mathlib.Logic.Function.Basic

namespace EovpnPro.OtpDialog

open Runs

abbrev Text := List Char

/-- What `str.isnumeric` says of a character. It is true of the decimal digits, and of more
than these. -/
structure Numerics where
  isNumeric : Char → Bool
  digits : ∀ c : Char, c.isDigit = true → isNumeric c = true

abbrev otpLength : Nat := 6

abbrev Box := Fin otpLength

def boxes : List Box := List.finRange otpLength

/-- The text of an entry after what is selected has given way to a new text. The limit cuts
what is inserted, not what is there. -/
def splice (limit : Nat) (text : Text) (lo hi : Nat) (new : Text) : Text :=
  let kept := text.take lo ++ text.drop (max lo hi)
  kept.take lo ++ new.take (limit - kept.length) ++ kept.drop lo

/-- `maxLength` is that of every entry. -/
structure OTPInputWindow where
  maxLength : Nat := 1
  texts : Box → Text := fun _ => []
  distributing : Bool := false
  sensitive : Bool := false
  focus : Option Box := none

variable {numerics : Numerics} {w t : OTPInputWindow} {i : Box}

def put (w : OTPInputWindow) (i : Box) (text : Text) : OTPInputWindow :=
  { w with texts := Function.update w.texts i text }

def gatherOtp (w : OTPInputWindow) : List Text := (boxes.map w.texts).filter (·.length = 1)

def syncSubmitState (w : OTPInputWindow) : OTPInputWindow :=
  { w with sensitive := decide ((gatherOtp w).length = otpLength) }

def grabFocus (w : OTPInputWindow) (i : Option Box) : OTPInputWindow := { w with focus := i.or w.focus }

def nextEntry (i : Box) : Option Box := if h : i.val + 1 < otpLength then some ⟨i.val + 1, h⟩ else none

section Handler

variable (numerics : Numerics) (changed : OTPInputWindow → Box → Option OTPInputWindow)

def changeTo (w : OTPInputWindow) (i : Box) (text : Text) : Option OTPInputWindow :=
  if text = w.texts i then some w else changed (put w i text) i

def setText (w : OTPInputWindow) (i : Box) (value : Text) : Option OTPInputWindow := do
  let w ← changeTo changed w i []
  changeTo changed w i (splice w.maxLength (w.texts i) 0 0 value)

def distributePasted (w : OTPInputWindow) (token : Text) : Option OTPInputWindow :=
  if w.distributing then some w
  else do
    let digits := (token.filter numerics.isNumeric).take otpLength
    let w ← boxes.foldlM (fun w i => setText changed w i digits[i.val]?.toList) { w with distributing := true }
    let w := syncSubmitState (grabFocus w (boxes.filter (·.val < digits.length)).getLast?)
    some { w with distributing := false }

def onEntryChanged (w : OTPInputWindow) (i : Box) : Option OTPInputWindow :=
  let text := w.texts i
  if text = [] then some (syncSubmitState w)
  else if !text.all numerics.isNumeric then setText changed w i []
  else if 1 < text.length then distributePasted numerics changed w text
  else some (syncSubmitState (grabFocus w (nextEntry i)))

end Handler

/-- The handler with the calls of itself that the texts it sets lead to. `none` where these
go deeper than they may. -/
def changed (numerics : Numerics) : Nat → OTPInputWindow → Box → Option OTPInputWindow
  | 0, _, _ => none
  | depth + 1, w, i => onEntryChanged numerics (changed numerics depth) w i

/-- Typing, pasting and clearing put a text in the place of the selected part of a box. -/
structure Action where
  box : Box
  lo : Nat
  hi : Nat
  new : Text

def edited (w : OTPInputWindow) (a : Action) : Text := splice w.maxLength (w.texts a.box) a.lo a.hi a.new

def step (numerics : Numerics) (w : OTPInputWindow) (a : Action) : Option OTPInputWindow :=
  changeTo (changed numerics 2) w a.box (edited w a)

def initial : OTPInputWindow := {}

section Entries

variable {limit lo hi : Nat} {text new : Text}

theorem splice_nil : splice limit [] lo hi new = new.take limit := by simp [splice]

theorem length_splice_le (h : text.length ≤ limit) : (splice limit text lo hi new).length ≤ limit := by
  have hkept : (text.take lo ++ text.drop (max lo hi)).length ≤ limit := by
    rw [List.length_append, List.length_take, List.length_drop]
    omega
  simp only [splice]
  generalize text.take lo ++ text.drop (max lo hi) = kept at hkept
  have hparts : (kept.take lo).length + (kept.drop lo).length = kept.length := by
    rw [← List.length_append, List.take_append_drop]
  rw [List.length_append, List.length_append, List.length_take (l := new)]
  omega

end Entries

section Handler

variable {n : Nat} {c : Char} {text : Text}

theorem put_self (h : w.texts i = text) : put w i text = w := by
  rw [put, ← h, Function.update_eq_self]

@[simp] theorem put_put (w : OTPInputWindow) (i : Box) (a b : Text) : put (put w i a) i b = put w i b := by
  simp only [put, Function.update_idem]

@[simp] theorem put_texts_self (w : OTPInputWindow) (i : Box) (text : Text) : (put w i text).texts i = text := by
  simp only [put, Function.update_self]

@[simp] theorem grabFocus_none (w : OTPInputWindow) : grabFocus w none = w := rfl

theorem changed_nil (h : w.texts i = []) : changed numerics (n + 1) w i = some (syncSubmitState w) := by
  rw [changed, onEntryChanged]
  simp only [h, if_true]

theorem changed_numeric (h : w.texts i = [c]) (hc : numerics.isNumeric c = true) :
    changed numerics (n + 1) w i = some (syncSubmitState (grabFocus w (nextEntry i))) := by
  rw [changed, onEntryChanged]
  simp [h, hc]

theorem setText_nil (w : OTPInputWindow) (i : Box) (h : w.texts i ≠ []) :
    setText (changed numerics (n + 1)) w i [] = some (syncSubmitState (put w i [])) := by
  have hclear : changeTo (changed numerics (n + 1)) w i [] = some (syncSubmitState (put w i [])) := by
    rw [changeTo, if_neg (Ne.symm h)]
    exact changed_nil (put_texts_self w i [])
  have hempty : (syncSubmitState (put w i [])).texts i = [] := put_texts_self w i []
  rw [setText, hclear]
  change changeTo _ _ i (splice _ _ 0 0 []) = _
  rw [hempty, splice_nil, List.take_nil, changeTo, if_pos hempty.symm]

theorem changed_single (htext : w.texts i = text) (hlength : text.length ≤ 1) :
    ∃ focus, changed numerics (n + 2) w i =
      some (syncSubmitState (grabFocus (put w i (text.filter numerics.isNumeric)) focus)) := by
  match text, hlength with
  | [], _ =>
      refine ⟨none, ?_⟩
      rw [changed_nil htext, List.filter_nil, put_self htext, grabFocus_none]
  | [c], _ =>
      by_cases hc : numerics.isNumeric c = true
      · refine ⟨nextEntry i, ?_⟩
        rw [changed_numeric htext hc, List.filter_cons_of_pos hc, List.filter_nil, put_self htext]
      · refine ⟨none, ?_⟩
        have hne : w.texts i ≠ [] := by
          rw [htext]
          exact List.cons_ne_nil c []
        rw [changed, onEntryChanged, List.filter_cons_of_neg hc, List.filter_nil, grabFocus_none]
        simp only [htext]
        simpa [hc] using setText_nil w i hne

end Handler

section Submit

variable {a : Action}

/-- What holds of the dialog after every action: at most one numeric character in a box, and
a button that says whether all boxes are filled. -/
structure Good (numerics : Numerics) (w : OTPInputWindow) : Prop where
  limit : w.maxLength = 1
  single : ∀ i, (w.texts i).length ≤ 1
  numeric : ∀ i, (w.texts i).filter numerics.isNumeric = w.texts i
  synced : syncSubmitState w = w

theorem initial_good : Good numerics initial := ⟨rfl, fun _ => Nat.zero_le 1, fun _ => rfl, rfl⟩

theorem length_gatherOtp_iff : (gatherOtp w).length = otpLength ↔ ∀ i, (w.texts i).length = 1 := by
  have hboxes : (boxes.map w.texts).length = otpLength := by simp [boxes]
  rw [gatherOtp, ← hboxes, List.length_filter_eq_length_iff]
  simp [boxes]

theorem Good.sensitive_iff (h : Good numerics w) : w.sensitive = true ↔ ∀ i, w.texts i ≠ [] := by
  rw [← h.synced]
  change decide _ = true ↔ ∀ i, w.texts i ≠ []
  rw [decide_eq_true_iff, length_gatherOtp_iff]
  apply forall_congr'
  intro i
  have hle := h.single i
  rw [← List.length_pos_iff]
  omega

def accepted (numerics : Numerics) (w : OTPInputWindow) (a : Action) : Text :=
  (edited w a).filter numerics.isNumeric

theorem step_eq (h : Good numerics w) (a : Action) :
    ∃ focus, step numerics w a =
      some (syncSubmitState (grabFocus (put w a.box (accepted numerics w a)) focus)) := by
  have hlength : (edited w a).length ≤ 1 := by
    have hle : (edited w a).length ≤ w.maxLength := length_splice_le (h.limit ▸ h.single a.box)
    exact hle.trans_eq h.limit
  rw [step, changeTo]
  by_cases hsame : edited w a = w.texts a.box
  · refine ⟨none, ?_⟩
    rw [if_pos hsame, accepted, hsame, h.numeric, put_self rfl, grabFocus_none, h.synced]
  · rw [if_neg hsame]
    obtain ⟨focus, hchanged⟩ := changed_single (put_texts_self w a.box (edited w a)) hlength (n := 0)
    rw [put_put] at hchanged
    exact ⟨focus, hchanged⟩

theorem length_accepted_le (h : Good numerics w) (a : Action) : (accepted numerics w a).length ≤ 1 :=
  (List.length_filter_le _ _).trans
    ((length_splice_le (h.limit ▸ h.single a.box)).trans_eq h.limit)

theorem good_step (h : Good numerics w) (ht : step numerics w a = some t) : Good numerics t := by
  obtain ⟨focus, hstep⟩ := step_eq h a
  obtain rfl := Option.some.inj (hstep.symm.trans ht)
  refine ⟨h.limit, ?_, ?_, rfl⟩
  · apply (Function.forall_update_iff w.texts fun _ text => text.length ≤ 1).mpr
    exact ⟨length_accepted_le h a, fun i _ => h.single i⟩
  · apply (Function.forall_update_iff w.texts fun _ text => text.filter numerics.isNumeric = text).mpr
    refine ⟨?_, fun i _ => h.numeric i⟩
    rw [accepted, List.filter_filter]
    simp only [Bool.and_self]

theorem run_isSome (h : Good numerics w) (actions : List Action) :
    (run (step numerics) w actions).isSome = true := by
  induction actions generalizing w with
  | nil => rfl
  | cons a actions ih =>
      obtain ⟨focus, hstep⟩ := step_eq h a
      rw [run, hstep]
      exact ih (good_step h hstep)

def Decimal (text : Text) : Prop := ∃ c : Char, c.isDigit = true ∧ text = [c]

def SubmitCorrect (t : OTPInputWindow) : Prop := t.sensitive = true ↔ ∀ i, Decimal (t.texts i)

def PastesToken (w : OTPInputWindow) (a : Action) : Prop :=
  a.box = 0 ∧ w.texts 0 = [] ∧ otpLength ≤ a.new.length ∧ ∀ c ∈ a.new, c.isDigit = true

def Spread (token : Text) (texts : Box → Text) : Prop := ∀ i : Box, texts i = token[i.val]?.toList

/-- What the dialog is for, after an action. -/
def Meets (numerics : Numerics) (w : OTPInputWindow) (a : Action) : Prop :=
  ∀ t, step numerics w a = some t → SubmitCorrect t ∧ (PastesToken w a → Spread a.new t.texts)

/-- The action that fills the last empty box leaves digits only, and a token is pasted only
where the other boxes hold the rest of it already. -/
def Guarded (numerics : Numerics) (w : OTPInputWindow) (a : Action) : Prop :=
  (accepted numerics w a ≠ [] ∧ (∀ i, i ≠ a.box → w.texts i ≠ []) →
      (∀ c ∈ accepted numerics w a, c.isDigit = true) ∧
        ∀ i, i ≠ a.box → ∀ c ∈ w.texts i, c.isDigit = true) ∧
    (PastesToken w a → ∀ i : Box, i ≠ 0 → w.texts i = a.new[i.val]?.toList)

theorem Good.submitCorrect_iff (h : Good numerics w) :
    SubmitCorrect w ↔ ((∀ i, w.texts i ≠ []) → ∀ i, ∀ c ∈ w.texts i, c.isDigit = true) := by
  have hdecimal (i : Box) : Decimal (w.texts i) ↔ w.texts i ≠ [] ∧ ∀ c ∈ w.texts i, c.isDigit = true := by
    have hle := h.single i
    match w.texts i, hle with
    | [], _ => simp [Decimal]
    | [c], _ => simp [Decimal]
  rw [SubmitCorrect, h.sensitive_iff]
  simp only [hdecimal, forall_and]
  tauto

theorem submitCorrect_step_iff (h : Good numerics w) (ht : step numerics w a = some t) :
    SubmitCorrect t ↔ (accepted numerics w a ≠ [] ∧ (∀ i, i ≠ a.box → w.texts i ≠ []) →
      (∀ c ∈ accepted numerics w a, c.isDigit = true) ∧
        ∀ i, i ≠ a.box → ∀ c ∈ w.texts i, c.isDigit = true) := by
  rw [(good_step h ht).submitCorrect_iff]
  obtain ⟨focus, hstep⟩ := step_eq h a
  obtain rfl := Option.some.inj (hstep.symm.trans ht)
  change ((∀ i, Function.update w.texts a.box (accepted numerics w a) i ≠ []) →
    ∀ i, ∀ c ∈ Function.update w.texts a.box (accepted numerics w a) i, c.isDigit = true) ↔ _
  rw [Function.forall_update_iff w.texts fun _ text => text ≠ [],
    Function.forall_update_iff w.texts fun _ text => ∀ c ∈ text, c.isDigit = true]

theorem accepted_token (h : Good numerics w) (hp : PastesToken w a) :
    accepted numerics w a = a.new[0]?.toList := by
  obtain ⟨hbox, hempty, hlength, hdigits⟩ := hp
  rw [accepted, edited, hbox, hempty, splice_nil, h.limit]
  cases hnew : a.new with
  | nil => rfl
  | cons c rest =>
      have hc : numerics.isNumeric c = true := numerics.digits c (hdigits c (hnew ▸ List.mem_cons_self))
      simp [hc]

theorem spread_step_iff (h : Good numerics w) (ht : step numerics w a = some t) (hp : PastesToken w a) :
    Spread a.new t.texts ↔ ∀ i : Box, i ≠ 0 → w.texts i = a.new[i.val]?.toList := by
  obtain ⟨focus, hstep⟩ := step_eq h a
  obtain rfl := Option.some.inj (hstep.symm.trans ht)
  change (∀ i : Box, Function.update w.texts a.box (accepted numerics w a) i = a.new[i.val]?.toList) ↔ _
  rw [Function.forall_update_iff w.texts fun (i : Box) text => text = a.new[i.val]?.toList, accepted_token h hp,
    hp.1]
  exact and_iff_right rfl

theorem meets_iff_guarded (h : Good numerics w) (ht : step numerics w a = some t) :
    Meets numerics w a ↔ Guarded numerics w a := by
  have hone : Meets numerics w a ↔ SubmitCorrect t ∧ (PastesToken w a → Spread a.new t.texts) :=
    ⟨fun hm => hm t ht, fun hm u hu => Option.some.inj (ht.symm.trans hu) ▸ hm⟩
  rw [hone, Guarded, submitCorrect_step_iff h ht]
  exact and_congr_right fun _ => forall_congr' fun hp => spread_step_iff h ht hp

/-- The dialog does what it is for all along a run just when every action meets the
condition, and every run goes on to its end. -/
theorem otp_entry_iff (numerics : Numerics) (actions : List Action) :
    (run (step numerics) initial actions).isSome = true ∧
      (AllSteps (step numerics) (Meets numerics) initial actions ↔
        AllSteps (step numerics) (Guarded numerics) initial actions) :=
  ⟨run_isSome initial_good actions,
    allSteps_iff_of_invariant (I := Good numerics) (fun _ _ _ h ht _ => good_step h ht)
      (fun _ _ _ h ht => meets_iff_guarded h ht) actions initial_good⟩

def isdigit : Numerics where
  isNumeric := PyInt.isDigit
  digits := by
    intro c hc
    have hrange : 48 ≤ c.toNat ∧ c.toNat < 58 := by
      obtain ⟨hlo, hhi⟩ := Bool.and_eq_true_iff.mp hc
      have hlo : 48 ≤ c.toNat := of_decide_eq_true hlo
      have hhi : c.toNat ≤ 57 := of_decide_eq_true hhi
      omega
    rw [PyInt.isDigit, PyInt.decimalValue, PyInt.decimalStarts, List.find?_cons_of_pos (by simpa using hrange)]
    rfl

def pasted : List Action := [⟨0, 0, 0, "123456".toList⟩]

def typed : List Action :=
  [⟨0, 0, 0, ['1']⟩, ⟨1, 0, 0, ['2']⟩, ⟨2, 0, 0, ['3']⟩, ⟨3, 0, 0, ['4']⟩, ⟨4, 0, 0, ['5']⟩, ⟨5, 0, 0, ['²']⟩]

theorem token_cut_and_superscript_taken :
    ¬AllSteps (step isdigit) (Meets isdigit) initial pasted ∧
      (run (step isdigit) initial pasted).map (fun w => boxes.map w.texts) =
        some [['1'], [], [], [], [], []] ∧
      (run (step isdigit) initial typed).map (fun w => (boxes.map w.texts, w.sensitive)) =
        some ([['1'], ['2'], ['3'], ['4'], ['5'], ['²']], true) := by
  refine ⟨?_, by decide, by decide⟩
  intro h
  obtain ⟨focus, hstep⟩ := step_eq initial_good ⟨0, 0, 0, "123456".toList⟩
  have hguard := (meets_iff_guarded initial_good hstep).mp (h _ hstep).1
  have htoken : PastesToken initial ⟨0, 0, 0, "123456".toList⟩ := ⟨rfl, rfl, le_rfl, List.all_eq_true.mp rfl⟩
  have hsecond : initial.texts 1 = ['2'] := hguard.2 htoken 1 Fin.zero_ne_one.symm
  cases hsecond

end Submit

section Distribution

variable {value : Text} {n : Nat} {a : Action}

theorem setText_value (hlimit : 1 ≤ w.maxLength) (hlength : value.length ≤ 1)
    (hvalue : value.all numerics.isNumeric = true) (i : Box) :
    ∃ t, setText (changed numerics (n + 1)) w i value = some t ∧
      t.texts = Function.update w.texts i value ∧ t.maxLength = w.maxLength := by
  have hclear : ∃ u, changeTo (changed numerics (n + 1)) w i [] = some u ∧
      u.texts = Function.update w.texts i [] ∧ u.maxLength = w.maxLength := by
    by_cases hempty : [] = w.texts i
    · refine ⟨w, if_pos hempty, ?_, rfl⟩
      rw [hempty, Function.update_eq_self]
    · refine ⟨syncSubmitState (put w i []), ?_, rfl, rfl⟩
      rw [changeTo, if_neg hempty]
      exact changed_nil (put_texts_self w i [])
  obtain ⟨u, hu, htexts, hmax⟩ := hclear
  have hui : u.texts i = [] := by rw [htexts, Function.update_self]
  rw [setText, hu]
  change ∃ t, changeTo (changed numerics (n + 1)) u i (splice u.maxLength (u.texts i) 0 0 value) = some t ∧ _
  rw [hui, splice_nil, hmax, List.take_of_length_le (hlength.trans hlimit), changeTo, hui]
  match value, hlength with
  | [], _ => exact ⟨u, if_pos rfl, htexts, hmax⟩
  | [c], _ =>
      have hc : numerics.isNumeric c = true := by simpa using hvalue
      refine ⟨syncSubmitState (grabFocus (put u i [c]) (nextEntry i)), ?_, ?_, hmax⟩
      · rw [if_neg (List.cons_ne_nil c [])]
        exact changed_numeric (put_texts_self u i [c]) hc
      · change Function.update u.texts i [c] = Function.update w.texts i [c]
        rw [htexts, Function.update_idem]

theorem foldlM_setText (numerics : Numerics) (n : Nat) (values : Box → Text) (hlength : ∀ i, (values i).length ≤ 1)
    (hvalues : ∀ i, (values i).all numerics.isNumeric = true) (left : List Box) (hlimit : 1 ≤ w.maxLength) :
    ∃ t, left.foldlM (fun w i => setText (changed numerics (n + 1)) w i (values i)) w = some t ∧
      ∀ i, t.texts i = if i ∈ left then values i else w.texts i := by
  induction left generalizing w with
  | nil => exact ⟨w, rfl, fun i => (if_neg List.not_mem_nil).symm⟩
  | cons j left ih =>
      obtain ⟨u, hu, htexts, hmax⟩ := setText_value (n := n) hlimit (hlength j) (hvalues j) j
      obtain ⟨t, ht, hleft⟩ := ih (hmax.symm ▸ hlimit)
      refine ⟨t, ?_, ?_⟩
      · rw [List.foldlM_cons, hu]
        exact ht
      · intro i
        rw [hleft, htexts]
        by_cases hij : i = j
        · subst hij
          simp
        · simp [hij]

theorem distributePasted_spread {token : Text} (hlimit : 1 ≤ w.maxLength) (hidle : w.distributing = false)
    (htoken : token.all numerics.isNumeric = true) :
    ∃ t, distributePasted numerics (changed numerics (n + 1)) w token = some t ∧ Spread token t.texts := by
  have hvalues (i : Box) : (token.take otpLength)[i.val]?.toList.all numerics.isNumeric = true := by
    rw [List.getElem?_take_of_lt i.isLt, List.all_eq_true]
    intro c hc
    exact List.all_eq_true.mp htoken c (List.mem_of_getElem? (Option.mem_toList.mp hc))
  obtain ⟨t, ht, hspread⟩ := foldlM_setText numerics n (w := { w with distributing := true })
    (fun i => (token.take otpLength)[i.val]?.toList)
    (fun i => Option.length_toList_le) hvalues boxes hlimit
  refine ⟨{ syncSubmitState (grabFocus t (boxes.filter (·.val < (token.take otpLength).length)).getLast?) with
    distributing := false }, ?_, ?_⟩
  · rw [distributePasted, hidle, if_neg Bool.false_ne_true,
      List.filter_eq_self.mpr (List.all_eq_true.mp htoken)]
    dsimp only
    rw [ht]
    rfl
  · intro i
    change t.texts i = token[i.val]?.toList
    rw [hspread, if_pos (show i ∈ boxes from List.mem_finRange i), List.getElem?_take_of_lt i.isLt]

/-- With room for the whole token in the first box, the handler does spread it over all of
them. It is the limit of one character that keeps it from seeing the token. -/
theorem paste_distributes (hlimit : otpLength ≤ w.maxLength) (hidle : w.distributing = false)
    (hp : PastesToken w a) : ∃ t, step numerics w a = some t ∧ Spread a.new t.texts := by
  obtain ⟨hbox, hempty, hlength, hdigits⟩ := hp
  have hsix : otpLength = 6 := rfl
  have htext : edited w a = a.new.take w.maxLength := by rw [edited, hbox, hempty, splice_nil]
  have hlong : 1 < (edited w a).length := by
    rw [htext, List.length_take]
    omega
  have hall : (edited w a).all numerics.isNumeric = true := by
    rw [htext, List.all_eq_true]
    exact fun c hc => numerics.digits c (hdigits c (List.mem_of_mem_take hc))
  have hne : edited w a ≠ [] := List.ne_nil_of_length_pos (Nat.zero_lt_of_lt hlong)
  obtain ⟨t, ht, hspread⟩ := distributePasted_spread (w := put w a.box (edited w a)) (n := 0)
    (Nat.le_trans (by decide) hlimit) hidle hall
  refine ⟨t, ?_, ?_⟩
  · have hchanged : edited w a ≠ w.texts a.box := by
      rw [hbox, hempty]
      exact hne
    rw [step, changeTo, if_neg hchanged, changed, onEntryChanged, put_texts_self]
    simp only [hne, if_false, hall, hlong, if_true]
    exact ht
  · intro i
    rw [hspread, htext, List.getElem?_take_of_lt (Nat.lt_of_lt_of_le i.isLt hlimit)]

end Distribution

end EovpnPro.OtpDialog
