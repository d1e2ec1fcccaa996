import EovpnPro.OvpnSyntax
import EovpnPro.ProfileAudit
import Mathlib.Data.List.TakeWhile

namespace EovpnPro.AuditSpelling

open PyText OvpnSyntax ProfileAudit

def authUserPass : String := "auth-user-pass"

/-- The first parameter of a line is the directive, `auth-user-pass` only with another
parameter behind it. -/
def Reads (escapable : Symbol → Bool) (line : List Symbol) (d : String) : Prop :=
  ∃ first arguments, parameters escapable line = some (first :: arguments) ∧
    bypassDoubledash first = d.toList.map some ∧ (d = authUserPass → arguments ≠ [])

/-- The audit names the directives that are read on the lines of a file. -/
def Audited (escapable : Symbol → Bool) (content : List Symbol) : Prop :=
  ∀ d ∈ dangerousOvpnDirectives, ∀ line ∈ fileLines content, Reads escapable line.2 d →
    d ∈ auditOvpnContent (some (decode content))

def symbols (text : String) : List Symbol := text.toList.map some

/-- What stands before the first end of a line in Python's sense. -/
def shown (s : List Char) : List Char := s.takeWhile fun c => c ≠ '\n' ∧ c ≠ '\r'

/-- The line has the directive in plain letters between blanks. The argument of
`auth-user-pass` does not stand behind a carriage return, and some of it can be read. -/
def Plain (d : String) (line : List Symbol) : Prop :=
  ∃ blanks rest, line = blanks ++ (symbols d ++ rest) ∧ (∀ x ∈ blanks, isBlank x = true) ∧
    (∀ x ∈ rest.head?, isBlank x = true) ∧
    (d = authUserPass → ∃ c ∈ shown (decode rest), isSpace c = false)

/-- The other spellings of a directive that is read, of a line as it is in the file and
as it is read: behind a byte order mark, in quotation marks, behind dashes, with a
backslash before it or in it, and with an argument of `auth-user-pass` that is behind a
carriage return or no text. -/
inductive Disguised (d : String) : List Symbol × List Symbol → Prop
  | marked (read) : Disguised d (some '\uFEFF' :: read, read)
  | quoted (raw blanks rest) {mark : Symbol} (hb : ∀ x ∈ blanks, isBlank x = true)
      (hm : mark = some '"' ∨ mark = some '\'') : Disguised d (raw, blanks ++ mark :: rest)
  | dashed (raw blanks rest) (hb : ∀ x ∈ blanks, isBlank x = true) :
      Disguised d (raw, blanks ++ (symbols "--" ++ rest))
  | escaped (raw blanks rest) {part : List Symbol} (hb : ∀ x ∈ blanks, isBlank x = true)
      (hp : part <+: symbols d ∨ part <+: symbols "--" ++ symbols d) :
      Disguised d (raw, blanks ++ (part ++ some '\\' :: rest))
  | argument (raw blanks rest) (hb : ∀ x ∈ blanks, isBlank x = true) (ha : d = authUserPass)
      (hr : ∀ c ∈ shown (decode rest), isSpace c = true) :
      Disguised d (raw, blanks ++ (symbols d ++ rest))

/-- The text has the directive, in any capitals, between what Python takes for blanks at
the beginning of a line, and `auth-user-pass` has something behind it there. -/
def Legible (d : String) (text : List Char) : Prop :=
  ∃ before blanks token rest, text = before ++ (blanks ++ (token ++ rest)) ∧ EndsLine before ∧
    (∀ c ∈ blanks, isSpace c = true) ∧ (∀ c ∈ token, isSpace c = false) ∧ lower token = d.toList ∧
    (∀ c ∈ rest.head?, isSpace c = true) ∧ (d = authUserPass → ∃ c ∈ shown rest, isSpace c = false)

def Spelled (d : String) (line : List Char) : Prop :=
  ∃ blanks token rest, line = blanks ++ (token ++ rest) ∧ (∀ c ∈ blanks, isSpace c = true) ∧
    (∀ c ∈ token, isSpace c = false) ∧ lower token = d.toList ∧ (∀ c ∈ rest.head?, isSpace c = true) ∧
    (d = authUserPass → ∃ c ∈ rest, isSpace c = false)

variable {d : String}

theorem directives_plain : ∀ d ∈ dangerousOvpnDirectives, d.toList ≠ [] ∧ '#' ∉ d.toList ∧
    ';' ∉ d.toList ∧ d.toList.any isSpace = false ∧ lower d.toList = d.toList := by decide

theorem directives_letters (hd : d ∈ dangerousOvpnDirectives) :
    d.toList ≠ [] ∧ '#' ∉ d.toList ∧ ';' ∉ d.toList ∧ (∀ c ∈ d.toList, isSpace c = false) ∧
      lower d.toList = d.toList := by
  obtain ⟨hne, hhash, hsemi, hspace, hlower⟩ := directives_plain d hd
  exact ⟨hne, hhash, hsemi, fun c hc => Bool.eq_false_iff.mpr (List.any_eq_false.mp hspace c hc), hlower⟩

theorem lstrip_append {blanks s : List Char} (hb : ∀ c ∈ blanks, isSpace c = true) :
    lstrip (blanks ++ s) = lstrip s := by
  induction blanks with
  | nil => rfl
  | cons c blanks ih =>
      obtain ⟨hc, hb⟩ := List.forall_mem_cons.mp hb
      rw [lstrip, List.cons_append, List.dropWhile_cons_of_pos hc]
      exact ih hb

theorem split_spelled {blanks token rest : List Char} (hb : ∀ c ∈ blanks, isSpace c = true)
    (ht : ∀ c ∈ token, isSpace c = false) (hne : token ≠ []) (hr : ∀ c ∈ rest.head?, isSpace c = true) :
    split (strip (blanks ++ (token ++ rest))) = token :: split rest := by
  rw [split_strip, ← split_lstrip, lstrip_append hb, split_lstrip, split,
    splitFrom_word ht hr [] (.inr hne)]
  rfl

theorem strip_spelled {blanks token : List Char} (hb : ∀ c ∈ blanks, isSpace c = true)
    (ht : ∀ c ∈ token, isSpace c = false) (hne : token ≠ []) (rest : List Char) :
    (strip (blanks ++ (token ++ rest))).head? = token.head? := by
  cases token with
  | nil => exact absurd rfl hne
  | cons c token =>
      have hc : isSpace c = false := ht c List.mem_cons_self
      have hl : lstrip (c :: (token ++ rest)) = c :: (token ++ rest) := by simp [lstrip, hc]
      rw [strip, lstrip_append hb, List.cons_append, hl, rstrip_cons hc]
      rfl

theorem split_eq_nil {s : List Char} : split s = [] ↔ ∀ c ∈ s, isSpace c = true := by
  rw [split, splitFrom_eq_nil, and_iff_right rfl]

theorem directive_of_spelled {line : List Char} (hd : d ∈ dangerousOvpnDirectives) (hs : Spelled d line) :
    directive line = some d := by
  obtain ⟨hletters, hhash, hsemi, -⟩ := directives_letters hd
  obtain ⟨blanks, token, rest, rfl, hb, ht, hl, hr, hauth⟩ := hs
  have hne : token ≠ [] := by
    rintro rfl
    exact hletters hl.symm
  have hsplit := split_spelled hb ht hne hr
  have hhead := strip_spelled hb ht hne rest
  have hcomment (c : Char) (hc : c.toNat < 65) (hmem : c ∉ d.toList) :
      (strip (blanks ++ (token ++ rest))).head? ≠ some c := by
    intro h
    rw [hhead] at h
    apply hmem
    rw [← hl]
    exact (mem_lower (.inl hc)).mpr (List.mem_of_head? h)
  have hempty : strip (blanks ++ (token ++ rest)) ≠ [] := by
    intro h
    rw [h] at hhead
    exact hne (List.head?_eq_none_iff.mp hhead.symm)
  have hplain : ¬(d = "auth-user-pass" ∧ split rest = []) := by
    rintro ⟨ha, hnone⟩
    obtain ⟨c, hc, hspace⟩ := hauth ha
    rw [split_eq_nil.mp hnone c hc] at hspace
    cases hspace
  have hstart : ¬(strip (blanks ++ (token ++ rest)) = [] ∨
      (strip (blanks ++ (token ++ rest))).head? = some '#' ∨
      (strip (blanks ++ (token ++ rest))).head? = some ';') := by
    rintro (h | h | h)
    · exact hempty h
    · exact hcomment '#' (by decide) hhash h
    · exact hcomment ';' (by decide) hsemi h
  have hkey : String.ofList (lower token) = d := by rw [hl, String.ofList_toList]
  simp only [directive, if_neg hstart, hsplit, hkey, if_neg (not_not.mpr hd), if_neg hplain]

theorem exists_of_split {s first : List Char} {arguments : List (List Char)}
    (h : split s = first :: arguments) :
    ∃ blanks rest, s = blanks ++ (first ++ rest) ∧ (∀ c ∈ blanks, isSpace c = true) ∧
      (∀ c ∈ first, isSpace c = false) ∧ (∀ c ∈ rest.head?, isSpace c = true) ∧ split rest = arguments := by
  let word := (lstrip s).takeWhile fun c => !isSpace c
  let rest := (lstrip s).dropWhile fun c => !isSpace c
  have hs : s = s.takeWhile isSpace ++ (word ++ rest) := by
    rw [List.takeWhile_append_dropWhile]
    exact List.takeWhile_append_dropWhile.symm
  have hb : ∀ c ∈ s.takeWhile isSpace, isSpace c = true := fun c hc => List.mem_takeWhile_imp hc
  have hw : ∀ c ∈ word, isSpace c = false := by
    intro c hc
    simpa using List.mem_takeWhile_imp hc
  have hr : ∀ c ∈ rest.head?, isSpace c = true := by
    intro c hc
    have hnot := List.head?_dropWhile_not (fun c => !isSpace c) (lstrip s)
    rw [Option.mem_def.mp hc] at hnot
    simpa using hnot
  have hne : word ≠ [] := by
    intro hnil
    have hrest : lstrip s = rest := by rw [← List.takeWhile_append_dropWhile (p := fun c => !isSpace c)
      (l := lstrip s), show (lstrip s).takeWhile (fun c => !isSpace c) = [] from hnil, List.nil_append]
    cases hl : lstrip s with
    | nil => rw [← split_lstrip, hl] at h; cases h
    | cons c t =>
        have hspace : isSpace c = true := hr c (by rw [← hrest, hl]; rfl)
        have hnot := List.head?_dropWhile_not isSpace s
        rw [show s.dropWhile isSpace = c :: t from hl] at hnot
        simp [hspace] at hnot
  have hsplit := split_spelled hb hw hne hr
  rw [← hs, split_strip, h] at hsplit
  obtain ⟨rfl, rfl⟩ := List.cons.inj hsplit
  exact ⟨_, rest, hs, hb, hw, hr, rfl⟩

theorem spelled_of_directive {line : List Char} (h : directive line = some d) :
    d ∈ dangerousOvpnDirectives ∧ Spelled d line := by
  rw [directive] at h
  dsimp only at h
  split_ifs at h
  rw [split_strip] at h
  cases hsplit : split line with
  | nil => rw [hsplit] at h; cases h
  | cons first arguments =>
      rw [hsplit] at h
      dsimp only at h
      split_ifs at h with hkey hauth
      obtain rfl := Option.some.inj h
      obtain ⟨blanks, rest, rfl, hb, hw, hr, rfl⟩ := exists_of_split hsplit
      refine ⟨hkey, blanks, first, rest, rfl, hb, hw, String.toList_ofList.symm, hr, ?_⟩
      intro ha
      by_contra hnone
      apply hauth
      refine ⟨ha, split_eq_nil.mpr fun c hc => ?_⟩
      by_contra hspace
      exact hnone ⟨c, hc, by simpa using hspace⟩

theorem mem_audit_iff {text : List Char} :
    d ∈ auditOvpnContent (some text) ↔ d ∈ found (universalNewlines text) := by
  rw [auditOvpnContent, audit, List.mem_insertionSort, List.mem_dedup]

theorem found_nil_append_newline (t : List Char) : found ('\n' :: t) = found t := by
  have h := found_append_newline [] t
  rwa [found_nil, List.nil_append, List.nil_append] at h

theorem found_append {c : Char} (hc : c = '\n' ∨ c = '\r') (s t : List Char) :
    found (universalNewlines (s ++ c :: t)) =
      found (universalNewlines s) ++ found (universalNewlines t) := by
  rcases universalNewlines_append s t hc with h | ⟨h, ⟨u, hu⟩ | ⟨u, hu⟩⟩
  · rw [h, found_append_newline]
  · rw [h, hu, List.append_assoc, List.singleton_append, found_append_newline, found_append_newline,
      found_nil, List.append_nil]
  · rw [h, hu, found_append_newline, found_nil_append_newline]

theorem directive_cons_space {c : Char} (hc : isSpace c = true) (w : List Char) :
    directive (c :: w) = directive w := by
  have hs : strip (c :: w) = strip w := by
    rw [strip, lstrip, List.dropWhile_cons_of_pos hc, ← lstrip, ← strip]
  rw [directive, directive, hs]

theorem found_linesFrom_space {c : Char} (hc : isSpace c = true) (line s : List Char) :
    (linesFrom (line ++ [c]) s).filterMap directive = (linesFrom line s).filterMap directive := by
  induction s generalizing line with
  | nil =>
      have hd := directive_cons_space hc line.reverse
      by_cases hl : line = []
      · subst hl
        have hnil : directive [c] = none := hd
        simp [linesFrom, hnil]
      · simp [linesFrom, hl, List.filterMap_cons, hd]
  | cons a s ih =>
      have hd := directive_cons_space hc (line.reverse ++ [a])
      rw [linesFrom, linesFrom]
      split_ifs with ha
      · simp [List.filterMap_cons, hd]
      · exact ih (a :: line)

theorem found_cons_space {c : Char} (hc : isSpace c = true) (s : List Char) :
    found (universalNewlines (c :: s)) = found (universalNewlines s) := by
  by_cases hend : c = '\n' ∨ c = '\r'
  · exact found_append hend [] s
  · obtain ⟨hfeed, hreturn⟩ := not_or.mp hend
    rw [universalNewlines.eq_4 _ _ (fun _ h _ => hreturn h) hreturn, found, lines, linesFrom, if_neg hfeed]
    exact found_linesFrom_space hc [] _

theorem found_append_blanks {blanks : List Char} (hb : ∀ c ∈ blanks, isSpace c = true) (s : List Char) :
    found (universalNewlines (blanks ++ s)) = found (universalNewlines s) := by
  induction blanks with
  | nil => rfl
  | cons c blanks ih =>
      obtain ⟨hc, hb⟩ := List.forall_mem_cons.mp hb
      exact (found_cons_space hc _).trans (ih hb)

theorem isSpace_of_isBlank {x : Symbol} (hx : isBlank x = true) {c : Char} (hc : x = some c) :
    isSpace c = true := by
  subst hc
  simp only [isBlank, Bool.or_eq_true, Bool.and_eq_true, decide_eq_true_eq] at hx
  rcases hx with rfl | ⟨hlow, hhigh⟩
  · decide
  · simp [isSpace, hlow, hhigh]

theorem decode_map_some (s : List Char) : decode (s.map some) = s := by
  rw [decode, List.filterMap_map]
  exact List.filterMap_some

theorem isSpace_decode {blanks : List Symbol} (hb : ∀ x ∈ blanks, isBlank x = true) :
    ∀ c ∈ decode blanks, isSpace c = true := by
  intro c hc
  obtain ⟨x, hx, hsome⟩ := List.mem_filterMap.mp hc
  exact isSpace_of_isBlank (hb x hx) hsome

theorem ne_end_of_mem_shown {s : List Char} {c : Char} (hc : c ∈ shown s) : c ≠ '\n' ∧ c ≠ '\r' := by
  have hkept := List.mem_takeWhile_imp hc
  exact of_decide_eq_true hkept

theorem isSpace_shown {rest : List Symbol} (hr : ∀ x ∈ rest.head?, isBlank x = true) :
    ∀ c ∈ (shown (decode rest)).head?, isSpace c = true := by
  intro c hc
  cases rest with
  | nil => cases hc
  | cons x rest =>
      have hx : isBlank x = true := hr x rfl
      cases x with
      | none => cases hx
      | some a =>
          have ha := isSpace_of_isBlank hx rfl
          change c ∈ (shown (a :: decode rest)).head? at hc
          rw [shown, List.takeWhile_cons] at hc
          split_ifs at hc
          · rw [← Option.some.inj hc]
            exact ha
          · cases hc

theorem mem_found_of_spelled {s : List Char} (hd : d ∈ dangerousOvpnDirectives) (hs : Spelled d s)
    (hends : ∀ c ∈ s, c ≠ '\n' ∧ c ≠ '\r') : d ∈ found (universalNewlines s) := by
  have hdirective := directive_of_spelled hd hs
  have hne : s ≠ [] := by
    rintro rfl
    cases hdirective
  rw [universalNewlines_of_not_mem fun h => (hends '\r' h).2 rfl, found, lines,
    linesFrom_of_not_mem (fun h => (hends '\n' h).1 rfl) [] (.inr hne)]
  simp [hdirective]

theorem mem_found_of_shown {t s : List Char} (h : d ∈ found (universalNewlines (t ++ shown s))) :
    d ∈ found (universalNewlines (t ++ s)) := by
  let ends : Char → Bool := fun c => c ≠ '\n' ∧ c ≠ '\r'
  have hsplit : s = shown s ++ s.dropWhile ends := List.takeWhile_append_dropWhile.symm
  rw [hsplit, ← List.append_assoc]
  cases hdrop : s.dropWhile ends with
  | nil => simpa using h
  | cons c more =>
      have hc : c = '\n' ∨ c = '\r' := by
        have hnot := List.head?_dropWhile_not ends s
        rw [hdrop] at hnot
        have hcases : ¬(c ≠ '\n' ∧ c ≠ '\r') := by simpa [ends] using hnot
        tauto
      rw [found_append hc]
      exact List.mem_append_left _ h

theorem mem_found_of_token {blanks token rest : List Char} (hd : d ∈ dangerousOvpnDirectives)
    (hb : ∀ c ∈ blanks, isSpace c = true) (ht : ∀ c ∈ token, isSpace c = false) (hl : lower token = d.toList)
    (hr : ∀ c ∈ (shown rest).head?, isSpace c = true)
    (hauth : d = authUserPass → ∃ c ∈ shown rest, isSpace c = false) :
    d ∈ found (universalNewlines (blanks ++ (token ++ rest))) := by
  have hspelled : Spelled d (token ++ shown rest) := ⟨[], token, shown rest, rfl, by simp, ht, hl, hr, hauth⟩
  have hends : ∀ c ∈ token ++ shown rest, c ≠ '\n' ∧ c ≠ '\r' := by
    intro c hc
    rcases List.mem_append.mp hc with hc | hc
    · have hspace := ht c hc
      constructor <;> rintro rfl <;> cases hspace
    · exact ne_end_of_mem_shown hc
  rw [found_append_blanks hb]
  exact mem_found_of_shown (mem_found_of_spelled hd hspelled hends)

theorem mem_found_of_plain {line : List Symbol} (hd : d ∈ dangerousOvpnDirectives) (hp : Plain d line) :
    d ∈ found (universalNewlines (decode line)) := by
  obtain ⟨-, -, -, hletters, hlower⟩ := directives_letters hd
  obtain ⟨blanks, rest, rfl, hb, hr, hauth⟩ := hp
  rw [decode_append, decode_append, symbols, decode_map_some]
  exact mem_found_of_token hd (isSpace_decode hb) hletters hlower (isSpace_shown hr) hauth

theorem head?_shown {s : List Char} {c : Char} (h : c ∈ (shown s).head?) : c ∈ s.head? := by
  cases s with
  | nil => exact h
  | cons a s =>
      rw [shown, List.takeWhile_cons] at h
      split_ifs at h
      · exact h
      · cases h

theorem shown_append {s : List Char} (hs : ∀ c ∈ s, c ≠ '\n' ∧ c ≠ '\r') (t : List Char) :
    shown (s ++ t) = s ++ shown t :=
  List.takeWhile_append_of_pos fun c hc => decide_eq_true (hs c hc)

/-- The audit names what the text has legibly, and nothing else. -/
theorem mem_found_iff {text : List Char} (hd : d ∈ dangerousOvpnDirectives) :
    d ∈ found (universalNewlines text) ↔ Legible d text := by
  constructor
  · intro h
    obtain ⟨line, hline, hdir⟩ := List.mem_filterMap.mp h
    obtain ⟨before, s, after, rfl, hbefore, hends, hsame, hafter⟩ := exists_of_mem_lines hline
    have hdirs : directive s = some d := by
      rcases hsame with rfl | rfl
      · exact hdir
      · rwa [directive_append_newline] at hdir
    obtain ⟨-, blanks, token, rest, rfl, hb, ht, hl, hr, hauth⟩ := spelled_of_directive hdirs
    have hrest : ∀ c ∈ rest, c ≠ '\n' ∧ c ≠ '\r' := fun c hc =>
      hends c (List.mem_append_right _ (List.mem_append_right _ hc))
    refine ⟨before, blanks, token, rest ++ after, by simp, hbefore, hb, ht, hl, ?_, fun ha => ?_⟩
    · intro c hc
      cases rest with
      | nil => rcases hafter c hc with rfl | rfl <;> rfl
      | cons => exact hr c hc
    · obtain ⟨c, hc, hspace⟩ := hauth ha
      exact ⟨c, shown_append hrest after ▸ List.mem_append_left _ hc, hspace⟩
  · rintro ⟨before, blanks, token, rest, rfl, hbefore, hb, ht, hl, hr, hauth⟩
    have hfound := mem_found_of_token hd hb ht hl (fun c hc => hr c (head?_shown hc)) hauth
    rcases hbefore with rfl | ⟨s, c, rfl, hc⟩
    · exact hfound
    · rw [List.append_assoc, List.singleton_append, found_append hc]
      exact List.mem_append_right _ hfound

theorem mem_found_of_rawLines {content line : List Symbol} (hl : line ∈ rawLines [] content)
    (hf : d ∈ found (universalNewlines (decode line))) :
    d ∈ found (universalNewlines (decode content)) := by
  obtain ⟨before, after, heq, hbefore, hafter⟩ := exists_of_mem_rawLines hl
  obtain rfl : content = before ++ (line ++ after) := heq
  have hline : d ∈ found (universalNewlines (decode (line ++ after))) := by
    rcases hafter with rfl | ⟨s, rfl⟩
    · simpa using hf
    · rw [decode_append] at hf
      rw [List.append_assoc, decode_append]
      have hs : d ∈ found (universalNewlines (decode s)) := by
        rcases List.mem_append.mp (found_append (.inl rfl) (decode s) [] ▸ hf) with h | h
        · exact h
        · cases h
      change d ∈ found (universalNewlines (decode s ++ '\n' :: decode after))
      rw [found_append (.inl rfl)]
      exact List.mem_append_left _ hs
  rcases hbefore with rfl | ⟨s, rfl⟩
  · exact hline
  · rw [List.append_assoc, decode_append]
    change d ∈ found (universalNewlines (decode s ++ '\n' :: decode (line ++ after)))
    rw [found_append (.inl rfl)]
    exact List.mem_append_right _ hline

theorem dashed_of_bypassDoubledash {word : List Symbol} {d : String} (h : bypassDoubledash word = symbols d) :
    word = symbols d ∨ word = symbols "--" ++ symbols d := by
  rw [← h]
  unfold bypassDoubledash
  split
  · exact .inr rfl
  · exact .inl rfl

theorem plain_or_disguised_bare {escapable : Symbol → Bool} {blanks cs first : List Symbol} {c : Symbol}
    {arguments : List (List Symbol)} (hb : ∀ x ∈ blanks, isBlank x = true)
    (hp : lex escapable .bare [c] cs = some (first :: arguments)) (hfirst : bypassDoubledash first = symbols d)
    (raw : List Symbol) : Plain d (blanks ++ c :: cs) ∨ Disguised d (raw, blanks ++ c :: cs) := by
  rcases bare_cases hp with ⟨s, after, hword, rfl, hafter⟩ | ⟨s, after, hprefix, rfl⟩
  · rw [List.reverse_singleton, List.singleton_append] at hword
    rw [← List.cons_append, ← hword]
    rcases dashed_of_bypassDoubledash hfirst with rfl | rfl
    · by_cases hlost : d = authUserPass ∧ ∀ c ∈ shown (decode after), isSpace c = true
      · exact .inr (.argument _ _ after hb hlost.1 hlost.2)
      · refine .inl ⟨_, after, rfl, hb, hafter, fun ha => ?_⟩
        by_contra hnone
        refine hlost ⟨ha, fun c hc => ?_⟩
        by_contra hspace
        exact hnone ⟨c, hc, by simpa using hspace⟩
    · rw [List.append_assoc]
      exact .inr (.dashed _ _ _ hb)
  · rw [List.reverse_singleton, List.singleton_append] at hprefix
    rw [← List.cons_append]
    refine .inr (.escaped _ _ after hb ?_)
    rcases dashed_of_bypassDoubledash hfirst with rfl | rfl
    · exact .inl hprefix
    · exact .inr hprefix

/-- A line on which a directive is read has it in plain letters, or is disguised. -/
theorem plain_or_disguised {escapable : Symbol → Bool} {raw read : List Symbol}
    (hraw : read = raw ∨ raw = some '\uFEFF' :: read) (h : Reads escapable read d) :
    Plain d raw ∨ Disguised d (raw, read) := by
  rcases hraw with rfl | rfl
  swap
  · exact .inr (.marked read)
  obtain ⟨first, arguments, hp, hfirst, -⟩ := h
  have hb : ∀ x ∈ read.takeWhile isBlank, isBlank x = true := fun x hx => List.mem_takeWhile_imp hx
  have hread : read.takeWhile isBlank ++ read.dropWhile isBlank = read := List.takeWhile_append_dropWhile
  rw [parameters, ← hread, lex_blanks hb] at hp
  cases hrest : read.dropWhile isBlank with
  | nil =>
      rw [hrest, lex] at hp
      cases hp
  | cons c cs =>
      have hc := List.head?_dropWhile_not isBlank read
      rw [hrest] at hc hp hread
      rw [← hread]
      by_cases hslash : c = some '\\'
      · subst hslash
        exact .inr (@Disguised.escaped _ _ _ cs [] hb (.inl List.nil_prefix))
      by_cases hquote : c = some '"' ∨ c = some '\''
      · exact .inr (.quoted _ _ cs hb hquote)
      · obtain ⟨hdouble, hsingle⟩ := not_or.mp hquote
        rw [lex_between_cons hslash (by simpa using hc), if_neg hdouble, if_neg hsingle] at hp
        split_ifs at hp
        · cases hp
        · exact plain_or_disguised_bare hb hp hfirst _

/-- The audit names every directive that is read exactly when each that is read in disguise
also stands in the file where the audit can read it. -/
theorem audited_iff (escapable : Symbol → Bool) (content : List Symbol) :
    Audited escapable content ↔ ∀ d ∈ dangerousOvpnDirectives, ∀ line ∈ fileLines content,
      Reads escapable line.2 d → Disguised d line → Legible d (decode content) := by
  refine ⟨fun h d hd line hl hr _ => ?_, fun h d hd line hl hr => ?_⟩
  · exact (mem_found_iff hd).mp (mem_audit_iff.mp (h d hd line hl hr))
  · rw [mem_audit_iff]
    rcases plain_or_disguised (read_of_mem_fileLines hl) hr with hp | hdis
    · exact mem_found_of_rawLines (exists_of_mem_fileLines hl) (mem_found_of_plain hd hp)
    · exact (mem_found_iff hd).mpr (h d hd line hl hr hdis)

def escapable (x : Symbol) : Bool := x = some '\\' || x = some '"' || isBlank x

/-- A directive between quotation marks, with dashes, behind a byte order mark, behind an
escaped blank, and with its argument behind a carriage return or in bytes that are no text. -/
theorem other_spellings_missed :
    ¬Audited escapable (symbols "\"up\" /x\n") ∧ ¬Audited escapable (symbols "--up /x\n") ∧
      ¬Audited escapable (symbols "\uFEFFup /x\n") ∧ ¬Audited escapable (symbols "\\ up /x\n") ∧
        ¬Audited escapable (symbols "auth-user-pass\r/x\n") ∧
          ¬Audited escapable (symbols "auth-user-pass " ++ [none]) := by
  have hmissed {d : String} {content : List Symbol} (hd : d ∈ dangerousOvpnDirectives)
      (hr : ∃ line ∈ fileLines content, Reads escapable line.2 d)
      (hn : d ∉ auditOvpnContent (some (decode content))) : ¬Audited escapable content := by
    obtain ⟨line, hl, hr⟩ := hr
    exact fun h => hn (h d hd line hl hr)
  have hup {content : List Symbol} (hr : ∃ line ∈ fileLines content, ∃ first arguments,
      parameters escapable line.2 = some (first :: arguments) ∧ bypassDoubledash first = symbols "up")
      (hn : "up" ∉ auditOvpnContent (some (decode content))) : ¬Audited escapable content := by
    obtain ⟨line, hl, first, arguments, hp, hfirst⟩ := hr
    have hkey : ¬"up" = authUserPass := by decide
    exact hmissed (by decide) ⟨line, hl, first, arguments, hp, hfirst, fun h => absurd h hkey⟩ hn
  have hauth {content : List Symbol} (hr : ∃ line ∈ fileLines content, ∃ first argument,
      parameters escapable line.2 = some [first, argument] ∧ bypassDoubledash first = symbols authUserPass)
      (hn : authUserPass ∉ auditOvpnContent (some (decode content))) : ¬Audited escapable content := by
    obtain ⟨line, hl, first, argument, hp, hfirst⟩ := hr
    exact hmissed (by decide) ⟨line, hl, first, [argument], hp, hfirst, fun _ => List.cons_ne_nil _ _⟩ hn
  refine ⟨hup ?_ (by decide), hup ?_ (by decide), hup ?_ (by decide), hup ?_ (by decide),
    hauth ?_ (by decide), hauth ?_ (by decide)⟩
  · exact ⟨_, List.mem_cons_self, symbols "up", [symbols "/x"], by decide, rfl⟩
  · exact ⟨_, List.mem_cons_self, symbols "--up", [symbols "/x"], by decide, rfl⟩
  · exact ⟨_, List.mem_cons_self, symbols "up", [symbols "/x"], by decide, rfl⟩
  · exact ⟨_, List.mem_cons_self, symbols "up", [symbols "/x"], by decide, rfl⟩
  · exact ⟨_, List.mem_cons_self, symbols authUserPass, symbols "/x", by decide, rfl⟩
  · exact ⟨_, List.mem_cons_self, symbols authUserPass, [none], by decide, rfl⟩

end EovpnPro.AuditSpelling
