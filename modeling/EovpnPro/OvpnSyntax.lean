import Mathlib.Data.List.Basic

namespace EovpnPro.OvpnSyntax

/-- A character of a file, or a byte that is no part of one. -/
abbrev Symbol := Option Char

def decode (content : List Symbol) : List Char := content.filterMap id

def isBlank : Symbol → Bool
  | some c => c = ' ' || (9 ≤ c.toNat && c.toNat ≤ 13)
  | none => false

inductive Mode
  | between
  | bare
  | double
  | single
  deriving DecidableEq, Repr

/-- The parameters of a line of a configuration file. Outside single quotes a backslash
takes the next character as it is, if that is one that may be escaped; otherwise the line
is refused, as it is for a quotation that is not closed. Between parameters a blank is
skipped and a comment begins with a backslash before it or without. -/
def lex (escapable : Symbol → Bool) : Mode → List Symbol → List Symbol → Option (List (List Symbol))
  | .between, _, [] => some []
  | .bare, word, [] => some [word.reverse]
  | .double, _, [] | .single, _, [] => none
  | .single, word, c :: cs =>
      if c = some '\'' then (lex escapable .between [] cs).map (word.reverse :: ·)
      else lex escapable .single (c :: word) cs
  | .between, _, [some '\\'] => some []
  | .bare, _, [some '\\'] | .double, _, [some '\\'] => none
  | .between, _, some '\\' :: e :: cs =>
      if isBlank e then lex escapable .between [] cs
      else if e = some '#' ∨ e = some ';' then some []
      else if escapable e then lex escapable .bare [e] cs
      else none
  | mode, word, some '\\' :: e :: cs => if escapable e then lex escapable mode (e :: word) cs else none
  | .between, _, c :: cs =>
      if isBlank c then lex escapable .between [] cs
      else if c = some '#' ∨ c = some ';' then some []
      else if c = some '"' then lex escapable .double [] cs
      else if c = some '\'' then lex escapable .single [] cs
      else lex escapable .bare [c] cs
  | .bare, word, c :: cs =>
      if isBlank c then (lex escapable .between [] cs).map (word.reverse :: ·)
      else lex escapable .bare (c :: word) cs
  | .double, word, c :: cs =>
      if c = some '"' then (lex escapable .between [] cs).map (word.reverse :: ·)
      else lex escapable .double (c :: word) cs

def parameters (escapable : Symbol → Bool) (line : List Symbol) : Option (List (List Symbol)) :=
  lex escapable .between [] line

def bypassDoubledash : List Symbol → List Symbol
  | some '-' :: some '-' :: c :: rest => c :: rest
  | word => word

def rawLines (line : List Symbol) : List Symbol → List (List Symbol)
  | [] => if line = [] then [] else [line.reverse]
  | c :: cs =>
      if c = some '\n' then (c :: line).reverse :: rawLines [] cs else rawLines (c :: line) cs

def dropBom : List Symbol → List Symbol
  | some '\uFEFF' :: rest => rest
  | line => line

def fileLines (content : List Symbol) : List (List Symbol × List Symbol) :=
  match rawLines [] content with
  | [] => []
  | first :: rest => (first, dropBom first) :: rest.map fun line => (line, line)

section

variable {escapable : Symbol → Bool} {mode : Mode} {word line first : List Symbol} {rest : List (List Symbol)}

/-- What is still to come of a word stands in the line, unless something is escaped in it. -/
theorem word_of_lex (hmode : mode ≠ .between) (h : lex escapable mode word line = some (first :: rest)) :
    ∃ s, first = word.reverse ++ s ∧ ((∃ after, line = s ++ after) ∨ ∃ x ∈ s, escapable x = true) := by
  fun_induction lex escapable mode word line with
  | case1 | case7 | case10 | case11 | case12 | case13 | case16 | case17 | case18 | case19 | case20 =>
      exact absurd rfl hmode
  | case2 word =>
      obtain ⟨rfl, -⟩ := List.cons.inj (Option.some.inj h)
      exact ⟨[], (List.append_nil _).symm, .inl ⟨[], rfl⟩⟩
  | case3 | case4 | case8 | case9 | case15 => cases h
  | case5 word cs | case21 word c cs | case23 word cs =>
      obtain ⟨_, -, hfirst⟩ := Option.map_eq_some_iff.mp h
      obtain ⟨rfl, -⟩ := List.cons.inj hfirst
      exact ⟨[], (List.append_nil _).symm, .inl ⟨_, rfl⟩⟩
  | case6 word c cs _ ih | case22 word c cs _ _ _ ih | case24 word c cs _ _ _ ih =>
      obtain ⟨s, hfirst, hs⟩ := ih (fun he => by cases he) h
      refine ⟨c :: s, by rw [hfirst, List.reverse_cons, List.append_assoc]; rfl, ?_⟩
      rcases hs with ⟨after, rfl⟩ | ⟨x, hx, hescapable⟩
      · exact .inl ⟨after, rfl⟩
      · exact .inr ⟨x, List.mem_cons_of_mem c hx, hescapable⟩
  | case14 mode word e cs _ _ hescapable ih =>
      obtain ⟨s, hfirst, -⟩ := ih hmode h
      refine ⟨e :: s, by rw [hfirst, List.reverse_cons, List.append_assoc]; rfl, ?_⟩
      exact .inr ⟨e, List.mem_cons_self, hescapable⟩

theorem exists_of_lex (hmode : mode ≠ .between) (h : lex escapable mode word line = some (first :: rest))
    (hplain : ∀ x ∈ first, escapable x = false) :
    ∃ s after, first = word.reverse ++ s ∧ line = s ++ after := by
  obtain ⟨s, rfl, ⟨after, rfl⟩ | ⟨x, hx, hescapable⟩⟩ := word_of_lex hmode h
  · exact ⟨s, after, rfl, rfl⟩
  · rw [hplain x (List.mem_append_right _ hx)] at hescapable
    cases hescapable

theorem lex_bare_cons {c : Symbol} (hc : c ≠ some '\\') (word cs : List Symbol) :
    lex escapable .bare word (c :: cs) =
      if isBlank c then (lex escapable .between [] cs).map (word.reverse :: ·)
      else lex escapable .bare (c :: word) cs := by
  rw [lex]
  · exact fun h _ => hc h
  · exact fun _ _ h _ => hc h

theorem lex_between_cons {c : Symbol} (hc : c ≠ some '\\') (hb : isBlank c = false) (cs : List Symbol) :
    lex escapable .between word (c :: cs) =
      if c = some '#' ∨ c = some ';' then some []
      else if c = some '"' then lex escapable .double [] cs
      else if c = some '\'' then lex escapable .single [] cs
      else lex escapable .bare [c] cs := by
  rw [lex, if_neg (by rw [hb]; decide)]
  · exact fun h _ => hc h
  · exact fun _ _ h _ => hc h

theorem lex_blanks {blanks : List Symbol} (hb : ∀ x ∈ blanks, isBlank x = true) (line : List Symbol) :
    lex escapable .between [] (blanks ++ line) = lex escapable .between [] line := by
  induction blanks with
  | nil => rfl
  | cons x blanks ih =>
      obtain ⟨hx, hb⟩ := List.forall_mem_cons.mp hb
      have hne : x ≠ some '\\' := by
        rintro rfl
        cases hx
      rw [List.cons_append, lex, if_pos hx, ih hb]
      · exact fun h _ => hne h
      · exact fun _ _ h _ => hne h

/-- A word without quotation marks stands in the line up to a blank or the end, or else up
to its first backslash. -/
theorem bare_cases (h : lex escapable .bare word line = some (first :: rest)) :
    (∃ s after, first = word.reverse ++ s ∧ line = s ++ after ∧ ∀ x ∈ after.head?, isBlank x = true) ∨
      ∃ s after, word.reverse ++ s <+: first ∧ line = s ++ some '\\' :: after := by
  induction line generalizing word with
  | nil =>
      rw [lex] at h
      obtain ⟨rfl, -⟩ := List.cons.inj (Option.some.inj h)
      exact .inl ⟨[], [], (List.append_nil _).symm, rfl, nofun⟩
  | cons c cs ih =>
      by_cases hc : c = some '\\'
      · subst hc
        obtain ⟨s, rfl, -⟩ := word_of_lex (fun he => by cases he) h
        exact .inr ⟨[], cs, by simp, rfl⟩
      · rw [lex_bare_cons hc] at h
        split_ifs at h with hb
        · obtain ⟨_, -, hfirst⟩ := Option.map_eq_some_iff.mp h
          obtain ⟨rfl, -⟩ := List.cons.inj hfirst
          refine .inl ⟨[], c :: cs, (List.append_nil _).symm, rfl, fun x hx => ?_⟩
          obtain rfl := Option.some.inj hx
          exact hb
        · rcases ih h with ⟨s, after, rfl, rfl, hafter⟩ | ⟨s, after, hp, rfl⟩
          · exact .inl ⟨c :: s, after, by simp, rfl, hafter⟩
          · exact .inr ⟨c :: s, after, by simpa using hp, rfl⟩

/-- The first parameter of a line, if nothing is escaped in it, stands in the line behind blanks,
backslashes and a quotation mark at most. -/
theorem exists_of_parameters (h : parameters escapable line = some (first :: rest))
    (hplain : ∀ x ∈ first, escapable x = false) :
    ∃ before after, line = before ++ (first ++ after) ∧
      ∀ x ∈ before, isBlank x = true ∨ x = some '"' ∨ x = some '\'' ∨ x = some '\\' := by
  rw [parameters] at h
  generalize hmode : Mode.between = mode at h
  generalize ([] : List Symbol) = word at h
  fun_induction lex escapable mode word line with
  | case1 | case7 | case11 | case13 | case17 => cases h
  | case2 | case3 | case4 | case5 | case6 | case8 | case9 | case21 | case22 | case23 | case24 => cases hmode
  | case14 mode word e cs _ hbetween => exact absurd hmode.symm hbetween
  | case15 => cases h
  | case10 word e cs hblank ih =>
      obtain ⟨before, after, rfl, hbefore⟩ := ih rfl h
      exact ⟨some '\\' :: e :: before, after, rfl,
        List.forall_mem_cons.mpr ⟨.inr (.inr (.inr rfl)), List.forall_mem_cons.mpr ⟨.inl hblank, hbefore⟩⟩⟩
  | case12 word e cs _ _ hescapable =>
      obtain ⟨s, after, rfl, rfl⟩ := exists_of_lex (by nofun) h hplain
      rw [hplain e (by simp)] at hescapable
      cases hescapable
  | case16 word c cs _ _ hblank ih =>
      obtain ⟨before, after, rfl, hbefore⟩ := ih rfl h
      exact ⟨c :: before, after, rfl, List.forall_mem_cons.mpr ⟨.inl hblank, hbefore⟩⟩
  | case18 word cs | case19 word cs =>
      obtain ⟨s, after, rfl, rfl⟩ := exists_of_lex (by nofun) h hplain
      exact ⟨[_], after, rfl, by simp⟩
  | case20 word c cs =>
      obtain ⟨s, after, rfl, rfl⟩ := exists_of_lex (by nofun) h hplain
      exact ⟨[], after, rfl, by simp⟩

end

theorem decode_append (s t : List Symbol) : decode (s ++ t) = decode s ++ decode t := List.filterMap_append

theorem exists_of_mem_rawLines {line found content : List Symbol} (h : found ∈ rawLines line content) :
    ∃ before after, line.reverse ++ content = before ++ (found ++ after) ∧
      (before = [] ∨ ∃ s, before = s ++ [some '\n']) ∧ (after = [] ∨ ∃ s, found = s ++ [some '\n']) := by
  induction content generalizing line with
  | nil =>
      rw [rawLines] at h
      split_ifs at h
      · cases h
      · obtain rfl := List.mem_singleton.mp h
        exact ⟨[], [], by simp, .inl rfl, .inl rfl⟩
  | cons c cs ih =>
      rw [rawLines] at h
      split_ifs at h with hc
      · rcases List.mem_cons.mp h with rfl | h
        · exact ⟨[], cs, by simp, .inl rfl, .inr ⟨line.reverse, by rw [List.reverse_cons, hc]⟩⟩
        · obtain ⟨before, after, heq, hbefore, hafter⟩ := ih h
          rw [List.reverse_nil, List.nil_append] at heq
          refine ⟨line.reverse ++ c :: before, after, by simp [heq], .inr ?_, hafter⟩
          rcases hbefore with rfl | ⟨s, rfl⟩
          · exact ⟨line.reverse, by rw [hc]⟩
          · exact ⟨line.reverse ++ c :: s, by simp⟩
      · obtain ⟨before, after, heq, hbefore, hafter⟩ := ih h
        refine ⟨before, after, ?_, hbefore, hafter⟩
        rw [← heq, List.reverse_cons, List.append_assoc]
        rfl

theorem exists_of_mem_fileLines {content raw read : List Symbol} (h : (raw, read) ∈ fileLines content) :
    raw ∈ rawLines [] content := by
  rw [fileLines] at h
  cases hl : rawLines [] content with
  | nil => rw [hl] at h; cases h
  | cons first rest =>
      rw [hl] at h
      rcases List.mem_cons.mp h with h | h
      · rw [(Prod.mk.inj h).1]
        exact List.mem_cons_self
      · obtain ⟨line, hline, hsame⟩ := List.mem_map.mp h
        rw [← (Prod.mk.inj hsame).1]
        exact List.mem_cons_of_mem _ hline

theorem read_of_mem_fileLines {content raw read : List Symbol} (h : (raw, read) ∈ fileLines content) :
    read = raw ∨ raw = some '\uFEFF' :: read := by
  have hdrop (line : List Symbol) : dropBom line = line ∨ line = some '\uFEFF' :: dropBom line := by
    unfold dropBom
    split
    · exact .inr rfl
    · exact .inl rfl
  rw [fileLines] at h
  cases hl : rawLines [] content with
  | nil => rw [hl] at h; cases h
  | cons first rest =>
      rw [hl] at h
      rcases List.mem_cons.mp h with h | h
      · obtain ⟨rfl, rfl⟩ := Prod.mk.inj h
        exact hdrop raw
      · obtain ⟨line, -, hsame⟩ := List.mem_map.mp h
        obtain ⟨rfl, rfl⟩ := Prod.mk.inj hsame
        exact .inl rfl

end EovpnPro.OvpnSyntax
