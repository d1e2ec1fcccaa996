import Mathlib.Data.List.Infix

namespace EovpnPro.PyText

/-- The characters that `str.strip()` and `str.split()` treat as blank. -/
def isSpace (c : Char) : Bool :=
  let n := c.toNat
  (9 ≤ n && n ≤ 13) || (28 ≤ n && n ≤ 32) || n == 0x85 || n == 0xa0 || n == 0x1680 ||
    (0x2000 ≤ n && n ≤ 0x200a) || n == 0x2028 || n == 0x2029 || n == 0x202f || n == 0x205f || n == 0x3000

/-- `str.lower()` as far as ASCII letters can appear in its result: besides the
ASCII capitals only the Kelvin sign and the dotted capital I lower to a text
with an ASCII letter in it. -/
def lowerChar (c : Char) : List Char :=
  if c.toNat = 0x212a then ['k']
  else if c.toNat = 0x130 then ['i', Char.ofNat 0x307]
  else [c.toLower]

def lower (s : List Char) : List Char := s.flatMap lowerChar

def lstrip (s : List Char) : List Char := s.dropWhile isSpace

def rstrip (s : List Char) : List Char := (s.reverse.dropWhile isSpace).reverse

def strip (s : List Char) : List Char := rstrip (lstrip s)

def splitFrom (word : List Char) : List Char → List (List Char)
  | [] => if word = [] then [] else [word.reverse]
  | c :: cs =>
      if isSpace c then (if word = [] then splitFrom [] cs else word.reverse :: splitFrom [] cs)
      else splitFrom (c :: word) cs

def split (s : List Char) : List (List Char) := splitFrom [] s

/-- Universal newlines: every line end reads as a line feed. -/
def universalNewlines : List Char → List Char
  | [] => []
  | '\r' :: '\n' :: cs => '\n' :: universalNewlines cs
  | '\r' :: cs => '\n' :: universalNewlines cs
  | c :: cs => c :: universalNewlines cs

def linesFrom (line : List Char) : List Char → List (List Char)
  | [] => if line = [] then [] else [line.reverse]
  | c :: cs => if c = '\n' then (c :: line).reverse :: linesFrom [] cs else linesFrom (c :: line) cs

def lines (s : List Char) : List (List Char) := linesFrom [] s

def occursIn (needle : String) (text : List Char) : Bool := decide (needle.toList <:+: text)

theorem toLower_cases (c : Char) :
    c.toLower = c ∨ (65 ≤ c.toNat ∧ c.toNat ≤ 90) ∧ c.toLower.toNat = c.toNat + 32 := by
  by_cases hc : 65 ≤ c.toNat ∧ c.toNat ≤ 90
  · refine .inr ⟨hc, ?_⟩
    have hv : c.val ≥ 'A'.val ∧ c.val ≤ 'Z'.val := hc
    have ha : (c.val + ('a'.val - 'A'.val)).toNat = c.toNat + 32 := by
      rw [UInt32.toNat_add]
      exact Nat.mod_eq_of_lt (by change c.toNat + 32 < _; omega)
    exact (congrArg Char.toNat (dif_pos hv)).trans ha
  · have hv : ¬(c.val ≥ 'A'.val ∧ c.val ≤ 'Z'.val) := hc
    exact .inl (dif_neg hv)

/-- Lowering neither makes nor removes a character that is no letter. -/
theorem mem_lower {c : Char} (hc : c.toNat < 65 ∨ (90 < c.toNat ∧ c.toNat < 97)) {s : List Char} :
    c ∈ lower s ↔ c ∈ s := by
  have hchar (d : Char) : c ∈ lowerChar d ↔ d = c := by
    simp only [lowerChar]
    split_ifs with hk hi
    · refine iff_of_false (fun h => ?_) fun h => ?_
      · rw [List.mem_singleton.mp h] at hc
        revert hc
        decide
      · rw [h] at hk
        omega
    · refine iff_of_false (fun h => ?_) fun h => ?_
      · rcases List.mem_cons.mp h with h | h
        · rw [h] at hc
          revert hc
          decide
        · rw [List.mem_singleton.mp h] at hc
          revert hc
          decide
      · rw [h] at hi
        omega
    · rw [List.mem_singleton]
      obtain h | ⟨hd, h⟩ := toLower_cases d
      · rw [h, eq_comm]
      · refine iff_of_false (fun he => ?_) fun he => ?_
        · rw [he] at hc
          omega
        · rw [he] at hd
          omega
  simp only [lower, List.mem_flatMap, hchar, exists_eq_right]

theorem lowerChar_of_mem {c d : Char} (h : c ∈ lowerChar d) : lowerChar c = [c] := by
  simp only [lowerChar] at h
  split_ifs at h with hk hi
  · rw [List.mem_singleton.mp h]
    decide
  · rcases List.mem_cons.mp h with h | h
    · rw [h]
      decide
    · rw [List.mem_singleton.mp h]
      decide
  · obtain rfl := List.mem_singleton.mp h
    obtain hd | ⟨hd, hn⟩ := toLower_cases d
    · rw [hd, lowerChar, if_neg hk, if_neg hi, hd]
    · obtain hl | ⟨hl, -⟩ := toLower_cases d.toLower
      · rw [lowerChar, if_neg (by omega), if_neg (by omega), hl]
      · omega

theorem lower_append (s t : List Char) : lower (s ++ t) = lower s ++ lower t := List.flatMap_append

theorem lower_lower (s : List Char) : lower (lower s) = lower s := by
  have hchar {t : List Char} (h : ∀ c ∈ t, lowerChar c = [c]) : t.flatMap lowerChar = t := by
    induction t with
    | nil => rfl
    | cons c t ih =>
        obtain ⟨hc, h⟩ := List.forall_mem_cons.mp h
        rw [List.flatMap_cons, hc, ih h, List.singleton_append]
  refine hchar fun c hc => ?_
  obtain ⟨d, -, hd⟩ := List.mem_flatMap.mp hc
  exact lowerChar_of_mem hd

theorem strip_append_space {c : Char} (hc : isSpace c = true) (s : List Char) :
    strip (s ++ [c]) = strip s := by
  have hs : strip [c] = [] := by simp [strip, lstrip, rstrip, hc]
  simp only [strip, lstrip, List.dropWhile_append]
  split_ifs with he
  · rw [List.isEmpty_iff.mp he]
    exact hs
  · simp only [rstrip, List.reverse_append, List.reverse_singleton, List.singleton_append,
      List.dropWhile_cons_of_pos hc]

theorem mem_universalNewlines {c : Char} {s : List Char} (h : c ∈ universalNewlines s) :
    c = '\n' ∨ c ∈ s ∧ c ≠ '\r' := by
  fun_induction universalNewlines s with
  | case1 => cases h
  | case2 s ih =>
      rcases List.mem_cons.mp h with rfl | h
      · exact .inl rfl
      · exact (ih h).imp_right fun ⟨hs, hc⟩ => ⟨List.mem_cons_of_mem _ (List.mem_cons_of_mem _ hs), hc⟩
  | case3 s _ ih =>
      rcases List.mem_cons.mp h with rfl | h
      · exact .inl rfl
      · exact (ih h).imp_right fun ⟨hs, hc⟩ => ⟨List.mem_cons_of_mem _ hs, hc⟩
  | case4 a s _ hreturn ih =>
      rcases List.mem_cons.mp h with rfl | h
      · exact .inr ⟨List.mem_cons_self, fun he => hreturn he⟩
      · exact (ih h).imp_right fun ⟨hs, hc⟩ => ⟨List.mem_cons_of_mem _ hs, hc⟩

theorem not_mem_universalNewlines (s : List Char) : '\r' ∉ universalNewlines s := by
  intro h
  rcases mem_universalNewlines h with hc | ⟨-, hc⟩
  · cases hc
  · exact hc rfl

/-- A filter that does not look at blanks at the end of a line reads a text one
line feed at a time. -/
theorem filterMap_linesFrom_append {β : Type} {f : List Char → Option β} (hf : ∀ w, f (w ++ ['\n']) = f w)
    (hnil : f [] = none) (line s t : List Char) :
    (linesFrom line (s ++ '\n' :: t)).filterMap f = (linesFrom line s).filterMap f ++
    (lines t).filterMap f := by
  induction s generalizing line with
  | nil =>
      have hl : f ('\n' :: line).reverse = f line.reverse := by rw [List.reverse_cons, hf]
      by_cases he : line = []
      · subst he
        have hb : f ['\n'] = none := by rw [← hnil]; exact hf []
        simp [linesFrom, lines, hb]
      · simp only [List.nil_append, linesFrom, if_true, if_neg he, lines, List.filterMap_cons, hl,
          List.filterMap_nil]
        cases f line.reverse <;> rfl
  | cons c cs ih =>
      simp only [List.cons_append, linesFrom]
      split_ifs with hc
      · simp only [List.filterMap_cons, ih]
        cases f (c :: line).reverse <;> rfl
      · exact ih _

theorem filterMap_lines_append {β : Type} {f : List Char → Option β} (hf : ∀ w, f (w ++ ['\n']) = f w)
    (hnil : f [] = none) (s t : List Char) :
    (lines (s ++ '\n' :: t)).filterMap f = (lines s).filterMap f ++ (lines t).filterMap f :=
  filterMap_linesFrom_append hf hnil [] s t

/-- Only a line end of two characters stops two texts from being read apart. -/
theorem universalNewlines_append_apart {s t : List Char} (h : s.getLast? = some '\r' → t.head? ≠ some '\n') :
    universalNewlines (s ++ t) = universalNewlines s ++ universalNewlines t := by
  have hrest {a : Char} {s : List Char} (h : (a :: s).getLast? = some '\r' → t.head? ≠ some '\n') :
      s.getLast? = some '\r' → t.head? ≠ some '\n' := fun hs => h (by simp [List.getLast?_cons, hs])
  fun_induction universalNewlines s with
  | case1 => rfl
  | case2 s ih => rw [List.cons_append, List.cons_append, universalNewlines.eq_2, ih (hrest (hrest h)), List.cons_append]
  | case3 s hs ih =>
      rw [List.cons_append, universalNewlines.eq_3, ih (hrest h), List.cons_append]
      intro u hu
      cases s with
      | nil =>
          obtain rfl : t = '\n' :: u := hu
          exact h rfl rfl
      | cons a s => exact hs s (by rw [(List.cons.inj hu).1])
  | case4 a s h1 h2 ih =>
      rw [List.cons_append, universalNewlines.eq_4 _ _ (fun _ ha _ => h2 ha) h2, ih (hrest h), List.cons_append]

/-- Texts that `universalNewlines` reads one after another, the line end between them aside. -/
theorem universalNewlines_append (s t : List Char) {c : Char} (hc : c = '\n' ∨ c = '\r') :
    universalNewlines (s ++ c :: t) = universalNewlines s ++ '\n' :: universalNewlines t ∨
      universalNewlines (s ++ c :: t) = universalNewlines s ++ universalNewlines t ∧
        ((∃ u, universalNewlines s = u ++ ['\n']) ∨ ∃ u, universalNewlines t = '\n' :: u) := by
  rcases hc with rfl | rfl
  · have hfeed : universalNewlines ('\n' :: t) = '\n' :: universalNewlines t :=
      universalNewlines.eq_4 _ _ (by simp) (by simp)
    by_cases hs : s.getLast? = some '\r'
    · obtain ⟨front, rfl⟩ := List.getLast?_eq_some_iff.mp hs
      have hend : universalNewlines (front ++ ['\r']) = universalNewlines front ++ ['\n'] :=
        universalNewlines_append_apart fun _ => by simp
      refine .inr ⟨?_, .inl ⟨_, hend⟩⟩
      rw [hend, List.append_assoc, List.append_assoc]
      exact universalNewlines_append_apart fun _ => by simp
    · exact .inl (hfeed ▸ universalNewlines_append_apart fun h => absurd h hs)
  · rw [universalNewlines_append_apart fun _ => by simp]
    cases t with
    | nil => exact .inl rfl
    | cons a t =>
        by_cases ha : a = '\n'
        · subst ha
          exact .inr ⟨rfl, .inr ⟨universalNewlines t, rfl⟩⟩
        · refine .inl (congrArg _ (universalNewlines.eq_3 _ fun u hu => ?_))
          exact ha (List.cons.inj hu).1

theorem universalNewlines_append_word {w : List Char} (hw : ∀ c ∈ w, c ≠ '\r') (t : List Char) :
    universalNewlines (w ++ t) = w ++ universalNewlines t := by
  induction w with
  | nil => rfl
  | cons c w ih =>
      obtain ⟨hc, hw⟩ := List.forall_mem_cons.mp hw
      rw [List.cons_append, universalNewlines.eq_4 _ _ (fun _ h _ => hc h) hc, ih hw, List.cons_append]

theorem universalNewlines_of_not_mem {s : List Char} (hs : '\r' ∉ s) : universalNewlines s = s := by
  have h := universalNewlines_append_word (fun c hc (he : c = '\r') => hs (he ▸ hc)) []
  rwa [List.append_nil, universalNewlines.eq_1, List.append_nil] at h

def EndsLine (s : List Char) : Prop := s = [] ∨ ∃ t c, s = t ++ [c] ∧ (c = '\n' ∨ c = '\r')

theorem linesFrom_of_not_mem {s : List Char} (hs : '\n' ∉ s) (line : List Char) (hne : line ≠ [] ∨ s ≠ []) :
    linesFrom line s = [line.reverse ++ s] := by
  induction s generalizing line with
  | nil => simp [linesFrom, hne.resolve_right fun h => h rfl]
  | cons c s ih =>
      obtain ⟨hc, hs⟩ := not_or.mp (mt List.mem_cons.mpr hs)
      rw [linesFrom, if_neg (Ne.symm hc), ih hs (c :: line) (.inl (List.cons_ne_nil c line)),
        List.reverse_cons, List.append_assoc]
      rfl

theorem linesFrom_append_newline {s : List Char} (hs : '\n' ∉ s) (line t : List Char) :
    linesFrom line (s ++ '\n' :: t) = (line.reverse ++ s ++ ['\n']) :: lines t := by
  induction s generalizing line with
  | nil => simp [linesFrom, lines]
  | cons c s ih =>
      obtain ⟨hc, hs⟩ := not_or.mp (mt List.mem_cons.mpr hs)
      rw [List.cons_append, linesFrom, if_neg (Ne.symm hc), ih hs (c :: line), List.reverse_cons,
        List.append_assoc, List.append_assoc, List.append_assoc]
      rfl

theorem mem_lines_append {line s : List Char} (hs : ∀ c ∈ s, c ≠ '\n' ∧ c ≠ '\r') {c : Char}
    (hc : c = '\n' ∨ c = '\r') (t : List Char) (h : line ∈ lines (universalNewlines (s ++ c :: t))) :
    line = s ++ ['\n'] ∨ line ∈ lines (universalNewlines t) := by
  have hfeed : '\n' ∉ s := fun hm => (hs _ hm).1 rfl
  have hsame : universalNewlines s = s := universalNewlines_of_not_mem fun hm => (hs _ hm).2 rfl
  rcases universalNewlines_append s t hc with hu | ⟨hu, ⟨u, hend⟩ | ⟨u, hbegin⟩⟩
  · rw [hu, hsame, lines, linesFrom_append_newline hfeed] at h
    exact List.mem_cons.mp h
  · rw [hsame] at hend
    exact absurd (hend ▸ List.mem_append_right u (List.mem_singleton_self _)) hfeed
  · rw [hu, hsame, hbegin, lines, linesFrom_append_newline hfeed] at h
    refine (List.mem_cons.mp h).imp id fun h => ?_
    rw [hbegin]
    exact List.mem_cons_of_mem _ h

theorem first_line (text : List Char) : (∀ c ∈ text, c ≠ '\n' ∧ c ≠ '\r') ∨
    ∃ s c t, text = s ++ c :: t ∧ (∀ x ∈ s, x ≠ '\n' ∧ x ≠ '\r') ∧ (c = '\n' ∨ c = '\r') := by
  induction text with
  | nil => exact .inl nofun
  | cons c text ih =>
      by_cases hc : c = '\n' ∨ c = '\r'
      · exact .inr ⟨[], c, text, rfl, nofun, hc⟩
      · have hne := not_or.mp hc
        rcases ih with hall | ⟨s, x, t, rfl, hs, hx⟩
        · exact .inl (List.forall_mem_cons.mpr ⟨hne, hall⟩)
        · exact .inr ⟨c :: s, x, t, rfl, List.forall_mem_cons.mpr ⟨hne, hs⟩, hx⟩

/-- A line that Python yields stands in the text between two line ends. -/
theorem exists_of_mem_lines {line text : List Char} (h : line ∈ lines (universalNewlines text)) :
    ∃ before s after, text = before ++ (s ++ after) ∧ EndsLine before ∧ (∀ c ∈ s, c ≠ '\n' ∧ c ≠ '\r') ∧
      (line = s ∨ line = s ++ ['\n']) ∧ ∀ c ∈ after.head?, c = '\n' ∨ c = '\r' := by
  induction hn : text.length using Nat.strongRecOn generalizing text with
  | _ n ih =>
      rcases first_line text with hall | ⟨s, c, t, rfl, hs, hc⟩
      · refine ⟨[], text, [], by simp, .inl rfl, hall, .inl ?_, nofun⟩
        rw [universalNewlines_of_not_mem fun hm => (hall _ hm).2 rfl, lines] at h
        by_cases hne : text = []
        · subst hne
          cases h
        · rw [linesFrom_of_not_mem (fun hm => (hall _ hm).1 rfl) [] (.inr hne)] at h
          exact List.mem_singleton.mp h
      · rcases mem_lines_append hs hc t h with rfl | h
        · refine ⟨[], s, c :: t, rfl, .inl rfl, hs, .inr rfl, fun x hx => ?_⟩
          exact Option.some.inj hx ▸ hc
        · have hlt : t.length < n := by
            rw [← hn, List.length_append, List.length_cons]
            omega
          obtain ⟨before, u, after, rfl, hbefore, hu⟩ := ih t.length hlt h rfl
          refine ⟨s ++ c :: before, u, after, by simp, ?_, hu⟩
          rcases hbefore with rfl | ⟨v, x, rfl, hx⟩
          · exact .inr ⟨s, c, rfl, hc⟩
          · exact .inr ⟨s ++ c :: v, x, by simp, hx⟩

theorem mem_linesFrom {line : List Char} (hne : line ≠ []) (t : List Char) :
    ∃ r, line.reverse ++ r ∈ linesFrom line t := by
  induction t generalizing line with
  | nil => exact ⟨[], by simp [linesFrom, hne]⟩
  | cons c t ih =>
      rw [linesFrom]
      split_ifs with hc
      · exact ⟨[c], by simp⟩
      · obtain ⟨r, hr⟩ := ih (List.cons_ne_nil c line)
        exact ⟨c :: r, by simpa using hr⟩

theorem mem_linesFrom_word {w : List Char} (hw : '\n' ∉ w) (line t : List Char) (hne : line ≠ [] ∨ w ≠ []) :
    ∃ r, line.reverse ++ (w ++ r) ∈ linesFrom line (w ++ t) := by
  induction w generalizing line with
  | nil => exact mem_linesFrom (hne.resolve_right fun h => h rfl) t
  | cons c w ih =>
      obtain ⟨hc, hw⟩ := not_or.mp (mt List.mem_cons.mpr hw)
      obtain ⟨r, hr⟩ := ih hw (c :: line) (.inl (List.cons_ne_nil c line))
      rw [List.cons_append, linesFrom, if_neg (Ne.symm hc)]
      exact ⟨r, by simpa using hr⟩

theorem exists_of_linesFrom {w : List Char} (hw : '\n' ∉ w) (hne : w ≠ []) (line s t : List Char)
    (hline : '\n' ∉ line) :
    ∃ q r, q ++ (w ++ r) ∈ linesFrom line (s ++ (w ++ t)) ∧ q <:+ line.reverse ++ s ∧ '\n' ∉ q := by
  induction s generalizing line with
  | nil =>
      obtain ⟨r, hr⟩ := mem_linesFrom_word hw line t (.inr hne)
      exact ⟨line.reverse, r, hr, by simp, by simpa using hline⟩
  | cons c s ih =>
      rw [List.cons_append, linesFrom]
      split_ifs with hc
      · obtain ⟨q, r, hmem, hq, hnot⟩ := ih [] List.not_mem_nil
        have hsuffix : s <:+ line.reverse ++ c :: s := List.suffix_append_of_suffix (List.suffix_cons c s)
        exact ⟨q, r, List.mem_cons_of_mem _ hmem, hq.trans hsuffix, hnot⟩
      · obtain ⟨q, r, hmem, hq, hnot⟩ := ih (c :: line) (by simp [hline, Ne.symm hc])
        refine ⟨q, r, hmem, ?_, hnot⟩
        rwa [List.reverse_cons, List.append_assoc] at hq

theorem suffix_of_not_mem {q u v : List Char} {c : Char} (h : q <:+ u ++ c :: v) (hq : c ∉ q) : q <:+ v := by
  rcases List.suffix_or_suffix_of_suffix h (List.suffix_append u (c :: v)) with h | h
  · rcases List.suffix_cons_iff.mp h with rfl | h
    · exact absurd List.mem_cons_self hq
    · exact h
  · exact absurd (h.subset List.mem_cons_self) hq

/-- A word stands on one of the lines of a text, and what is in front of it there was in front
of it since the last line feed. -/
theorem exists_line {before w : List Char} (hbefore : before = [] ∨ ∃ s, before = s ++ ['\n'])
    (hw : ∀ c ∈ w, c ≠ '\n' ∧ c ≠ '\r') (hne : w ≠ []) (s t : List Char) :
    ∃ q r, q ++ (w ++ r) ∈ lines (universalNewlines (before ++ (s ++ (w ++ t)))) ∧ ∀ c ∈ q, c ∈ s := by
  have hread : universalNewlines (before ++ (s ++ (w ++ t))) =
      universalNewlines (before ++ s) ++ (w ++ universalNewlines t) := by
    have hapart : (w ++ t).head? ≠ some '\n' := by
      cases w with
      | nil => exact absurd rfl hne
      | cons c w => exact fun h => (hw c List.mem_cons_self).1 (Option.some.inj h)
    rw [← List.append_assoc, universalNewlines_append_apart fun _ => hapart,
      universalNewlines_append_word fun c hc => (hw c hc).2]
  obtain ⟨q, r, hmem, hq, hnot⟩ := exists_of_linesFrom (fun h => (hw '\n' h).1 rfl) hne []
    (universalNewlines (before ++ s)) (universalNewlines t) List.not_mem_nil
  rw [List.reverse_nil, List.nil_append] at hq
  have hsuffix : q <:+ universalNewlines s := by
    rcases hbefore with rfl | ⟨u, rfl⟩
    · exact hq
    · rw [List.append_assoc, List.singleton_append] at hq
      rcases universalNewlines_append u s (.inl rfl) with h | ⟨h, ⟨v, hv⟩ | ⟨v, hv⟩⟩
      · exact suffix_of_not_mem (h ▸ hq) hnot
      · rw [h, hv, List.append_assoc] at hq
        exact suffix_of_not_mem hq hnot
      · rw [h, hv] at hq
        rw [hv]
        exact (suffix_of_not_mem hq hnot).trans (List.suffix_cons _ v)
  refine ⟨q, r, by rw [hread]; exact hmem, fun c hc => ?_⟩
  exact ((mem_universalNewlines (hsuffix.subset hc)).resolve_left fun h => hnot (h ▸ hc)).1

theorem splitFrom_append_space {c : Char} (hc : isSpace c = true) (word s : List Char) :
    splitFrom word (s ++ [c]) = splitFrom word s := by
  induction s generalizing word with
  | nil => simp [splitFrom, hc]
  | cons a s ih =>
      simp only [List.cons_append, splitFrom]
      split_ifs <;> simp only [ih]

theorem split_rstrip (s : List Char) : split (rstrip s) = split s := by
  induction s using List.reverseRecOn with
  | nil => rfl
  | append_singleton s c ih =>
      rw [rstrip, List.reverse_append, List.reverse_singleton, List.singleton_append, List.dropWhile_cons]
      split_ifs with hc
      · exact ih.trans (splitFrom_append_space hc [] s).symm
      · rw [List.reverse_cons, List.reverse_reverse]

theorem split_lstrip (s : List Char) : split (lstrip s) = split s := by
  induction s with
  | nil => rfl
  | cons c s ih =>
      rw [lstrip, List.dropWhile_cons]
      split_ifs with hc
      · have hs : split (c :: s) = split s := by simp [split, splitFrom, hc]
        exact ih.trans hs.symm
      · rfl

theorem split_strip (s : List Char) : split (strip s) = split s :=
  (split_rstrip (lstrip s)).trans (split_lstrip s)

theorem splitFrom_word {token rest : List Char} (ht : ∀ c ∈ token, isSpace c = false)
    (hr : ∀ c ∈ rest.head?, isSpace c = true) (word : List Char) (hne : word ≠ [] ∨ token ≠ []) :
    splitFrom word (token ++ rest) = (word.reverse ++ token) :: split rest := by
  induction token generalizing word with
  | nil =>
      have hw : word ≠ [] := hne.resolve_right fun h => h rfl
      cases rest with
      | nil => simp [splitFrom, split, hw]
      | cons c rest =>
          have hc : isSpace c = true := hr c rfl
          simp [splitFrom, split, hc, hw]
  | cons c token ih =>
      obtain ⟨hc, ht⟩ := List.forall_mem_cons.mp ht
      rw [List.cons_append, splitFrom, hc, if_neg Bool.false_ne_true,
        ih ht (c :: word) (.inl (List.cons_ne_nil c word)), List.reverse_cons, List.append_assoc]
      rfl

theorem splitFrom_eq_nil {word s : List Char} :
    splitFrom word s = [] ↔ word = [] ∧ ∀ c ∈ s, isSpace c = true := by
  induction s generalizing word with
  | nil => by_cases hw : word = [] <;> simp [splitFrom, hw]
  | cons c s ih =>
      rw [splitFrom]
      split_ifs with hc hw
      · simp [ih, hc, hw]
      · simp [hw]
      · simp [ih, hc]

theorem rstrip_cons {c : Char} (hc : isSpace c = false) (s : List Char) :
    rstrip (c :: s) = c :: rstrip s := by
  rw [rstrip, List.reverse_cons, List.dropWhile_append]
  split_ifs with hs
  · rw [rstrip, List.isEmpty_iff.mp hs]
    simp [hc]
  · simp [rstrip]

theorem lstrip_word {w : List Char} (hw : ∀ c ∈ w, isSpace c = false) (hne : w ≠ []) (q r : List Char) :
    ∃ q', lstrip (q ++ (w ++ r)) = q' ++ (w ++ r) ∧ q' <:+ q := by
  have hstop : (w ++ r).dropWhile isSpace = w ++ r := by
    cases w with
    | nil => exact absurd rfl hne
    | cons c w => rw [List.cons_append, List.dropWhile_cons_of_neg (by simp [hw c List.mem_cons_self])]
  rw [lstrip, List.dropWhile_append, hstop]
  split
  · exact ⟨[], rfl, List.nil_suffix⟩
  · exact ⟨q.dropWhile isSpace, rfl, List.dropWhile_suffix isSpace⟩

theorem strip_word {w : List Char} (hw : ∀ c ∈ w, isSpace c = false) (hne : w ≠ []) (q r : List Char) :
    ∃ q' r', strip (q ++ (w ++ r)) = q' ++ (w ++ r') ∧ q' <:+ q := by
  obtain ⟨q', hleft, hq⟩ := lstrip_word hw hne q r
  obtain ⟨r', hright, -⟩ :=
    lstrip_word (w := w.reverse) (by simpa using hw) (by simpa using hne) r.reverse q'.reverse
  refine ⟨q', r'.reverse, ?_, hq⟩
  have hreverse : (q' ++ (w ++ r)).reverse = r.reverse ++ (w.reverse ++ q'.reverse) := by simp
  rw [strip, hleft, rstrip, hreverse, ← lstrip, hright]
  simp

theorem digitChar_inj : ∀ m < 10, ∀ n < 10, Nat.digitChar m = Nat.digitChar n → m = n := by decide

theorem toDigits_injective {m n : Nat} (h : Nat.toDigits 10 m = Nat.toDigits 10 n) : m = n := by
  induction m using Nat.strong_induction_on generalizing n with
  | _ m ih =>
      have hlength := congrArg List.length h
      rcases Nat.lt_or_ge m 10 with hm | hm
      · rcases Nat.lt_or_ge n 10 with hn | hn
        · rw [Nat.toDigits_of_lt_base hm, Nat.toDigits_of_lt_base hn] at h
          exact digitChar_inj m hm n hn (List.singleton_inj.mp h)
        · rw [Nat.toDigits_of_lt_base hm, Nat.toDigits_of_base_le (by decide) hn] at hlength
          simp at hlength
      · rcases Nat.lt_or_ge n 10 with hn | hn
        · rw [Nat.toDigits_of_lt_base hn, Nat.toDigits_of_base_le (by decide) hm] at hlength
          simp at hlength
        · rw [Nat.toDigits_of_base_le (by decide) hm, Nat.toDigits_of_base_le (by decide) hn] at h
          obtain ⟨hdiv, hmod⟩ := List.append_inj' h rfl
          have hrest := ih (m / 10) (by omega) hdiv
          have hlast := digitChar_inj (m % 10) (by omega) (n % 10) (by omega) (List.singleton_inj.mp hmod)
          omega

theorem repr_injective {m n : Nat} (h : toString m = toString n) : m = n :=
  toDigits_injective (by simpa only [Nat.toString_eq_ofList_toDigits, String.ofList_inj] using h)

end EovpnPro.PyText
