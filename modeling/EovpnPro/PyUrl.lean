import EovpnPro.IpAddress
import EovpnPro.PyInt

namespace EovpnPro.PyUrl

open PyText

def before (sep : Char) (s : List Char) : List Char := s.takeWhile fun c => decide (c ≠ sep)

def after (sep : Char) (s : List Char) : List Char := (s.dropWhile fun c => decide (c ≠ sep)).tail

def afterLast (sep : Char) (s : List Char) : List Char := (before sep s.reverse).reverse

def beforeLast (sep : Char) (s : List Char) : List Char := (after sep s.reverse).reverse

def isControl (c : Char) : Bool := decide (c.toNat ≤ 32)

def isRemoved (c : Char) : Bool := decide (c = '\t' ∨ c = '\r' ∨ c = '\n')

def isSchemeChar (c : Char) : Bool := c.isAlphanum || decide (c = '+' ∨ c = '-' ∨ c = '.')

def authority (s : List Char) : List Char := s.takeWhile fun c => decide (c ≠ '/' ∧ c ≠ '?' ∧ c ≠ '#')

section Parse

structure Parsed where
  scheme : List Char
  netloc : List Char
  deriving DecidableEq

/-- What `urlparse` reads of a URL: it leaves out controls and blanks in front of it, and
tabs and line ends anywhere. -/
def cleaned (url : List Char) : List Char :=
  (url.dropWhile isControl).filter fun c => !isRemoved c

def splitScheme (url : List Char) : List Char × List Char :=
  let scheme := before ':' url
  if ':' ∈ url ∧ scheme.head?.any Char.isAlpha = true ∧ scheme.all isSchemeChar = true then
    (lower scheme, after ':' url)
  else ([], url)

def splitNetloc : List Char → List Char
  | '/' :: '/' :: rest => authority rest
  | _ => []

/-- `urlparse`, or the text of its `ValueError`. `refusal` is what it has against a network
location with balanced brackets, which differs between the versions of the library. -/
def urlparse (refusal : List Char → Option String) (url : List Char) : Except String Parsed :=
  let (scheme, rest) := splitScheme (cleaned url)
  let netloc := splitNetloc rest
  if decide ('[' ∈ netloc) ≠ decide (']' ∈ netloc) then .error "Invalid IPv6 URL"
  else match refusal netloc with
    | some message => .error message
    | none => .ok ⟨scheme, netloc⟩

/-- The host of a network location as it is written, without user, port and brackets. -/
def hostinfo (netloc : List Char) : List Char :=
  let info := afterLast '@' netloc
  if '[' ∈ info then before ']' (after '[' info) else before ':' info

/-- `ParseResult.hostname` keeps the case of a zone. -/
def hostname (host : List Char) : List Char :=
  lower (before '%' host) ++ host.dropWhile fun c => decide (c ≠ '%')

end Parse

section Unquote

/-- The bytes of the text between two characters outside ASCII, which stay as they are. -/
def unquoteToBytes : List Char → List (Char ⊕ Nat)
  | [] => []
  | '%' :: a :: b :: rest =>
      match IpAddress.digitValue a, IpAddress.digitValue b with
      | some high, some low => .inr (16 * high + low) :: unquoteToBytes rest
      | _, _ => .inr 0x25 :: unquoteToBytes (a :: b :: rest)
  | c :: rest => (if c.toNat < 128 then .inr c.toNat else .inl c) :: unquoteToBytes rest

/-- A UTF-8 sequence that has begun: the bits so far, and the ranges of the bytes to come. -/
abbrev Pending := Nat × List (Nat × Nat)

def continuation : Nat × Nat := (0x80, 0xbf)

def lead (byte : Nat) : Option Pending :=
  if 0xc2 ≤ byte ∧ byte ≤ 0xdf then some (byte % 32, [continuation])
  else if byte = 0xe0 then some (0, [(0xa0, 0xbf), continuation])
  else if byte = 0xed then some (13, [(0x80, 0x9f), continuation])
  else if 0xe1 ≤ byte ∧ byte ≤ 0xef then some (byte % 16, [continuation, continuation])
  else if byte = 0xf0 then some (0, [(0x90, 0xbf), continuation, continuation])
  else if byte = 0xf4 then some (4, [(0x80, 0x8f), continuation, continuation])
  else if 0xf1 ≤ byte ∧ byte ≤ 0xf3 then some (byte % 8, [continuation, continuation, continuation])
  else none

def replacement : Char := '\uFFFD'

/-- UTF-8 with each broken sequence replaced, the longest front of one at a time. -/
def decodeFrom : Option Pending → List (Char ⊕ Nat) → List Char
  | none, [] => []
  | some _, [] => [replacement]
  | pending, .inl c :: rest =>
      (if pending.isSome then [replacement] else []) ++ c :: decodeFrom none rest
  | some (bits, (low, high) :: more), .inr byte :: rest =>
      if low ≤ byte ∧ byte ≤ high then
        let bits := 64 * bits + byte % 64
        if more = [] then Char.ofNat bits :: decodeFrom none rest else decodeFrom (some (bits, more)) rest
      else replacement :: (if byte < 128 then Char.ofNat byte :: decodeFrom none rest
        else match lead byte with
          | some pending => decodeFrom (some pending) rest
          | none => replacement :: decodeFrom none rest)
  | _, .inr byte :: rest =>
      if byte < 128 then Char.ofNat byte :: decodeFrom none rest
      else match lead byte with
        | some pending => decodeFrom (some pending) rest
        | none => replacement :: decodeFrom none rest

def unquote (s : List Char) : List Char := if '%' ∈ s then decodeFrom none (unquoteToBytes s) else s

end Unquote

section Requests

structure Request where
  type : List Char
  host : List Char
  deriving DecidableEq

def unbracket (host : List Char) : List Char :=
  if host.head? = some '[' ∧ host.getLast? = some ']' then host.tail.dropLast else host

def unwrap (url : List Char) : List Char :=
  let url := strip url
  let url := if url.head? = some '<' ∧ url.getLast? = some '>' then strip url.tail.dropLast else url
  if "URL:".toList <+: url then strip (url.drop 4) else url

def splitTag (url : List Char) : List Char := if '#' ∈ url then beforeLast '#' url else url

def splitType (url : List Char) : Option (List Char × List Char) :=
  let type := before ':' url
  if ':' ∈ url ∧ type ≠ [] ∧ '/' ∉ type then some (lower type, after ':' url) else none

/-- `_get_hostport`: what follows the last colon must be a number, or nothing. -/
def getHostport (host : List Char) : Option (List Char) :=
  if ':' ∈ afterLast ']' host then
    let port := afterLast ':' host
    if port = [] ∨ (PyInt.int port).isSome = true then some (unbracket (beforeLast ':' host)) else none
  else some (unbracket host)

def selector : List Char → List Char
  | '/' :: '/' :: rest => rest.drop (authority rest).length
  | url => url

def isRefused (c : Char) : Bool := isControl c || decide (c.toNat = 127)

/-- `_validate_host` refuses a host with a control character or a blank in it. -/
def validHost (host : List Char) : Bool := host.all fun c => !isRefused c

/-- The request line has to be ASCII, and passes `_validate_path`. -/
def validPath (path : List Char) : Bool := path.all fun c => !isRefused c && decide (c.toNat < 128)

def isLegalHeaderValue : List Char → Bool
  | [] => true
  | '\n' :: rest => [some ' ', some '\t'].contains rest.head? && isLegalHeaderValue rest
  | '\r' :: rest => [some ' ', some '\t', some '\n'].contains rest.head? && isLegalHeaderValue rest
  | _ :: rest => isLegalHeaderValue rest

/-- The value of the `Host` header is sent in Latin-1. -/
def validHeader (value : List Char) : Bool :=
  (value.all fun c => decide (c.toNat < 256)) && isLegalHeaderValue value

def httpTypes : List (List Char) := ["http".toList, "https".toList]

def otherTypes : List (List Char) := ["ftp".toList, "file".toList, "data".toList]

/-- Opening a `urllib.request.Request`: `none` where it raises before it connects. -/
def request (url : List Char) : Option Request :=
  match splitType (splitTag (unwrap url)) with
  | none => none
  | some (type, rest) =>
      let host := unquote (splitNetloc rest)
      if httpTypes.contains type then
        if host ≠ [] ∧ validHeader host = true ∧ validPath (selector rest) = true then
          ((getHostport host).filter validHost).map fun host => ⟨type, host⟩
        else none
      else if otherTypes.contains type then some ⟨type, host⟩
      else none

def quoteSpaces (url : List Char) : List Char := url.flatMap fun c => if c = ' ' then "%20".toList else [c]

end Requests

example : request "https://127%2e0%2e0%2e1/".toList = some ⟨"https".toList, "127.0.0.1".toList⟩ := by
  decide

variable {c : Char} {a s url rest : List Char} {r : Request}

theorem before_append (h : c ∉ a) (rest : List Char) : before c (a ++ c :: rest) = a := by
  have hall : ∀ x ∈ a, decide (x ≠ c) = true := fun x hx => decide_eq_true fun he => h (he ▸ hx)
  rw [before, List.takeWhile_append_of_pos hall, List.takeWhile_cons_of_neg (by simp), List.append_nil]

theorem notMem_before (c : Char) (s : List Char) : c ∉ before c s := fun h => by
  have hne := List.all_eq_true.mp List.all_takeWhile _ h
  exact of_decide_eq_true hne rfl

theorem prefix_of_before (h : c ∈ s) : before c s ++ [c] <+: s := by
  have hs : before c s ++ s.dropWhile (fun x => decide (x ≠ c)) = s := List.takeWhile_append_dropWhile
  cases hd : s.dropWhile fun x => decide (x ≠ c) with
  | nil => exact absurd rfl (of_decide_eq_true (List.dropWhile_eq_nil_iff.mp hd c h))
  | cons x rest =>
      have hx := List.head?_dropWhile_not (fun x => decide (x ≠ c)) s
      rw [hd] at hx
      obtain rfl : x = c := by simpa using hx
      exact ⟨rest, by rw [List.append_assoc, List.singleton_append, ← hd, hs]⟩

theorem prefix_of_splitTag (url : List Char) : splitTag url <+: url := by
  rw [splitTag]
  split_ifs
  · rw [beforeLast, ← List.reverse_suffix, List.reverse_reverse]
    exact (List.tail_suffix _).trans (List.dropWhile_suffix _)
  · exact List.prefix_rfl

theorem prefix_of_strip (s : List Char) : PyText.strip s <+: lstrip s := by
  rw [PyText.strip, rstrip, ← List.reverse_suffix, List.reverse_reverse]
  exact List.dropWhile_suffix _

theorem prefix_of_quoteSpaces (ha : '%' ∉ a) (h : a <+: quoteSpaces url) : a <+: url := by
  induction a generalizing url with
  | nil => exact List.nil_prefix
  | cons x a ih =>
      obtain ⟨hx, ha⟩ := not_or.mp (mt List.mem_cons.mpr ha)
      cases url with
      | nil => exact absurd (List.prefix_nil.mp h) (List.cons_ne_nil _ _)
      | cons c url =>
          have hcons : quoteSpaces (c :: url) = (if c = ' ' then "%20".toList else [c]) ++ quoteSpaces url := rfl
          rw [hcons] at h
          split_ifs at h with hc
          · exact absurd (List.cons_prefix_cons.mp h).1 (Ne.symm hx)
          · obtain ⟨rfl, htail⟩ := List.cons_prefix_cons.mp h
            exact List.cons_prefix_cons.mpr ⟨rfl, ih ha htail⟩

section Scheme

theorem eq_of_lowerChar (h : (lowerChar c).head? = some 'h') : c = 'h' ∨ c = 'H' := by
  simp only [lowerChar] at h
  split_ifs at h
  · exact absurd (Option.some.inj h) (by decide)
  · exact absurd (Option.some.inj h) (by decide)
  · have hl : c.toLower = 'h' := Option.some.inj h
    rcases toLower_cases c with hc | ⟨-, hc⟩
    · exact .inl (hc ▸ hl)
    · have hn : c.toNat = 72 := by
        rw [hl] at hc
        have h104 : 'h'.toNat = 104 := rfl
        omega
      exact .inr (by rw [← Char.ofNat_toNat c, hn])

theorem cleaned_cons (hc : isControl c = false) (rest : List Char) :
    cleaned (c :: rest) = c :: rest.filter fun x => !isRemoved x := by
  have hr : isRemoved c = false := by
    refine decide_eq_false ?_
    rintro (rfl | rfl | rfl) <;> cases hc
  rw [cleaned, List.dropWhile_cons_of_neg (by rw [hc]; decide), List.filter_cons_of_pos (by rw [hr]; rfl)]

theorem letter_of_scheme (hc : isControl c = false)
    (h : (lower (before ':' (cleaned (c :: rest)))).head? = some 'h') : c = 'h' ∨ c = 'H' := by
  rw [cleaned_cons hc, before] at h
  by_cases hcolon : c = ':'
  · rw [List.takeWhile_cons_of_neg (by simp [hcolon])] at h
    cases h
  · rw [List.takeWhile_cons_of_pos (by simp [hcolon]), lower, List.flatMap_cons, List.head?_append] at h
    refine eq_of_lowerChar ?_
    have hne : lowerChar c ≠ [] := by
      simp only [lowerChar]
      split_ifs <;> exact List.cons_ne_nil _ _
    obtain ⟨x, hx⟩ := Option.ne_none_iff_exists'.mp (mt List.head?_eq_none_iff.mp hne)
    rwa [hx, Option.some_or, ← hx] at h

theorem first_of_scheme {blanks : List Char} (hb : ∀ x ∈ blanks, isSpace x = true) (hc : isControl c = false)
    (h : (lower (before ':' (cleaned (blanks ++ c :: rest)))).head? = some 'h') :
    (c = 'h' ∨ c = 'H') ∧ cleaned (blanks ++ c :: rest) = c :: rest.filter fun x => !isRemoved x := by
  induction blanks with
  | nil => exact ⟨letter_of_scheme hc h, cleaned_cons hc rest⟩
  | cons x blanks ih =>
      obtain ⟨hx, hb⟩ := List.forall_mem_cons.mp hb
      cases hctl : isControl x with
      | true =>
          have hskip : cleaned (x :: blanks ++ c :: rest) = cleaned (blanks ++ c :: rest) := by
            rw [cleaned, List.cons_append, List.dropWhile_cons_of_pos hctl]
            rfl
          rw [hskip] at h ⊢
          exact ih hb h
      | false =>
          rcases letter_of_scheme hctl h with rfl | rfl <;> cases hx

theorem before_cleaned {blanks w : List Char} (hb : ∀ x ∈ blanks, isSpace x = true) (hne : w ≠ [])
    (hcolon : ':' ∉ w) (hw : ∀ x ∈ w, isControl x = false)
    (h : (lower (before ':' (cleaned (blanks ++ (w ++ ':' :: rest))))).head? = some 'h') :
    before ':' (cleaned (blanks ++ (w ++ ':' :: rest))) = w := by
  obtain ⟨c, w, rfl⟩ := List.exists_cons_of_ne_nil hne
  have hkept : w.filter (fun x => !isRemoved x) = w := by
    refine List.filter_eq_self.mpr fun x hx => ?_
    have hctl := hw x (List.mem_cons_of_mem c hx)
    rw [Bool.not_eq_true', isRemoved, decide_eq_false_iff_not]
    rintro (rfl | rfl | rfl) <;> cases hctl
  rw [List.cons_append] at h ⊢
  rw [(first_of_scheme hb (hw c List.mem_cons_self) h).2, List.filter_append, hkept]
  exact before_append hcolon _

/-- A URL in whose place `text` is opened has `text` in front, up to its first percent sign. -/
def OpenedAs (url text : List Char) : Prop := ∀ a, '%' ∉ a → a <+: text → a <+: url

variable {text : List Char}

theorem percent_notMem_of_isSpace {blanks : List Char} (h : ∀ x ∈ blanks, isSpace x = true) :
    '%' ∉ blanks := fun hm => absurd (h '%' hm) (by decide)

theorem exists_of_prefix (ho : OpenedAs url text) (ha : '%' ∉ a) (h : a <+: PyText.strip text) :
    ∃ blanks rest, (∀ x ∈ blanks, isSpace x = true) ∧ url = blanks ++ (a ++ rest) := by
  have hb : ∀ x ∈ text.takeWhile isSpace, isSpace x = true := fun x hx => List.mem_takeWhile_imp hx
  have htext : text.takeWhile isSpace ++ lstrip text = text := List.takeWhile_append_dropWhile
  have hprefix : text.takeWhile isSpace ++ a <+: text := by
    have hall := (List.prefix_append_right_inj (text.takeWhile isSpace)).mpr (h.trans (prefix_of_strip text))
    rwa [htext] at hall
  have hp : '%' ∉ text.takeWhile isSpace ++ a := by
    rw [List.mem_append]
    exact not_or.mpr ⟨percent_notMem_of_isSpace hb, ha⟩
  obtain ⟨rest, rfl⟩ := ho _ hp hprefix
  exact ⟨_, rest, hb, List.append_assoc _ _ _⟩

theorem unwrap_eq (ho : OpenedAs url text) (hs : lower (before ':' (cleaned url)) = "https".toList) :
    unwrap text = PyText.strip text := by
  have hfirst (c : Char) (hc : isControl c = false) (hp : c ≠ '%')
      (h : (PyText.strip text).head? = some c) : c = 'h' ∨ c = 'H' := by
    obtain ⟨t, ht⟩ := List.head?_eq_some_iff.mp h
    obtain ⟨blanks, rest, hb, rfl⟩ := exists_of_prefix (a := [c]) ho (by simpa using Ne.symm hp)
      (ht ▸ ⟨t, rfl⟩)
    exact (first_of_scheme hb hc (by rw [← List.singleton_append, hs]; rfl)).1
  have hangle : (PyText.strip text).head? ≠ some '<' := fun h => absurd (hfirst '<' rfl (by decide) h) (by decide)
  have hword : ¬"URL:".toList <+: PyText.strip text := by
    rintro ⟨t, ht⟩
    refine absurd (hfirst 'U' rfl (by decide) ?_) (by decide)
    rw [← ht]
    rfl
  simp only [unwrap, hangle, false_and, if_false, hword]

theorem types_plain : ∀ type ∈ httpTypes ++ otherTypes, type ≠ [] ∧ '%' ∉ type ∧
    type.any isControl = false := by decide

theorem type_of_request_eq {type : List Char} (h : request text = some r)
    (ht : splitType (splitTag (unwrap text)) = some (type, rest)) :
    r.type = type ∧ type ∈ httpTypes ++ otherTypes := by
  simp only [request, ht] at h
  split_ifs at h with hhttp _ hother
  · obtain ⟨host, -, rfl⟩ := Option.map_eq_some_iff.mp h
    exact ⟨rfl, List.mem_append_left _ (List.contains_iff_mem.mp hhttp)⟩
  · obtain rfl := Option.some.inj h
    exact ⟨rfl, List.mem_append_right _ (List.contains_iff_mem.mp hother)⟩

/-- A URL that `urlparse` takes for an HTTPS one is opened as one, or not at all. -/
theorem type_of_request (ho : OpenedAs url text) (hs : lower (before ':' (cleaned url)) = "https".toList)
    (h : request text = some r) : r.type = "https".toList := by
  cases ht : splitType (splitTag (unwrap text)) with
  | none =>
      simp only [request, ht] at h
      cases h
  | some split =>
      obtain ⟨type, rest⟩ := split
      obtain ⟨hr, hknown⟩ := type_of_request_eq h ht
      obtain ⟨hne, hpercent, hcontrol⟩ := types_plain type hknown
      rw [unwrap_eq ho hs, splitType] at ht
      split_ifs at ht with hcolon
      obtain ⟨htype, -⟩ := Prod.mk.inj (Option.some.inj ht)
      let w := before ':' (splitTag (PyText.strip text))
      have hw : w ++ [':'] <+: PyText.strip text := (prefix_of_before hcolon.1).trans (prefix_of_splitTag _)
      have hmem {c : Char} (hc : c.toNat < 65) : c ∈ w ↔ c ∈ type := by
        rw [← htype]
        exact (mem_lower (.inl hc)).symm
      obtain ⟨blanks, rest, hb, rfl⟩ := exists_of_prefix (a := w ++ [':']) ho (by
        rw [List.mem_append, hmem (by decide)]
        exact not_or.mpr ⟨hpercent, by decide⟩) hw
      have hplain : ∀ c ∈ w, isControl c = false := by
        intro c hc
        by_contra hctl
        rw [Bool.not_eq_false] at hctl
        have hlow : c.toNat ≤ 32 := of_decide_eq_true hctl
        exact absurd hctl (List.any_eq_false.mp hcontrol c ((hmem (by omega)).mp hc))
      rw [List.append_assoc, List.singleton_append] at hs
      rw [hr, ← htype, ← hs, before_cleaned hb hcolon.2.1 (notMem_before ':' _) hplain (by rw [hs]; rfl)]

theorem of_urlparse {refusal : List Char → Option String} {p : Parsed}
    (h : urlparse refusal url = .ok p) :
    p = ⟨(splitScheme (cleaned url)).1, splitNetloc (splitScheme (cleaned url)).2⟩ := by
  simp only [urlparse] at h
  split_ifs at h
  split at h
  · cases h
  · exact (Except.ok.inj h).symm

theorem cleaned_of_scheme (h : (splitScheme (cleaned url)).1 = "https".toList) :
    lower (before ':' (cleaned url)) = "https".toList := by
  rw [splitScheme] at h
  split_ifs at h
  · exact h
  · cases h

end Scheme

end EovpnPro.PyUrl
