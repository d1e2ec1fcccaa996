import Mathlib.Algebra.Ring.Nat
import Mathlib.Data.Char
import Mathlib.Data.List.Basic
import Mathlib.Data.List.TakeWhile

namespace EovpnPro.IpAddress

inductive Address
  | v4 (value : Nat)
  | v6 (value : Nat)
  deriving DecidableEq, Repr

def digitValue (c : Char) : Option Nat :=
  if '0' ≤ c ∧ c ≤ '9' then some (c.toNat - '0'.toNat)
  else if 'a' ≤ c ∧ c ≤ 'f' then some (c.toNat - 'a'.toNat + 10)
  else if 'A' ≤ c ∧ c ≤ 'F' then some (c.toNat - 'A'.toNat + 10)
  else none

def readDigits (base : Nat) (value : Nat) : List Char → Option Nat
  | [] => some value
  | c :: cs =>
      match digitValue c with
      | some digit => if digit < base then readDigits base (base * value + digit) cs else none
      | none => none

def readNumber (base : Nat) (s : List Char) : Option Nat :=
  if s = [] then none else readDigits base 0 s

section Textual

def quad (a b c d : Nat) : Nat := ((a * 256 + b) * 256 + c) * 256 + d

def octet (s : List Char) : Option Nat :=
  if s.length > 3 ∨ (s ≠ ['0'] ∧ s.head? = some '0') then none
  else (readNumber 10 s).filter fun n => decide (n ≤ 255)

def parseIpv4 (s : List Char) : Option Nat :=
  match s.splitOn '.' with
  | [a, b, c, d] => do return quad (← octet a) (← octet b) (← octet c) (← octet d)
  | _ => none

def hextet (s : List Char) : Option Nat := if s.length > 4 then none else readNumber 16 s

def hextets (parts : List (List Char)) : Option (List Nat) := parts.mapM hextet

def joinHextets (values : List Nat) : Nat := values.foldl (fun n h => n * 65536 + h) 0

inductive Groups
  | full (parts : List (List Char))
  | elided (front back : List (List Char))
  deriving DecidableEq

/-- The groups around the empty one in the middle, if there is one. An empty group at
an end must belong to it. -/
def groups (parts : List (List Char)) : Option Groups :=
  let middle := parts.tail.dropLast
  if middle.count [] > 1 then none
  else match middle.findIdx? (fun part => part.isEmpty) with
    | none =>
        if parts.length ≠ 8 ∨ parts.head? = some [] ∨ parts.getLast? = some [] then none
        else some (.full parts)
    | some i =>
        let front := parts.take (i + 1)
        let back := parts.drop (i + 2)
        if (front.head? = some [] ∧ front.length ≠ 1) ∨
          (back.getLast? = some [] ∧ back.length ≠ 1) then none
        else
          let front := if front.head? = some [] then [] else front
          let back := if back.getLast? = some [] then [] else back
          if front.length + back.length ≥ 8 then none else some (.elided front back)

def hexText (n : Nat) : List Char := Nat.toDigits 16 n

/-- The last group may be a dotted IPv4 address, which stands for two. -/
def expandLast (parts : List (List Char)) : Option (List (List Char)) :=
  match parts.getLast? with
  | some part =>
      if '.' ∈ part then
        (parseIpv4 part).map fun n => parts.dropLast ++ [hexText (n / 65536), hexText (n % 65536)]
      else some parts
  | none => some parts

def parseGroups (s : List Char) : Option Nat := do
  let parts := s.splitOn ':'
  guard (3 ≤ parts.length)
  let parts ← expandLast parts
  guard (parts.length ≤ 9)
  match ← groups parts with
  | .full parts => return joinHextets (← hextets parts)
  | .elided front back =>
      let front ← hextets front
      let back ← hextets back
      return joinHextets (front ++ List.replicate (8 - (front.length + back.length)) 0 ++ back)

def splitScope (s : List Char) : Option (List Char) :=
  match s.dropWhile (fun c => decide (c ≠ '%')) with
  | [] => some s
  | _ :: zone => if zone = [] ∨ '%' ∈ zone then none else some (s.takeWhile fun c => decide (c ≠ '%'))

def parseIpv6 (s : List Char) : Option Nat :=
  if '/' ∈ s then none else (splitScope s).bind parseGroups

def ipAddress (s : List Char) : Option Address :=
  match parseIpv4 s with
  | some n => some (.v4 n)
  | none => (parseIpv6 s).map .v6

/-- One part of a numeric spelling: hexadecimal after `0x`, octal after a zero. -/
def atonPart : List Char → Option Nat
  | '0' :: 'x' :: cs => readNumber 16 cs
  | '0' :: 'X' :: cs => readNumber 16 cs
  | '0' :: c :: cs => readNumber 8 (c :: cs)
  | cs => readNumber 10 cs

/-- The spellings that `inet_aton` takes: up to four parts, of which the last fills the
bytes that the others leave. -/
def inetAton (s : List Char) : Option Nat := do
  match ← (s.splitOn '.').mapM atonPart with
  | [a] => if a < 2 ^ 32 then some a else none
  | [a, b] => if a < 256 ∧ b < 2 ^ 24 then some (a * 2 ^ 24 + b) else none
  | [a, b, c] => if a < 256 ∧ b < 256 ∧ c < 2 ^ 16 then some ((a * 256 + b) * 2 ^ 16 + c) else none
  | [a, b, c, d] => if a < 256 ∧ b < 256 ∧ c < 256 ∧ d < 256 then some (quad a b c d) else none
  | _ => none

end Textual

section Networks

def inNetwork (width value : Nat) (network : Nat × Nat) : Bool :=
  value >>> (width - network.2) == network.1 >>> (width - network.2)

def privateNetworks4 : List (Nat × Nat) :=
  [(quad 0 0 0 0, 8), (quad 10 0 0 0, 8), (quad 127 0 0 0, 8), (quad 169 254 0 0, 16),
    (quad 172 16 0 0, 12), (quad 192 0 0 0, 24), (quad 192 0 0 170, 31), (quad 192 0 2 0, 24),
    (quad 192 168 0 0, 16), (quad 198 18 0 0, 15), (quad 198 51 100 0, 24), (quad 203 0 113 0, 24),
    (quad 240 0 0 0, 4), (quad 255 255 255 255, 32)]

def privateExceptions4 : List (Nat × Nat) := [(quad 192 0 0 9, 32), (quad 192 0 0 10, 32)]

def network6 (leading : List Nat) (length : Nat) : Nat × Nat :=
  (joinHextets (leading ++ List.replicate (8 - leading.length) 0), length)

def privateNetworks6 : List (Nat × Nat) :=
  [(1, 128), (0, 128), network6 [0x64, 0xff9b, 1] 48, network6 [0x100] 64, network6 [0x2001] 23,
    network6 [0x2001, 0xdb8] 32, network6 [0x2002] 16, network6 [0xfc00] 7, network6 [0xfe80] 10]

def privateExceptions6 : List (Nat × Nat) :=
  [network6 [0x2001, 1, 0, 0, 0, 0, 0, 1] 128, network6 [0x2001, 1, 0, 0, 0, 0, 0, 2] 128,
    network6 [0x2001, 3] 32, network6 [0x2001, 4, 0x112] 48, network6 [0x2001, 0x20] 28,
    network6 [0x2001, 0x30] 28]

def reservedNetworks6 : List (Nat × Nat) :=
  [network6 [0] 8, network6 [0x100] 8, network6 [0x200] 7, network6 [0x400] 6, network6 [0x800] 5,
    network6 [0x1000] 4, network6 [0x4000] 3, network6 [0x6000] 3, network6 [0x8000] 3,
    network6 [0xa000] 3, network6 [0xc000] 3, network6 [0xe000] 4, network6 [0xf000] 5,
    network6 [0xf800] 6, network6 [0xfe00] 9]

def isPrivate4 (n : Nat) : Bool :=
  privateNetworks4.any (inNetwork 32 n) && !privateExceptions4.any (inNetwork 32 n)

namespace Address

def isLoopback : Address → Bool
  | .v4 n => inNetwork 32 n (quad 127 0 0 0, 8)
  | .v6 n => n == 1

/-- An IPv4 address mapped into IPv6 is as private as it is by itself. -/
def isPrivate : Address → Bool
  | .v4 n => isPrivate4 n
  | .v6 n =>
      if n / 2 ^ 32 = 0xffff then isPrivate4 (n % 2 ^ 32)
      else privateNetworks6.any (inNetwork 128 n) && !privateExceptions6.any (inNetwork 128 n)

def isLinkLocal : Address → Bool
  | .v4 n => inNetwork 32 n (quad 169 254 0 0, 16)
  | .v6 n => inNetwork 128 n (network6 [0xfe80] 10)

def isReserved : Address → Bool
  | .v4 n => inNetwork 32 n (quad 240 0 0 0, 4)
  | .v6 n => reservedNetworks6.any (inNetwork 128 n)

end Address

end Networks

section Spellings

variable {s : List Char} {n : Nat}

theorem digitValue_of_readDigits {base value : Nat} (h : readDigits base value s = some n) :
    ∀ c ∈ s, (digitValue c).isSome = true := by
  induction s generalizing value with
  | nil => simp
  | cons c cs ih =>
      simp only [readDigits] at h
      cases hd : digitValue c with
      | none =>
          rw [hd] at h
          cases h
      | some digit =>
          simp only [hd] at h
          split_ifs at h
          exact List.forall_mem_cons.mpr ⟨by rw [hd]; rfl, ih h⟩

theorem digitValue_of_readNumber {base : Nat} (h : readNumber base s = some n) :
    ∀ c ∈ s, (digitValue c).isSome = true := by
  simp only [readNumber] at h
  split_ifs at h
  exact digitValue_of_readDigits h

def Numeric (c : Char) : Prop := (digitValue c).isSome = true ∨ c = 'x' ∨ c = 'X' ∨ c = '.'

instance (c : Char) : Decidable (Numeric c) := inferInstanceAs (Decidable (_ ∨ _ ∨ _ ∨ _))

theorem numeric_of_atonPart (h : atonPart s = some n) : ∀ c ∈ s, Numeric c := by
  have hnumber {base : Nat} {cs : List Char} (h : readNumber base cs = some n) : ∀ c ∈ cs, Numeric c :=
    fun c hc => .inl (digitValue_of_readNumber h c hc)
  have hzero : Numeric '0' := .inl (by decide)
  fun_cases atonPart s with
  | case1 cs =>
      exact List.forall_mem_cons.mpr ⟨hzero, List.forall_mem_cons.mpr ⟨.inr (.inl rfl), hnumber h⟩⟩
  | case2 cs =>
      exact List.forall_mem_cons.mpr ⟨hzero, List.forall_mem_cons.mpr ⟨.inr (.inr (.inl rfl)), hnumber h⟩⟩
  | case3 c cs hx hX =>
      simp only [atonPart] at h
      exact List.forall_mem_cons.mpr ⟨hzero, hnumber h⟩
  | case4 cs hx hX hzero =>
      simp only [atonPart] at h
      exact hnumber h

theorem mem_of_mem_intercalate {c x : Char} {parts : List (List Char)}
    (h : c ∈ [x].intercalate parts) : c = x ∨ ∃ part ∈ parts, c ∈ part := by
  induction parts with
  | nil => simp at h
  | cons part parts ih =>
      cases parts with
      | nil => exact .inr ⟨part, List.mem_cons_self, by simpa using h⟩
      | cons next parts =>
          rw [List.intercalate_cons_cons, List.mem_append, List.mem_append] at h
          obtain (h | h) | h := h
          · exact .inr ⟨part, List.mem_cons_self, h⟩
          · exact .inl (List.mem_singleton.mp h)
          · obtain h | ⟨other, ho, hc⟩ := ih h
            · exact .inl h
            · exact .inr ⟨other, List.mem_cons_of_mem _ ho, hc⟩

theorem mem_parts {c x : Char} (hc : c ∈ s) : c = x ∨ ∃ part ∈ s.splitOn x, c ∈ part :=
  mem_of_mem_intercalate ((List.intercalate_splitOn x).symm ▸ hc)

theorem isSome_of_mapM {f : List Char → Option Nat} {parts : List (List Char)} {values : List Nat}
    (h : parts.mapM f = some values) : ∀ part ∈ parts, ∃ value, f part = some value := by
  induction parts generalizing values with
  | nil => simp
  | cons part parts ih =>
      simp only [List.mapM_cons, Option.bind_eq_bind, Option.bind_eq_some_iff] at h
      obtain ⟨value, hv, rest, hr, -⟩ := h
      exact List.forall_mem_cons.mpr ⟨⟨value, hv⟩, ih hr⟩

theorem numeric_of_inetAton (h : inetAton s = some n) : ∀ c ∈ s, Numeric c := by
  simp only [inetAton, Option.bind_eq_bind, Option.bind_eq_some_iff] at h
  obtain ⟨values, hv, -⟩ := h
  intro c hc
  obtain rfl | ⟨part, hpart, hc⟩ := mem_parts (x := '.') hc
  · exact .inr (.inr (.inr rfl))
  · obtain ⟨value, hvalue⟩ := isSome_of_mapM hv part hpart
    exact numeric_of_atonPart hvalue c hc

theorem atonPart_of_octet (h : octet s = some n) : atonPart s = some n ∧ n < 256 := by
  simp only [octet] at h
  split_ifs at h with hs
  obtain ⟨hn, hle⟩ := Option.filter_eq_some_iff.mp h
  refine ⟨?_, Nat.lt_succ_of_le (of_decide_eq_true hle)⟩
  rw [not_or, not_and] at hs
  rcases s with _ | ⟨c, cs⟩
  · exact hn
  · by_cases hc : c = '0'
    · subst hc
      have hzero : '0' :: cs = ['0'] := by
        by_contra hne
        exact hs.2 hne rfl
      rw [hzero] at hn ⊢
      exact hn
    · unfold atonPart
      split
      all_goals first | exact hn | (rename_i he; exact absurd (List.cons.inj he).1 hc)

theorem inetAton_of_parseIpv4 (h : parseIpv4 s = some n) : inetAton s = some n := by
  simp only [parseIpv4] at h
  split at h
  · rename_i a b c d hs
    simp only [Option.bind_eq_bind, Option.bind_eq_some_iff, Option.pure_def] at h
    obtain ⟨a', ha, b', hb, c', hc, d', hd, hn⟩ := h
    obtain ⟨ha, ha'⟩ := atonPart_of_octet ha
    obtain ⟨hb, hb'⟩ := atonPart_of_octet hb
    obtain ⟨hc, hc'⟩ := atonPart_of_octet hc
    obtain ⟨hd, hd'⟩ := atonPart_of_octet hd
    simp [inetAton, hs, ha, hb, hc, hd, ha', hb', hc', hd', ← hn]
  · cases h

theorem digit_of_parseIpv4 (h : parseIpv4 s = some n) :
    ∀ c ∈ s, c = '.' ∨ (digitValue c).isSome = true := by
  simp only [parseIpv4] at h
  split at h
  · rename_i a b c d hs
    simp only [Option.bind_eq_bind, Option.bind_eq_some_iff, Option.pure_def] at h
    obtain ⟨a', ha, b', hb, c', hc, d', hd, -⟩ := h
    have hdigits {part : List Char} {value : Nat} (h : octet part = some value) :
        ∀ c ∈ part, (digitValue c).isSome = true := by
      simp only [octet] at h
      split_ifs at h
      exact digitValue_of_readNumber (Option.filter_eq_some_iff.mp h).1
    intro x hx
    obtain hx | ⟨part, hpart, hx⟩ := mem_parts (x := '.') hx
    · exact .inl hx
    · rw [hs] at hpart
      simp only [List.mem_cons, List.not_mem_nil, or_false] at hpart
      right
      rcases hpart with rfl | rfl | rfl | rfl
      · exact hdigits ha x hx
      · exact hdigits hb x hx
      · exact hdigits hc x hx
      · exact hdigits hd x hx
  · cases h

theorem parseIpv4_append_dot (s : List Char) : parseIpv4 (s ++ ['.']) = none := by
  have hsplit : (s ++ ['.']).splitOn '.' = s.splitOn '.' ++ [[]] := List.splitOn_append_cons_self s []
  simp only [parseIpv4, hsplit]
  split
  · rename_i a b c d hs
    have hlast : d = [] := by
      have := congrArg List.getLast? hs
      simpa using this.symm
    subst hlast
    have hempty : octet [] = none := rfl
    simp [hempty]
  · rfl

theorem splitScope_zone (zone : List Char) (h : '%' ∉ s) :
    splitScope (s ++ '%' :: zone) = if zone = [] ∨ '%' ∈ zone then none else some s := by
  have hall : ∀ c ∈ s, decide (c ≠ '%') = true := fun c hc => decide_eq_true fun he => h (he ▸ hc)
  have hdrop : (s ++ '%' :: zone).dropWhile (fun c => decide (c ≠ '%')) = '%' :: zone := by
    rw [List.dropWhile_append_of_pos hall]
    rfl
  have htake : (s ++ '%' :: zone).takeWhile (fun c => decide (c ≠ '%')) = s := by
    rw [List.takeWhile_append_of_pos hall]
    simp
  simp only [splitScope, hdrop, htake]

theorem subset_of_splitScope {address : List Char} (h : splitScope s = some address) : address ⊆ s := by
  simp only [splitScope] at h
  split at h
  · obtain rfl := Option.some.inj h
    exact List.Subset.refl _
  · split_ifs at h
    obtain rfl := Option.some.inj h
    exact (List.takeWhile_sublist _).subset

theorem colon_of_parseIpv6 (h : parseIpv6 s = some n) : ':' ∈ s := by
  simp only [parseIpv6] at h
  split_ifs at h
  obtain ⟨address, ha, hg⟩ := Option.bind_eq_some_iff.mp h
  apply subset_of_splitScope ha
  by_contra hc
  simp [parseGroups, List.splitOn_eq_singleton hc, guard] at hg

end Spellings

end EovpnPro.IpAddress
