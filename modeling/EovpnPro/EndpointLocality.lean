import EovpnPro.OvpnParser

namespace EovpnPro.EndpointLocality

open PyText OvpnParser

/-- The lines that the loop over a file does not get to. -/
def unread (digits : Digits) : Proto → List (List Char) → List (List Char)
  | _, [] => []
  | fileProto, raw :: rest =>
      match readLine digits fileProto raw with
      | .skipped | .remote _ => unread digits fileProto rest
      | .proto parsed => unread digits parsed rest
      | .raises => rest

def protoAfter (fileProto : Proto) : List (List Char) → Proto
  | [] => fileProto
  | raw :: rest => protoAfter ((protoLine raw).getD fileProto) rest

/-- The first token is `remote`, in any capitals. -/
def IsRemote (raw : List Char) : Prop := (tokens raw).head?.map lower = some "remote".toList

instance (raw : List Char) : Decidable (IsRemote raw) := inferInstanceAs (Decidable (_ = _))

/-- A line adds one endpoint at most, between those of the lines before it and those
of the lines after it, and all of the lines are read. -/
structure Local (digits : Digits) (before after : List (List Char)) (raw : List Char) : Prop where
  others : ∃ (added : Option Endpoint) (later : List Endpoint),
    parseOvpnEndpoints digits (some (before ++ after)) = parseOvpnEndpoints digits (some before) ++ later ∧
      parseOvpnEndpoints digits (some (before ++ raw :: after)) =
        parseOvpnEndpoints digits (some before) ++ (added.toList ++ later)
  read : unread digits .udp (before ++ raw :: after) = []

variable {digits : Digits} {fileProto : Proto} {raw : List Char} {before after lines : List (List Char)}

def own (digits : Digits) (fileProto : Proto) (raw : List Char) : Option Endpoint :=
  (remoteLine raw).bind fun line =>
    (declared digits line.1 line.2).map fun remote => remote.endpoint fileProto

theorem parseLines_cons (digits : Digits) (fileProto : Proto) (raw : List Char)
    (rest : List (List Char)) :
    parseLines digits fileProto (raw :: rest) = (own digits fileProto raw).toList ++
      if converts digits raw then parseLines digits ((protoLine raw).getD fileProto) rest else [] := by
  rw [parseLines, readLine_eq]
  cases hr : remoteLine raw with
  | none =>
      have hc : converts digits raw = true := by simp only [converts, hr]
      simp only [own, hr, hc, Option.bind_none, Option.toList_none, List.nil_append, if_true]
      cases protoLine raw <;> rfl
  | some line =>
      obtain ⟨host, more⟩ := line
      have hc := declared_isSome_iff digits hr
      simp only [own, hr, Option.bind_some, readRemote_eq, protoLine_of_remoteLine hr, ← hc]
      cases declared digits host more <;> rfl

theorem parseLines_append (digits : Digits) (fileProto : Proto) (lines rest : List (List Char)) :
    parseLines digits fileProto (lines ++ rest) = parseLines digits fileProto lines ++
      if lines.all (converts digits) then parseLines digits (protoAfter fileProto lines) rest else [] := by
  induction lines generalizing fileProto with
  | nil => rfl
  | cons raw lines ih =>
      rw [List.cons_append, parseLines_cons, parseLines_cons, List.append_assoc]
      cases hc : converts digits raw with
      | false => simp [hc]
      | true => simp [hc, ih, protoAfter]

theorem unread_cons (digits : Digits) (fileProto : Proto) (raw : List Char) (rest : List (List Char)) :
    unread digits fileProto (raw :: rest) =
      if converts digits raw then unread digits ((protoLine raw).getD fileProto) rest else rest := by
  rw [unread, readLine_eq]
  cases hr : remoteLine raw with
  | none =>
      have hc : converts digits raw = true := by simp only [converts, hr]
      rw [if_pos hc]
      cases protoLine raw <;> rfl
  | some line =>
      obtain ⟨host, more⟩ := line
      have hc := declared_isSome_iff digits hr
      simp only [readRemote_eq, protoLine_of_remoteLine hr, ← hc]
      cases declared digits host more <;> rfl

theorem unread_eq_nil_iff : unread digits fileProto lines = [] ↔ ∀ line ∈ lines.dropLast, converts digits line := by
  induction lines generalizing fileProto with
  | nil => simp [unread]
  | cons raw rest ih =>
      rw [unread_cons]
      cases rest with
      | nil => simp [unread]
      | cons next rest =>
          rw [List.dropLast_cons_cons, List.forall_mem_cons]
          cases hc : converts digits raw with
          | false => simp
          | true =>
              rw [if_pos rfl, ih]
              simp

theorem protoLine_of_isRemote (h : IsRemote raw) : protoLine raw = none := by
  simp only [IsRemote] at h
  cases ht : tokens raw with
  | nil => simp only [protoLine, ht]
  | cons key rest =>
      rw [ht] at h
      have hk : lower key ≠ "proto".toList := by
        rw [Option.some.inj h]
        decide
      cases rest with
      | nil => simp only [protoLine, ht]
      | cons token rest => simp only [protoLine, ht, if_neg hk]

/-- A remote line leaves the endpoints of all other lines as they are, and every line is
read, exactly when no line but the last has a port of digits that `int` rejects. -/
theorem local_iff (digits : Digits) (before after : List (List Char)) (raw : List Char)
    (hr : IsRemote raw) :
    Local digits before after raw ↔
      ∀ line ∈ (before ++ raw :: after).dropLast, converts digits line = true := by
  refine ⟨fun h => unread_eq_nil_iff.mp h.read, fun h => ⟨?_, unread_eq_nil_iff.mpr h⟩⟩
  have hbefore : before.all (converts digits) = true := by
    rw [List.all_eq_true]
    intro line hl
    apply h line
    rw [List.dropLast_append_of_ne_nil (List.cons_ne_nil _ _)]
    exact List.mem_append_left _ hl
  have hraw : after ≠ [] → converts digits raw = true := by
    intro hne
    apply h raw
    rw [List.dropLast_append_of_ne_nil (List.cons_ne_nil _ _), List.dropLast_cons_of_ne_nil hne]
    exact List.mem_append_right _ List.mem_cons_self
  let fileProto := protoAfter .udp before
  refine ⟨own digits fileProto raw, parseLines digits fileProto after, ?_, ?_⟩
  · apply (parseLines_append digits .udp before after).trans
    rw [if_pos hbefore]
    rfl
  · apply (parseLines_append digits .udp before (raw :: after)).trans
    rw [if_pos hbefore, parseLines_cons, protoLine_of_isRemote hr]
    cases after with
    | nil => simp [parseLines, fileProto, parseOvpnEndpoints]
    | cons next after =>
        rw [if_pos (hraw (List.cons_ne_nil _ _))]
        rfl

def firstRemote : List Char := "remote a.example 443\n".toList

def lastRemote : List Char := "remote c.example 1194 tcp\n".toList

theorem local_word :
    Local unicodeDigits [firstRemote] [lastRemote] "remote b.example port udp\n".toList :=
  (local_iff unicodeDigits _ _ _ (by decide)).mpr (by decide)

/-- A superscript digit as the port ends the parse, and the remote after it is lost. -/
theorem superscript_ends_parse : ¬ ∀ (digits : Digits) (before after : List (List Char)) (raw : List Char),
    IsRemote raw → Local digits before after raw := by
  intro h
  obtain ⟨added, later, hwithout, hwith⟩ :=
    (h unicodeDigits [firstRemote] [lastRemote] "remote b.example ²\n".toList (by decide)).others
  have hfirst : parseOvpnEndpoints unicodeDigits (some [firstRemote]) =
      [⟨"a.example".toList, 443, .udp⟩] := by decide
  have hlater : parseOvpnEndpoints unicodeDigits (some ([firstRemote] ++ [lastRemote])) =
      [⟨"a.example".toList, 443, .udp⟩, ⟨"c.example".toList, 1194, .tcp⟩] := by decide
  have hlost : parseOvpnEndpoints unicodeDigits
      (some ([firstRemote] ++ "remote b.example ²\n".toList :: [lastRemote])) =
      [⟨"a.example".toList, 443, .udp⟩] := by decide
  rw [hfirst, hlater] at hwithout
  rw [hfirst, hlost] at hwith
  have hnone : later = [] :=
    (List.append_eq_nil_iff.mp (List.append_cancel_left (hwith.symm.trans (List.append_nil _).symm))).2
  rw [hnone] at hwithout
  exact absurd (congrArg List.length hwithout) (by decide)

end EovpnPro.EndpointLocality
