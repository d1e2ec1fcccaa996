import EovpnPro.EndpointLocality
import Mathlib.Data.Finset.Image
import Mathlib.Data.List.TakeWhile

namespace EovpnPro.ProtoOrder

open PyText OvpnParser EndpointLocality

/-- `parse_ovpn_protocols`, of a file that is there or not. -/
def parseOvpnProtocols (digits : Digits) (file : Option (List (List Char))) : Finset Proto :=
  ((parseOvpnEndpoints digits file).map Endpoint.proto).toFinset

inductive ProtoMode
  | all
  | only (proto : Proto)
  deriving DecidableEq, Repr

/-- What `matches_server_filter` makes of the protocols. -/
def matchesProto (mode : ProtoMode) (protocols : Finset Proto) : Bool :=
  match mode with
  | .all => true
  | .only proto => decide (proto ∈ protocols)

def formatProtoBadge (protocols : Finset Proto) : String :=
  if .tcp ∈ protocols ∧ .udp ∈ protocols then "TCP/UDP"
  else if .tcp ∈ protocols then "TCP"
  else if .udp ∈ protocols then "UDP"
  else ""

def protoBadgeCss (protocols : Finset Proto) : String :=
  if .tcp ∈ protocols ∧ .udp ∈ protocols then "proto-both"
  else if .tcp ∈ protocols then "proto-tcp"
  else if .udp ∈ protocols then "proto-udp"
  else ""

def fileProtocol (lines : List (List Char)) : Proto := ((lines.filterMap protoLine).head?).getD .udp

def remote (digits : Digits) (raw : List Char) : Option Remote :=
  (remoteLine raw).bind fun line => declared digits line.1 line.2

def remotes (digits : Digits) (lines : List (List Char)) : List Remote :=
  (lines.takeWhile (converts digits)).filterMap (remote digits)

/-- Each remote has the transport of its own token, or else that of the file. -/
def Declared (digits : Digits) (lines : List (List Char)) : Prop :=
  parseOvpnEndpoints digits (some lines) = (remotes digits lines).map (Remote.endpoint (fileProtocol lines))

/-- The proto line of a file elsewhere. -/
def Moved (lines other : List (List Char)) : Prop :=
  ∃ line before after before' after', (protoLine line).isSome = true ∧
    lines = before ++ line :: after ∧ other = before' ++ line :: after' ∧
      before ++ after = before' ++ after'

/-- The protocols, and what the filter and the badge make of them, stay the same when
the proto line moves. -/
def Unmoved (digits : Digits) (lines : List (List Char)) : Prop :=
  ∀ other, Moved lines other →
    let protocols := parseOvpnProtocols digits (some lines)
    let protocols' := parseOvpnProtocols digits (some other)
    protocols' = protocols ∧ (∀ mode, matchesProto mode protocols' = matchesProto mode protocols) ∧
      formatProtoBadge protocols' = formatProtoBadge protocols ∧
      protoBadgeCss protocols' = protoBadgeCss protocols

variable {digits : Digits} {fileProto : Proto} {raw line : List Char}
  {before after lines other : List (List Char)}

theorem own_eq (digits : Digits) (fileProto : Proto) (raw : List Char) :
    own digits fileProto raw = (remote digits raw).map (Remote.endpoint fileProto) := by
  cases hr : remoteLine raw with
  | none => simp only [own, remote, hr, Option.bind_none, Option.map_none]
  | some line => simp only [own, remote, hr, Option.bind_some]

theorem remote_of_protoLine (h : (protoLine line).isSome = true) : remoteLine line = none := by
  cases hr : remoteLine line with
  | none => rfl
  | some found => rw [protoLine_of_remoteLine hr] at h; cases h

theorem remotes_append (digits : Digits) (before after : List (List Char)) :
    remotes digits (before ++ after) = remotes digits before ++
      if before.all (converts digits) then remotes digits after else [] := by
  simp only [remotes]
  by_cases hb : before.all (converts digits) = true
  · have hbefore := List.all_eq_true.mp hb
    rw [if_pos hb, List.takeWhile_append_of_pos hbefore, List.filterMap_append,
      List.takeWhile_eq_self_iff.mpr hbefore]
  · rw [if_neg hb, List.append_nil, List.takeWhile_append, if_neg]
    intro hlength
    apply hb
    rw [List.all_eq_true]
    exact List.takeWhile_eq_self_iff.mp (List.takeWhile_prefix _ |>.eq_of_length hlength)

theorem remotes_of_protoLine (h : (protoLine line).isSome = true) :
    remotes digits (before ++ line :: after) = remotes digits (before ++ after) := by
  have hr := remote_of_protoLine h
  have hc : converts digits line = true := by simp only [converts, hr]
  have hline : remotes digits (line :: after) = remotes digits after := by
    simp only [remotes, List.takeWhile_cons, hc, if_true, List.filterMap_cons, remote, hr, Option.bind_none]
  rw [remotes_append, remotes_append, hline]

/-- Without a proto line the protocol that holds before the lines holds for all of them. -/
theorem parseLines_quiet (h : lines.filterMap protoLine = []) :
    parseLines digits fileProto lines = (remotes digits lines).map (Remote.endpoint fileProto) := by
  induction lines with
  | nil => rfl
  | cons raw rest ih =>
      rw [List.filterMap_eq_nil_iff, List.forall_mem_cons] at h
      obtain ⟨hraw, hrest⟩ := h
      rw [parseLines_cons, hraw, Option.getD_none, ih (List.filterMap_eq_nil_iff.mpr hrest), own_eq,
        remotes, remotes, List.takeWhile_cons]
      cases hc : converts digits raw with
      | false =>
          have hnone : remote digits raw = none := by
            rw [remote]
            cases hr : remoteLine raw with
            | none => rfl
            | some line =>
                have hd : (declared digits line.1 line.2).isSome = converts digits raw :=
                  declared_isSome_iff digits hr
                rw [hc, Option.isSome_eq_false_iff, Option.isNone_iff_eq_none] at hd
                exact hd
          simp [hnone]
      | true => cases hr : remote digits raw <;> simp [hr]

theorem parseLines_moved (h : (protoLine line) = some fileProto) (hb : before.filterMap protoLine = [])
    (ha : after.filterMap protoLine = []) :
    parseOvpnEndpoints digits (some (before ++ line :: after)) =
      (remotes digits before).map (Remote.endpoint .udp) ++
        if before.all (converts digits) then (remotes digits after).map (Remote.endpoint fileProto)
        else [] := by
  have hsome : (protoLine line).isSome = true := by rw [h]; rfl
  have hr := remote_of_protoLine hsome
  have hc : converts digits line = true := by simp only [converts, hr]
  apply (parseLines_append digits .udp before (line :: after)).trans
  rw [parseLines_quiet hb, parseLines_cons, own, hr, hc, h, Option.getD_some, parseLines_quiet ha]
  rfl

def later (digits : Digits) (before after : List (List Char)) : List Remote :=
  if before.all (converts digits) then remotes digits after else []

theorem quiet_around (h : ((before ++ line :: after).filterMap protoLine).length ≤ 1)
    (hl : protoLine line = some fileProto) :
    before.filterMap protoLine = [] ∧ after.filterMap protoLine = [] ∧
      fileProtocol (before ++ line :: after) = fileProto := by
  have hall : (before ++ line :: after).filterMap protoLine =
      before.filterMap protoLine ++ fileProto :: after.filterMap protoLine := by
    rw [List.filterMap_append, List.filterMap_cons, hl]
  rw [hall, List.length_append, List.length_cons] at h
  have hb : before.filterMap protoLine = [] := List.length_eq_zero_iff.mp (by omega)
  have ha : after.filterMap protoLine = [] := List.length_eq_zero_iff.mp (by omega)
  refine ⟨hb, ha, ?_⟩
  rw [fileProtocol, hall, hb]
  rfl

theorem exists_protoLine (h : lines.filterMap protoLine ≠ []) :
    ∃ before line after fileProto, lines = before ++ line :: after ∧ protoLine line = some fileProto := by
  obtain ⟨fileProto, hmem⟩ := List.exists_mem_of_ne_nil _ h
  obtain ⟨line, hline, hproto⟩ := List.mem_filterMap.mp hmem
  obtain ⟨before, after, rfl⟩ := List.append_of_mem hline
  exact ⟨before, line, after, fileProto, rfl, hproto⟩

theorem takeWhile_quiet (hb : before.filterMap protoLine = []) (hl : protoLine line = some fileProto) :
    (before ++ line :: after).takeWhile (fun raw => (protoLine raw).isNone) = before := by
  rw [List.filterMap_eq_nil_iff] at hb
  rw [List.takeWhile_append_of_pos fun raw hraw => Option.isNone_iff_eq_none.mpr (hb raw hraw),
    List.takeWhile_cons, hl]
  exact List.append_nil before

theorem map_endpoint_eq_iff {found : List Remote} :
    found.map (Remote.endpoint .udp) = found.map (Remote.endpoint fileProto) ↔
      fileProto = .udp ∨ ∀ remote ∈ found, remote.transport.isSome = true := by
  rw [List.map_inj_left]
  constructor
  · intro h
    by_contra hne
    rw [not_or, not_forall] at hne
    obtain ⟨hproto, remote, hne⟩ := hne
    rw [Classical.not_imp] at hne
    have hsame := congrArg Endpoint.proto (h remote hne.1)
    rw [Bool.not_eq_true, Option.isSome_eq_false_iff, Option.isNone_iff_eq_none] at hne
    rw [Remote.endpoint, Remote.endpoint, hne.2] at hsame
    exact hproto hsame.symm
  · rintro (rfl | hown) remote hmem
    · rfl
    · obtain ⟨proto, hproto⟩ := Option.isSome_iff_exists.mp (hown remote hmem)
      simp only [Remote.endpoint, hproto, Option.getD_some]

/-- Each remote has the right protocol exactly when the file's is UDP or the remotes
before the proto line have one of their own. -/
theorem declared_iff (h : (lines.filterMap protoLine).length ≤ 1) :
    Declared digits lines ↔ fileProtocol lines = .udp ∨
      ∀ remote ∈ remotes digits (lines.takeWhile fun raw => (protoLine raw).isNone),
        remote.transport.isSome = true := by
  by_cases hq : lines.filterMap protoLine = []
  · have hudp : fileProtocol lines = .udp := by rw [fileProtocol, hq]; rfl
    refine iff_of_true ?_ (.inl hudp)
    rw [Declared, hudp]
    exact parseLines_quiet hq
  · obtain ⟨before, line, after, fileProto, rfl, hl⟩ := exists_protoLine hq
    obtain ⟨hb, ha, hproto⟩ := quiet_around h hl
    have hlater : (if before.all (converts digits) = true then
          (remotes digits after).map (Remote.endpoint fileProto) else []) =
        (later digits before after).map (Remote.endpoint fileProto) := by
      rw [later]
      split_ifs <;> rfl
    have hsome : (protoLine line).isSome = true := by rw [hl]; rfl
    rw [Declared, hproto, parseLines_moved hl hb ha, remotes_of_protoLine hsome, remotes_append,
      List.map_append, hlater, takeWhile_quiet hb hl, ← map_endpoint_eq_iff]
    exact List.append_left_inj _

variable (digits) in
theorem mem_parseOvpnProtocols (proto : Proto) (hl : protoLine line = some fileProto)
    (hb : before.filterMap protoLine = []) (ha : after.filterMap protoLine = []) :
    proto ∈ parseOvpnProtocols digits (some (before ++ line :: after)) ↔
      (∃ remote ∈ remotes digits before, remote.transport.getD .udp = proto) ∨
        ∃ remote ∈ later digits before after, remote.transport.getD fileProto = proto := by
  rw [parseOvpnProtocols, List.mem_toFinset, parseLines_moved hl hb ha, List.map_append, List.mem_append,
    later]
  split_ifs <;> simp [Remote.endpoint]

theorem remotes_eq (hl : protoLine line = some fileProto) :
    remotes digits (before ++ line :: after) = remotes digits before ++ later digits before after := by
  rw [remotes_of_protoLine (by rw [hl]; rfl), remotes_append]
  rfl

def Settled (digits : Digits) (lines : List (List Char)) : Prop :=
  fileProtocol lines = .udp ∨ (∀ remote ∈ remotes digits lines, remote.transport.isSome = true) ∨
    ∀ proto, ∃ remote ∈ remotes digits lines, remote.transport = some proto

theorem mem_of_settled {proto : Proto} (h : ((before ++ line :: after).filterMap protoLine).length ≤ 1)
    (hl : protoLine line = some fileProto) (hs : Settled digits (before ++ line :: after)) :
    proto ∈ parseOvpnProtocols digits (some (before ++ line :: after)) ↔
      ∃ remote ∈ remotes digits (before ++ line :: after), remote.transport.getD fileProto = proto := by
  obtain ⟨hb, ha, hproto⟩ := quiet_around h hl
  rw [Settled, hproto] at hs
  rw [mem_parseOvpnProtocols digits _ hl hb ha, remotes_eq hl] at *
  simp only [List.mem_append] at hs ⊢
  rcases hs with rfl | hown | hboth
  · simp only [or_and_right, exists_or]
  · have hany (remote : Remote) (hr : remote ∈ remotes digits before ∨ remote ∈ later digits before after) :
        remote.transport.getD .udp = remote.transport.getD fileProto := by
      obtain ⟨found, hfound⟩ := Option.isSome_iff_exists.mp (hown remote hr)
      rw [hfound]
      rfl
    simp only [or_and_right, exists_or]
    refine or_congr_left (exists_congr fun remote => and_congr_right fun hr => ?_)
    rw [hany remote (.inl hr)]
  · obtain ⟨remote, hr, hown⟩ := hboth proto
    refine iff_of_true ?_ ⟨remote, hr, by rw [hown]; rfl⟩
    exact hr.imp (fun hr => ⟨remote, hr, by rw [hown]; rfl⟩) fun hr => ⟨remote, hr, by rw [hown]; rfl⟩

theorem protocols_of_settled (h : (lines.filterMap protoLine).length ≤ 1) (hs : Settled digits lines)
    (hm : Moved lines other) :
    parseOvpnProtocols digits (some other) = parseOvpnProtocols digits (some lines) := by
  obtain ⟨line, before, after, before', after', hsome, rfl, rfl, hsame⟩ := hm
  obtain ⟨fileProto, hl⟩ := Option.isSome_iff_exists.mp hsome
  have hcount : ((before' ++ line :: after').filterMap protoLine).length ≤ 1 := by
    have hlength := congrArg (fun lines => (lines.filterMap protoLine).length) hsame
    simp only [List.filterMap_append, List.filterMap_cons, hl, List.length_append, List.length_cons] at *
    omega
  have hremotes : remotes digits (before' ++ line :: after') =
    remotes digits (before ++ line :: after) := by
    rw [remotes_of_protoLine hsome, remotes_of_protoLine hsome, hsame]
  have hs' : Settled digits (before' ++ line :: after') := by
    rw [Settled, (quiet_around hcount hl).2.2, hremotes, ← (quiet_around h hl).2.2]
    exact hs
  ext proto
  rw [mem_of_settled hcount hl hs', mem_of_settled h hl hs, hremotes]

theorem ends_of_unmoved (hl : protoLine line = some fileProto) (hb : before.filterMap protoLine = [])
    (ha : after.filterMap protoLine = []) (hu : Unmoved digits (before ++ line :: after)) (proto : Proto) :
    (∃ remote ∈ remotes digits (before ++ after), remote.transport.getD fileProto = proto) ↔
      ∃ remote ∈ remotes digits (before ++ after), remote.transport.getD .udp = proto := by
  have hquiet : (before ++ after).filterMap protoLine = [] := by rw [List.filterMap_append, hb, ha]; rfl
  have hsome : (protoLine line).isSome = true := by rw [hl]; rfl
  have hfront := (hu ([] ++ line :: (before ++ after)) ⟨line, before, after, [], _, hsome, rfl, rfl, rfl⟩).1
  have hback := (hu ((before ++ after) ++ line :: [])
    ⟨line, before, after, _, [], hsome, rfl, rfl, (List.append_nil _).symm⟩).1
  have hnone : remotes digits [] = [] := rfl
  have hempty : ([] : List (List Char)).filterMap protoLine = [] := rfl
  have hstart := mem_parseOvpnProtocols digits proto hl hempty hquiet
  have hend := mem_parseOvpnProtocols digits proto hl hquiet hempty
  simp only [later, hnone, List.all_nil, if_true, ite_self, List.not_mem_nil, false_and, exists_false,
    or_false, false_or] at hstart hend
  rw [← hstart, ← hend, hfront, hback]

theorem exists_own {found : List Remote} {proto default : Proto} (hne : default ≠ proto)
    (h : ∃ remote ∈ found, remote.transport.getD default = proto) :
    ∃ remote ∈ found, remote.transport = some proto := by
  obtain ⟨remote, hr, he⟩ := h
  cases ht : remote.transport with
  | none => rw [ht] at he; exact absurd he hne
  | some own => rw [ht] at he; exact ⟨remote, hr, by rw [ht, ← he]; rfl⟩

theorem settled_of_unmoved (h : (lines.filterMap protoLine).length ≤ 1) (hu : Unmoved digits lines) :
    Settled digits lines := by
  by_contra hs
  simp only [Settled, not_or] at hs
  obtain ⟨hudp, hown, hboth⟩ := hs
  have hq : lines.filterMap protoLine ≠ [] := by
    intro hnone
    rw [fileProtocol, hnone] at hudp
    exact hudp rfl
  obtain ⟨before, line, after, fileProto, rfl, hl⟩ := exists_protoLine hq
  obtain ⟨hb, ha, hproto⟩ := quiet_around h hl
  rw [hproto] at hudp
  rw [remotes_of_protoLine (by rw [hl]; rfl)] at hown hboth
  have hends := ends_of_unmoved hl hb ha hu
  obtain ⟨remote, hr, hnone⟩ : ∃ remote ∈ remotes digits (before ++ after), remote.transport = none := by
    simpa only [not_forall, Option.not_isSome_iff_eq_none, exists_prop] using hown
  have htcp : fileProto = .tcp := by cases fileProto with
    | tcp => rfl
    | udp => exact absurd rfl hudp
  subst htcp
  apply hboth
  intro proto
  cases proto with
  | tcp => exact exists_own (by decide) ((hends .tcp).mp ⟨remote, hr, by rw [hnone]; rfl⟩)
  | udp => exact exists_own (by decide) ((hends .udp).mpr ⟨remote, hr, by rw [hnone]; rfl⟩)

/-- In a file with one proto line at most, each remote has the right protocol exactly when
the file's is UDP or all remotes before the proto line have one of their own; and
the protocols do not change as that line moves exactly when the file's is UDP, or
all remotes have one of their own, or both are among these. -/
theorem order_iff (digits : Digits) (lines : List (List Char))
    (h : (lines.filterMap protoLine).length ≤ 1) :
    (Declared digits lines ↔ fileProtocol lines = .udp ∨
      ∀ remote ∈ remotes digits (lines.takeWhile fun raw => (protoLine raw).isNone),
        remote.transport.isSome = true) ∧
    (Unmoved digits lines ↔ fileProtocol lines = .udp ∨
      (∀ remote ∈ remotes digits lines, remote.transport.isSome = true) ∨
        ∀ proto, ∃ remote ∈ remotes digits lines, remote.transport = some proto) := by
  refine ⟨declared_iff h, settled_of_unmoved h, fun hs other hm => ?_⟩
  have hsame := protocols_of_settled h hs hm
  exact ⟨hsame, fun mode => by rw [hsame], by rw [hsame], by rw [hsame]⟩

def protoFirst : List (List Char) := ["proto tcp\n".toList, "remote a.example 443\n".toList]

def protoLast : List (List Char) := ["remote a.example 443\n".toList, "proto tcp\n".toList]

theorem order_protoFirst : Declared unicodeDigits protoFirst :=
  (order_iff unicodeDigits protoFirst (by decide)).1.mpr (by decide)

/-- A proto line after the remote it is for comes too late. -/
theorem proto_too_late : ¬ ∀ (digits : Digits) (lines : List (List Char)),
    (lines.filterMap protoLine).length ≤ 1 → Declared digits lines ∧ Unmoved digits lines := by
  intro h
  have hdeclared := (h unicodeDigits protoLast (by decide)).1
  have hparsed : parseOvpnEndpoints unicodeDigits (some protoLast) = [⟨"a.example".toList, 443, .udp⟩] := by
    decide
  have hright : (remotes unicodeDigits protoLast).map (Remote.endpoint (fileProtocol protoLast)) =
      [⟨"a.example".toList, 443, .tcp⟩] := by decide
  rw [Declared, hparsed, hright] at hdeclared
  exact absurd hdeclared (by decide)

end EovpnPro.ProtoOrder
