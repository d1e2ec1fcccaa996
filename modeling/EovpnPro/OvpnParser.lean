import EovpnPro.PyInt

namespace EovpnPro.OvpnParser

open PyText

inductive Proto
  | tcp
  | udp
  deriving DecidableEq, Repr

structure Endpoint where
  host : List Char
  port : Nat
  proto : Proto
  deriving DecidableEq, Repr

/-- What Unicode says of a character: `isdigit`, and the value that `int` reads. The
superscripts and their like are digits without such a value. -/
structure Digits where
  isDigit : Char → Bool
  decimal : Char → Option Nat

def unicodeDigits : Digits := ⟨PyInt.isDigit, PyInt.decimalValue⟩

/-- What one line is to the parser. -/
inductive Reading
  | skipped
  | proto (proto : Proto)
  | remote (endpoint : Endpoint)
  | raises
  deriving DecidableEq, Repr

def normalizeProto (token : List Char) : Option Proto :=
  let lowered := lower (strip token)
  if "tcp".toList.isPrefixOf lowered then some .tcp
  else if "udp".toList.isPrefixOf lowered then some .udp
  else none

def defaultPort : Nat := 1194

/-- `int` of a text of digits, which raises for a text that is too long as well. -/
def toInt (digits : Digits) (text : List Char) : Option Nat :=
  if 4300 < text.length then none
  else text.foldlM (fun n c => (digits.decimal c).map (10 * n + ·)) 0

def readRemote (digits : Digits) (fileProto : Proto) (host : List Char) : List (List Char) → Reading
  | [] => .remote ⟨host, defaultPort, fileProto⟩
  | token :: more =>
      if token ≠ [] ∧ token.all digits.isDigit = true then
        match toInt digits token with
        | some port => .remote ⟨host, port, (more.head?.bind normalizeProto).getD fileProto⟩
        | none => .raises
      else .remote ⟨host, defaultPort, (normalizeProto token).getD fileProto⟩

def readLine (digits : Digits) (fileProto : Proto) (raw : List Char) : Reading :=
  let line := strip raw
  if line.head? = some '#' ∨ line.head? = some ';' then .skipped
  else
    match split line with
    | key :: host :: more =>
        if lower key = "proto".toList then
          match normalizeProto host with
          | some parsed => .proto parsed
          | none => .skipped
        else if lower key = "remote".toList then readRemote digits fileProto host more
        else .skipped
    | _ => .skipped

/-- The lines after one that raises are not read. -/
def parseLines (digits : Digits) : Proto → List (List Char) → List Endpoint
  | _, [] => []
  | fileProto, raw :: rest =>
      match readLine digits fileProto raw with
      | .skipped => parseLines digits fileProto rest
      | .proto parsed => parseLines digits parsed rest
      | .remote endpoint => endpoint :: parseLines digits fileProto rest
      | .raises => []

/-- The endpoints of a file by its lines, of which there are none to be had where it
cannot be opened. -/
def parseOvpnEndpoints (digits : Digits) (file : Option (List (List Char))) : List Endpoint :=
  (file.map (parseLines digits .udp)).getD []

def parseOvpnRemote (digits : Digits) (file : Option (List (List Char))) : List (List Char × Nat) :=
  (parseOvpnEndpoints digits file).map fun endpoint => (endpoint.host, endpoint.port)

def tokens (raw : List Char) : List (List Char) :=
  let line := strip raw
  if line.head? = some '#' ∨ line.head? = some ';' then [] else split line

def remoteLine (raw : List Char) : Option (List Char × List (List Char)) :=
  match tokens raw with
  | key :: host :: more => if lower key = "remote".toList then some (host, more) else none
  | _ => none

def protoLine (raw : List Char) : Option Proto :=
  match tokens raw with
  | key :: token :: _ => if lower key = "proto".toList then normalizeProto token else none
  | _ => none

/-- What a remote line says by itself: the transport is the one of its own token. -/
structure Remote where
  host : List Char
  port : Nat
  transport : Option Proto
  deriving DecidableEq, Repr

def Remote.endpoint (fileProto : Proto) (remote : Remote) : Endpoint :=
  ⟨remote.host, remote.port, remote.transport.getD fileProto⟩

def declared (digits : Digits) (host : List Char) : List (List Char) → Option Remote
  | [] => some ⟨host, defaultPort, none⟩
  | token :: more =>
      if token ≠ [] ∧ token.all digits.isDigit = true then
        (toInt digits token).map fun port => ⟨host, port, more.head?.bind normalizeProto⟩
      else some ⟨host, defaultPort, normalizeProto token⟩

def converts (digits : Digits) (raw : List Char) : Bool :=
  match remoteLine raw with
  | some (_, port :: _) => !port.all digits.isDigit || (toInt digits port).isSome
  | _ => true

variable {digits : Digits} {fileProto : Proto} {raw host : List Char} {endpoint : Endpoint}

theorem splitFrom_ne_nil {word w s : List Char} (h : w ∈ splitFrom word s) : w ≠ [] := by
  induction s generalizing word with
  | nil =>
      rw [splitFrom] at h
      split at h
      · cases h
      · rename_i hne
        rw [List.mem_singleton.mp h]
        exact mt List.reverse_eq_nil_iff.mp hne
  | cons c cs ih =>
      rw [splitFrom] at h
      split at h
      · split at h
        · exact ih h
        · rename_i hne
          rcases List.mem_cons.mp h with rfl | h
          · exact mt List.reverse_eq_nil_iff.mp hne
          · exact ih h
      · exact ih h

theorem readRemote_host {more : List (List Char)} (h : readRemote digits fileProto host more =
    .remote endpoint) : endpoint.host = host := by
  cases more with
  | nil => cases h; rfl
  | cons token more =>
      simp only [readRemote] at h
      split at h
      · split at h
        · cases h; rfl
        · cases h
      · cases h; rfl

theorem readLine_host (h : readLine digits fileProto raw = .remote endpoint) : endpoint.host ≠ [] := by
  simp only [readLine] at h
  split at h
  · cases h
  · split at h
    · rename_i key host more hsplit
      split at h
      · split at h <;> cases h
      · split at h
        · rw [readRemote_host h]
          exact splitFrom_ne_nil (s := strip raw) (hsplit ▸ List.mem_cons_of_mem _ List.mem_cons_self)
        · cases h
    · cases h

theorem parseLines_host {lines : List (List Char)} (h : endpoint ∈ parseLines digits fileProto lines) :
    endpoint.host ≠ [] := by
  induction lines generalizing fileProto with
  | nil => cases h
  | cons raw rest ih =>
      rw [parseLines] at h
      cases hr : readLine digits fileProto raw with
      | skipped => simp only [hr] at h; exact ih h
      | proto parsed => simp only [hr] at h; exact ih h
      | raises => simp only [hr] at h; cases h
      | remote found =>
          simp only [hr] at h
          rcases List.mem_cons.mp h with rfl | h
          · exact readLine_host hr
          · exact ih h

theorem parseOvpnRemote_host {file : Option (List (List Char))} {remote : List Char × Nat}
    (h : remote ∈ parseOvpnRemote digits file) : remote.1 ≠ [] := by
  obtain ⟨endpoint, hmem, rfl⟩ := List.mem_map.mp h
  cases file with
  | none => cases hmem
  | some lines => exact parseLines_host hmem

theorem readRemote_eq (digits : Digits) (fileProto : Proto) (host : List Char) (more : List (List Char)) :
    readRemote digits fileProto host more =
      match declared digits host more with
      | some remote => .remote (remote.endpoint fileProto)
      | none => .raises := by
  cases more with
  | nil => rfl
  | cons token more =>
      simp only [readRemote, declared]
      split_ifs
      · cases toInt digits token <;> rfl
      · rfl

theorem readLine_eq (digits : Digits) (fileProto : Proto) (raw : List Char) :
    readLine digits fileProto raw =
      match remoteLine raw with
      | some (host, more) => readRemote digits fileProto host more
      | none =>
          match protoLine raw with
          | some parsed => .proto parsed
          | none => .skipped := by
  simp only [readLine, remoteLine, protoLine, tokens]
  split_ifs with hcomment
  · rfl
  · cases split (strip raw) with
    | nil => rfl
    | cons key rest =>
        cases rest with
        | nil => rfl
        | cons host more =>
            simp only
            by_cases hp : lower key = "proto".toList
            · have hr : lower key ≠ "remote".toList := by rw [hp]; decide
              simp only [if_pos hp, if_neg hr]
            · simp only [if_neg hp]
              split_ifs <;> rfl

variable (digits) in
theorem declared_isSome_iff {more : List (List Char)} (hr : remoteLine raw = some (host, more)) :
    (declared digits host more).isSome = converts digits raw := by
  cases more with
  | nil => simp only [declared, converts, hr, Option.isSome_some]
  | cons token more =>
      simp only [declared, converts, hr]
      by_cases hd : token.all digits.isDigit = true
      · cases token with
        | nil => rfl
        | cons c token => simp [hd]
      · simp [hd]

theorem protoLine_of_remoteLine {line : List Char × List (List Char)} (hr : remoteLine raw = some line) :
    protoLine raw = none := by
  simp only [remoteLine, protoLine] at hr ⊢
  split at hr
  · rename_i key host more ht
    split_ifs at hr with hk
    rw [if_neg (by rw [hk]; decide)]
  · cases hr

end EovpnPro.OvpnParser
