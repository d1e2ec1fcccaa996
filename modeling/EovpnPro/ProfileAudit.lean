import EovpnPro.PyText
import Mathlib.Data.List.Dedup
import Mathlib.Data.List.Sort
import Mathlib.Data.String.Basic

namespace EovpnPro.ProfileAudit

open PyText

def dangerousOvpnDirectives : List String :=
  ["up", "down", "route-up", "route-pre-down", "route-post-down", "ipchange", "learn-address",
    "client-connect", "client-disconnect", "tls-verify", "iproute", "script-security", "setenv",
    "plugin", "management", "auth-user-pass", "auth-user-pass-verify", "tls-crypt-v2-verify"]

def directive (raw : List Char) : Option String :=
  let line := strip raw
  if line = [] ∨ line.head? = some '#' ∨ line.head? = some ';' then none
  else match split line with
    | [] => none
    | first :: arguments =>
        let key := String.ofList (lower first)
        if key ∉ dangerousOvpnDirectives then none
        -- plain auth-user-pass is the keyring flow
        else if key = "auth-user-pass" ∧ arguments = [] then none
        else some key

def found (text : List Char) : List String := (lines text).filterMap directive

def audit (text : List Char) : List String := (found text).dedup.insertionSort (· ≤ ·)

/-- `audit_ovpn_content`, of a file given by its decoded text. One that cannot be
opened is logged, and nothing is found in it. -/
def auditOvpnContent : Option (List Char) → List String
  | some text => audit (universalNewlines text)
  | none => []

def refusal (suspicious : List String) : String :=
  "Refusing to connect an untrusted profile containing: " ++ ", ".intercalate suspicious

/-- The certificate setting, and the file it names when that exists. -/
inductive CaSetting
  | unset
  | missing
  | file (text : Option (List Char))
  deriving DecidableEq, Repr

def CaSetting.text : CaSetting → List Char
  | .file (some ca) => universalNewlines ca
  | _ => []

def caBlock (ca : List Char) : List Char := "\n<ca>\n".toList ++ ca ++ "\n</ca>\n".toList

/-- The profile followed by the certificate, `none` when the latter exists and
cannot be opened. -/
def appendCa (text : List Char) : CaSetting → Option (List Char)
  | .file none => none
  | .file (some ca) => some (text ++ caBlock (universalNewlines ca))
  | _ => some text

/-- The text that `NetworkManager._connect_blocking` writes to its private copy. -/
def copied (config : Option (List Char)) (ca : CaSetting) : Option (List Char) :=
  config.bind fun text => appendCa (universalNewlines text ++ ['\n']) ca

def configContent (config : Option (List Char)) (ca : CaSetting) : Option (List Char) :=
  config.bind fun text => appendCa (universalNewlines text) ca

theorem directive_append_newline (w : List Char) : directive (w ++ ['\n']) = directive w := by
  have hs : strip (w ++ ['\n']) = strip w := strip_append_space (by decide) w
  rw [directive, directive, hs]

@[simp] theorem found_append_newline (s t : List Char) : found (s ++ '\n' :: t) = found s ++ found t :=
  filterMap_lines_append directive_append_newline (by decide) s t

@[simp] theorem found_nil : found [] = [] := rfl

theorem audit_eq_nil_iff {text : List Char} : audit text = [] ↔ found text = [] := by
  rw [← List.length_eq_zero_iff, audit, List.length_insertionSort, List.length_eq_zero_iff, List.dedup_eq_nil]

theorem caBlock_eq (ca : List Char) :
    caBlock ca = '\n' :: ("<ca>".toList ++ '\n' :: (ca ++ '\n' :: ("</ca>".toList ++ '\n' :: []))) := by
  have hfirst : "\n<ca>\n".toList = '\n' :: "<ca>".toList ++ ['\n'] := by decide
  have hlast : "\n</ca>\n".toList = '\n' :: "</ca>".toList ++ ['\n'] := by decide
  change "\n<ca>\n".toList ++ ca ++ "\n</ca>\n".toList = _
  rw [hfirst, hlast]
  simp only [List.append_assoc, List.cons_append, List.nil_append]

theorem found_caBlock (text ca : List Char) : found (text ++ caBlock ca) = found text ++ found ca := by
  have hopen : found "<ca>".toList = [] := by decide
  have hclose : found "</ca>".toList = [] := by decide
  calc found (text ++ caBlock ca)
      = found (text ++ '\n' :: ("<ca>".toList ++ '\n' :: (ca ++ '\n' :: ("</ca>".toList ++ '\n' :: [])))) :=
        congrArg (fun block => found (text ++ block)) (caBlock_eq ca)
    _ = found text ++ found ca := by
        simp only [found_append_newline, hopen, hclose, found_nil, List.nil_append, List.append_nil]

theorem found_appendCa {text document : List Char} {ca : CaSetting} (ht : found text = [])
    (hd : appendCa text ca = some document) : found document = found ca.text := by
  cases ca with
  | unset | missing =>
      obtain rfl := Option.some.inj hd
      exact ht
  | file file =>
      cases file with
      | none => cases hd
      | some ca =>
          obtain rfl := Option.some.inj hd
          rw [found_caBlock, ht, List.nil_append, CaSetting.text]

theorem not_mem_appendCa {text document : List Char} {ca : CaSetting} (ht : '\r' ∉ text)
    (hd : appendCa text ca = some document) : '\r' ∉ document := by
  cases ca with
  | unset | missing =>
      obtain rfl := Option.some.inj hd
      exact ht
  | file file =>
      cases file with
      | none => cases hd
      | some ca =>
          obtain rfl := Option.some.inj hd
          have hc := not_mem_universalNewlines ca
          have hopen : '\r' ∉ "<ca>".toList := by decide
          have hclose : '\r' ∉ "</ca>".toList := by decide
          have hfeed : '\r' ≠ '\n' := by decide
          simp only [caBlock_eq, List.mem_append, List.mem_cons, List.not_mem_nil, or_false, not_or]
          exact ⟨ht, hfeed, hopen, hfeed, hc, hfeed, hclose, hfeed⟩

theorem auditOvpnContent_eq_nil_iff {document : List Char} (hd : '\r' ∉ document) :
    auditOvpnContent (some document) = [] ↔ found document = [] := by
  rw [auditOvpnContent, universalNewlines_of_not_mem hd, audit_eq_nil_iff]

theorem audit_copied_iff {config : Option (List Char)} {ca : CaSetting} {document : List Char}
    (hg : auditOvpnContent config = []) (hd : copied config ca = some document) :
    auditOvpnContent (some document) = [] ↔ audit ca.text = [] := by
  obtain ⟨text, rfl, hd⟩ := Option.bind_eq_some_iff.mp hd
  have ht : found (universalNewlines text ++ ['\n']) = [] := by
    rw [found_append_newline, found_nil, List.append_nil]
    exact audit_eq_nil_iff.mp hg
  have hr : '\r' ∉ universalNewlines text ++ ['\n'] := by
    simpa using not_mem_universalNewlines text
  rw [auditOvpnContent_eq_nil_iff (not_mem_appendCa hr hd), found_appendCa ht hd, audit_eq_nil_iff]

theorem audit_configContent_iff {config : Option (List Char)} {ca : CaSetting} {document : List Char}
    (hg : auditOvpnContent config = []) (hd : configContent config ca = some document) :
    auditOvpnContent (some document) = [] ↔ audit ca.text = [] := by
  obtain ⟨text, rfl, hd⟩ := Option.bind_eq_some_iff.mp hd
  rw [auditOvpnContent_eq_nil_iff (not_mem_appendCa (not_mem_universalNewlines text) hd),
    found_appendCa (audit_eq_nil_iff.mp hg) hd, audit_eq_nil_iff]

end EovpnPro.ProfileAudit
