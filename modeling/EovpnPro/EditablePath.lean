import EovpnPro.FileTrees
import EovpnPro.PyText
import EovpnPro.Resolution

namespace EovpnPro.EditablePath

open FileTrees PyText Resolution

variable {C : Type}

def isAbsolute (text : List Char) : Bool := text.head? = some '/'

def component (text : List Char) : Option (Comp String) :=
  if text = [] ∨ text = ['.'] then none
  else if text = ['.', '.'] then some .up
  else some (.name (String.ofList text))

def parts (text : List Char) : List (Comp String) := (text.splitOn '/').filterMap component

def below : Node C → List String → Option (Node C)
  | node, [] => some node
  | .dir entries, name :: rest => (entries.find name).bind fun node => below node rest
  | _, _ :: _ => none

def kind : Node C → Kind String
  | .link target => .link (isAbsolute target.toList) (parts target.toList)
  | _ => .plain

/-- What `lstat` tells of a place below the root. -/
def lstat (root : Entries C) (place : List String) : Option (Kind String) := (below (.dir root) place).map kind

mutual

def linksOf (place : List String) : Node C → List (List String)
  | .link _ => [place]
  | .dir entries => linksIn place entries
  | .file _ | .special => []

def linksIn (place : List String) : Entries C → List (List String)
  | .nil => []
  | .cons name node rest => linksOf (place ++ [name]) node ++ linksIn place rest

end

/-- `os.path.realpath` with `strict`, from a place. -/
def realpath (root : Entries C) (place : List String) (path : List (Comp String)) : Option (List String) :=
  walk (lstat root) (linksIn [] root).length place path

/-- `Path(text).resolve(strict=True)` -/
def resolve (root : Entries C) (cwd : List String) (text : List Char) : Option (List String) :=
  realpath root (if isAbsolute text then [] else cwd) (parts text)

/-- `base / filename`, where an absolute path takes the place of the base. -/
def joined (base : List String) (filename : List Char) : List (Comp String) :=
  if isAbsolute filename then parts filename else base.map .name ++ parts filename

/-- `PurePath.suffix`: neither a leading dot nor a last one makes a suffix. -/
def suffix (name : List Char) : List Char :=
  let tail := name.reverse.takeWhile (· ≠ '.')
  let stem := (name.reverse.dropWhile (· ≠ '.')).tail
  if stem ≠ [] ∧ tail ≠ [] then '.' :: tail.reverse else []

def isOvpn (target : List String) : Bool :=
  lower (suffix (target.getLastD "").toList) = ".ovpn".toList

def isFile (root : Entries C) (target : List String) : Bool :=
  match below (.dir root) target with
  | some (.file _) => true
  | _ => false

/-- `ConfigRow._resolve_editable_path` -/
def resolveEditablePath (root : Entries C) (cwd : List String) (ovpnDir filename : List Char) :
    Option (List String) :=
  match resolve root cwd ovpnDir with
  | none => none
  | some baseDir =>
      match realpath root [] (joined baseDir filename) with
      | none => none
      | some target =>
          if !isOvpn target then none
          else if ¬baseDir <+: target then none
          else if !isFile root target then none
          else some target

/-- `str(target)`, which the launcher is given. -/
def pathText (target : List String) : List Char := '/' :: ['/'].intercalate (target.map String.toList)

def onEditClicked (root : Entries C) (cwd : List String) (ovpnDir filename : List Char) : Option (List Char) :=
  (resolveEditablePath root cwd ovpnDir filename).map pathText

mutual

theorem mem_linksOf : ∀ (node : Node C) (place rest : List String) (target : String),
    below node rest = some (.link target) → place ++ rest ∈ linksOf place node
  | .link _, place, [], _, _ => by simp [linksOf]
  | .link _, _, _ :: _, _, h => by cases h
  | .file _, _, [], _, h => by cases h
  | .file _, _, _ :: _, _, h => by cases h
  | .special, _, [], _, h => by cases h
  | .special, _, _ :: _, _, h => by cases h
  | .dir _, _, [], _, h => by cases h
  | .dir entries, place, name :: rest, target, h => by
      obtain ⟨node, hfind, hbelow⟩ := Option.bind_eq_some_iff.mp h
      exact mem_linksIn entries place name rest node target hfind hbelow

theorem mem_linksIn : ∀ (entries : Entries C) (place : List String) (name : String) (rest : List String)
    (node : Node C) (target : String), entries.find name = some node → below node rest = some (.link target) →
      place ++ name :: rest ∈ linksIn place entries
  | .nil, _, _, _, _, _, h, _ => by cases h
  | .cons n node others, place, name, rest, found, target, hfind, hbelow => by
      rw [Entries.find] at hfind
      rw [linksIn, List.mem_append]
      split at hfind
      · rename_i hn
        cases hfind
        subst hn
        left
        have h := mem_linksOf node (place ++ [n]) rest target hbelow
        rwa [List.append_assoc, List.singleton_append] at h
      · exact .inr (mem_linksIn others place name rest found target hfind hbelow)

end

theorem mem_links {root : Entries C} {place : List String} (h : (lstat root place).any Kind.isLink = true) :
    place ∈ linksIn [] root := by
  cases hb : below (.dir root) place with
  | none => simp [lstat, hb] at h
  | some node =>
      cases node with
      | link target =>
          have hmem := mem_linksOf (.dir root) [] place target hb
          simpa [linksOf] using hmem
      | file | special | dir => simp [lstat, hb, kind, Kind.isLink] at h

theorem realpath_iff {root : Entries C} {place target : List String} {path : List (Comp String)} :
    realpath root place path = some target ↔ Leads (lstat root) place path target :=
  (leads_iff fun _ h => mem_links h).symm

def start (place : List String) (text : List Char) : List String := if isAbsolute text then [] else place

theorem resolve_iff {root : Entries C} {cwd target : List String} {text : List Char} :
    resolve root cwd text = some target ↔ Leads (lstat root) (start cwd text) (parts text) target :=
  realpath_iff

theorem start_canonical {root : Entries C} {place : List String} (h : Canonical (lstat root) place)
    (text : List Char) : Canonical (lstat root) (start place text) := by
  rw [start]
  split
  · exact canonical_nil
  · exact h

theorem joined_iff {root : Entries C} {base target : List String} {filename : List Char}
    (hbase : Canonical (lstat root) base) :
    realpath root [] (joined base filename) = some target ↔
      Leads (lstat root) (start base filename) (parts filename) target := by
  rw [joined, start]
  split
  · exact realpath_iff
  · have hnames : ∀ depth, walk (lstat root) depth [] (base.map .name) = some base := by
      intro depth
      have h : walk (lstat root) depth [] (base.map .name) = some ([] ++ base) :=
        walk_names depth (by rwa [List.nil_append])
      rwa [List.nil_append] at h
    rw [realpath_iff]
    simp only [Leads, walk_append, hnames, Option.bind_some]

theorem isFile_iff {root : Entries C} {target : List String} :
    isFile root target = true ↔ ∃ content, below (.dir root) target = some (.file content) := by
  cases h : below (.dir root) target with
  | none => simp [isFile, h]
  | some node => cases node <;> simp [isFile, h]

theorem resolved_file {root : Entries C} {cwd target : List String} {ovpnDir filename : List Char}
    (hcwd : Canonical (lstat root) cwd) (h : resolveEditablePath root cwd ovpnDir filename = some target) :
    ∃ base names content, Leads (lstat root) (start cwd ovpnDir) (parts ovpnDir) base ∧
      Leads (lstat root) (start base filename) (parts filename) target ∧ target = base ++ names ∧
      Canonical (lstat root) target ∧ below (.dir root) target = some (.file content) ∧
      isOvpn target = true := by
  rw [resolveEditablePath] at h
  split at h
  · cases h
  · rename_i base hbase
    rw [resolve_iff] at hbase
    have hcanonical := hbase.canonical (start_canonical hcwd ovpnDir)
    split at h
    · cases h
    · rename_i found hfound
      rw [joined_iff hcanonical] at hfound
      split at h
      · cases h
      · rename_i hsuffix
        split at h
        · cases h
        · rename_i hinside
          split at h
          · cases h
          · rename_i hfile
            cases h
            obtain ⟨names, rfl⟩ := not_not.mp hinside
            obtain ⟨content, hcontent⟩ := isFile_iff.mp (by simpa using hfile)
            exact ⟨base, names, content, hbase, hfound, rfl,
              hfound.canonical (start_canonical hcanonical filename), hcontent, by simpa using hsuffix⟩

/-- The row's file is editable where the name leads, through whatever links, to a
regular file with the suffix that lies below the managed directory, and it is then
opened under its own address, without a link on the way. -/
theorem editable_iff {root : Entries C} {cwd : List String} (hcwd : Canonical (lstat root) cwd)
    (ovpnDir filename : List Char) (target : List String) :
    resolveEditablePath root cwd ovpnDir filename = some target ↔
      ∃ base names content, Leads (lstat root) (start cwd ovpnDir) (parts ovpnDir) base ∧
        Leads (lstat root) (start base filename) (parts filename) target ∧ target = base ++ names ∧
        Canonical (lstat root) target ∧ below (.dir root) target = some (.file content) ∧
        isOvpn target = true := by
  constructor
  · exact resolved_file hcwd
  · rintro ⟨base, names, content, hbase, hfound, rfl, -, hcontent, hsuffix⟩
    have hcanonical := hbase.canonical (start_canonical hcwd ovpnDir)
    have hfile : isFile root (base ++ names) = true := isFile_iff.mpr ⟨content, hcontent⟩
    simp only [resolveEditablePath, resolve_iff.mpr hbase, (joined_iff hcanonical).mpr hfound, hsuffix, hfile,
      List.prefix_append, Bool.not_true, not_true_eq_false, if_false, Bool.false_eq_true]

def home : Entries String :=
  .cons "home" (.dir (.cons "configs" (.dir (.cons "a.ovpn" (.file "remote a.example 1194")
    (.cons "alias.ovpn" (.link "./a.ovpn") (.cons "out.ovpn" (.link "../secret.ovpn") .nil))))
    (.cons "secret.ovpn" (.file "secret") .nil))) .nil

theorem editable_iff_home :
    ∃ base names content, Leads (lstat home) (start [] "/home/configs".toList) (parts "/home/configs".toList) base ∧
      Leads (lstat home) (start base "alias.ovpn".toList) (parts "alias.ovpn".toList)
        ["home", "configs", "a.ovpn"] ∧
      ["home", "configs", "a.ovpn"] = base ++ names ∧ Canonical (lstat home) ["home", "configs", "a.ovpn"] ∧
      below (.dir home) ["home", "configs", "a.ovpn"] = some (.file content) ∧
      isOvpn ["home", "configs", "a.ovpn"] = true :=
  (editable_iff canonical_nil "/home/configs".toList "alias.ovpn".toList ["home", "configs", "a.ovpn"]).mp rfl

example : resolveEditablePath home [] "/home/configs".toList "out.ovpn".toList = none := rfl

def Nameable (name : String) : Prop := name ≠ "" ∧ name ≠ "." ∧ name ≠ ".." ∧ '/' ∉ name.toList

instance (name : String) : Decidable (Nameable name) := inferInstanceAs (Decidable (_ ∧ _))

mutual

def namedNode : Node C → Bool
  | .dir entries => named entries
  | .file _ | .link _ | .special => true

def named : Entries C → Bool
  | .nil => true
  | .cons name node rest => decide (Nameable name) && namedNode node && named rest

end

theorem named_find {entries : Entries C} {name : String} {node : Node C} (h : named entries = true)
    (hfind : entries.find name = some node) : Nameable name ∧ namedNode node = true := by
  induction entries using Entries.rec (motive_1 := fun _ => True) with
  | file | link | special | dir => trivial
  | nil => cases hfind
  | cons n found rest _ ih =>
      simp only [named, Bool.and_eq_true, decide_eq_true_eq] at h
      rw [Entries.find] at hfind
      split at hfind
      · rename_i hn
        cases hfind
        subst hn
        exact h.1
      · exact ih h.2 hfind

theorem named_below {node found : Node C} {place : List String} (h : namedNode node = true)
    (hbelow : below node place = some found) : ∀ name ∈ place, Nameable name := by
  induction place generalizing node with
  | nil => exact fun _ h => by cases h
  | cons name rest ih =>
      cases node with
      | dir entries =>
          obtain ⟨mid, hfind, hrest⟩ := Option.bind_eq_some_iff.mp hbelow
          obtain ⟨hname, hmid⟩ := named_find h hfind
          intro n hn
          rcases List.mem_cons.mp hn with rfl | hn
          · exact hname
          · exact ih hmid hrest n hn
      | file | link | special => cases hbelow

theorem component_name {name : String} (h : Nameable name) : component name.toList = some (.name name) := by
  obtain ⟨hempty, hdot, hdots, -⟩ := h
  have hne : ∀ text : String, name ≠ text → name.toList ≠ text.toList :=
    fun text hne heq => hne (String.toList_inj.mp heq)
  have hplain : ¬(name.toList = [] ∨ name.toList = ['.']) := not_or.mpr ⟨hne "" hempty, hne "." hdot⟩
  have hup : name.toList ≠ ['.', '.'] := hne ".." hdots
  rw [component, if_neg hplain, if_neg hup, String.ofList_toList]

theorem parts_pathText {target : List String} (hne : target ≠ []) (hnames : ∀ name ∈ target, Nameable name) :
    parts (pathText target) = target.map .name := by
  have hslash : ∀ l ∈ [] :: target.map String.toList, '/' ∉ l := by
    intro l hl
    rcases List.mem_cons.mp hl with rfl | hl
    · exact List.not_mem_nil
    · obtain ⟨name, hname, rfl⟩ := List.mem_map.mp hl
      exact (hnames name hname).2.2.2
  have htext : pathText target = ['/'].intercalate ([] :: target.map String.toList) := by
    cases target with
    | nil => exact absurd rfl hne
    | cons name rest => simp [pathText, List.intercalate]
  rw [parts, htext, List.splitOn_intercalate _ hslash (List.cons_ne_nil _ _), List.filterMap_cons_none (by rfl)]
  clear hslash htext hne
  induction target with
  | nil => rfl
  | cons name rest ih =>
      rw [List.map_cons, List.filterMap_cons_some (component_name (hnames name (.head _))),
        ih fun n hn => hnames n (.tail _ hn), List.map_cons]

/-- The text that is handed to the launcher leads to the file that was checked, from
wherever it is read, and that file is one below the managed directory. -/
theorem launched_text_leads {root : Entries C} {cwd : List String} (hcwd : Canonical (lstat root) cwd)
    (hnamed : named root = true) {ovpnDir filename text : List Char}
    (h : onEditClicked root cwd ovpnDir filename = some text) :
    ∃ base names content, resolveEditablePath root cwd ovpnDir filename = some (base ++ names) ∧
      Leads (lstat root) (start cwd ovpnDir) (parts ovpnDir) base ∧
      below (.dir root) (base ++ names) = some (.file content) ∧
      ∀ place, resolve root place text = some (base ++ names) := by
  obtain ⟨target, htarget, rfl⟩ := Option.map_eq_some_iff.mp h
  obtain ⟨base, names, content, hbase, -, rfl, hcanonical, hcontent, -⟩ := resolved_file hcwd htarget
  refine ⟨base, names, content, htarget, hbase, hcontent, fun place => ?_⟩
  have hne : base ++ names ≠ [] := by
    intro hnil
    rw [hnil] at hcontent
    cases hcontent
  have hroot : namedNode (.dir root) = true := hnamed
  rw [resolve_iff, parts_pathText hne (named_below hroot hcontent)]
  exact ⟨0, (walk_names 0 hcanonical : walk (lstat root) 0 [] _ = some ([] ++ (base ++ names)))⟩

theorem launched_text_leads_home :
    ∃ base names content,
      resolveEditablePath home [] "/home/configs".toList "alias.ovpn".toList = some (base ++ names) ∧
        Leads (lstat home) (start [] "/home/configs".toList) (parts "/home/configs".toList) base ∧
        below (.dir home) (base ++ names) = some (.file content) ∧
        ∀ place, resolve home place "/home/configs/a.ovpn".toList = some (base ++ names) :=
  launched_text_leads canonical_nil rfl
    (rfl : onEditClicked home [] "/home/configs".toList "alias.ovpn".toList = some "/home/configs/a.ovpn".toList)

end EovpnPro.EditablePath
