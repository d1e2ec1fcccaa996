import Mathlib.Data.List.Nodup
import Mathlib.Data.List.Perm.Subperm
import Mathlib.Data.String.Basic
import EovpnPro.FileTrees
import EovpnPro.PyText
import EovpnPro.Settings

namespace EovpnPro.ResetBackup

open FileTrees Settings

variable {C : Type}

structure Item (C : Type) where
  name : String
  mtime : Nat
  node : Node C

/-- The clock and the process of one snapshot, with the mtime of its directory. -/
structure Moment where
  timestamp : String
  pid : Nat
  createdAt : String
  mtime : Nat

/-- JSON as it stands in a file, what a symbolic link leads to, and the text of a
value that is not a string. -/
structure Env (C : Type) where
  dumps : Value → C
  loads : C → Except String Value
  follow : String → Option (Node C)
  repr : Value → String

/-- The settings, the managed directory, what lies beside it, the session password,
and the users whose stored password was cleared. -/
structure State (C : Type) where
  settings : Store
  configs : Option (Node C)
  items : List (Item C)
  session : Option String
  cleared : List String

def resetBackupPrefix : String := "reset-backup-"

def backupStem (moment : Moment) : String :=
  resetBackupPrefix ++ moment.timestamp ++ "-" ++ toString moment.pid

def backupName (moment : Moment) : Nat → String
  | 0 => backupStem moment
  | suffix + 1 => backupStem moment ++ "-" ++ toString (suffix + 1)

/-- `while backup.exists()`, for at most `fuel` names that are taken. -/
def freshSuffix (taken : Nat → Bool) : Nat → Nat → Nat
  | 0, suffix => suffix
  | fuel + 1, suffix => if taken suffix then freshSuffix taken fuel (suffix + 1) else suffix

def present (env : Env C) : Node C → Bool
  | .link target => (env.follow target).isSome
  | _ => true

def taken (env : Env C) (items : List (Item C)) (name : String) : Bool :=
  items.any fun item => decide (item.name = name) && present env item.node

def sortKeys (items : List (String × Value)) : List (String × Value) :=
  items.mergeSort fun a b => decide (a.1 ≤ b.1)

def manifestItems (moment : Moment) (settings : List (String × Value)) : List (String × Value) :=
  [("format", .int 1), ("created_at", .str moment.createdAt),
    ("secret_service_credentials_copied", .bool false), ("config_secret_content", .str "unknown"),
    ("settings", .dict (sortKeys settings))]

/-- The manifest, with its keys in the order that `sort_keys` gives them. -/
def manifest (moment : Moment) (settings : List (String × Value)) : Value :=
  .dict (sortKeys (manifestItems moment settings))

/-- What a backup holds once it is complete. The configurations are left out where
there are none, and stop the backup where they cannot be copied. -/
def backupEntries (configs : Option (Node C)) (text : C) : Except String (Entries C) :=
  let rest : Entries C := .cons "manifest.json" (.file text) .nil
  match configs with
  | none => .ok rest
  | some (.dir entries) =>
      if entries.whole then .ok (.cons "config" (.dir entries.copy) rest) else .error "Error"
  | some (.file _) | some .special => .error "NotADirectoryError"
  | some (.link _) => .error "managed configuration directory must not be a symlink"

/-- A backup that fails is removed again. -/
def createResetBackup (env : Env C) (moment : Moment) (settings : List (String × Value)) (st : State C) :
    EStateM.Result String (State C) String :=
  let suffix := freshSuffix (fun n => taken env st.items (backupName moment n)) st.items.length 0
  let name := backupName moment suffix
  match backupEntries st.configs (env.dumps (manifest moment settings)) with
  | .error details => .error details st
  | .ok entries =>
      if st.items.any fun item => decide (item.name = name) then .error "FileExistsError" st
      else .ok name { st with items := st.items ++ [⟨name, moment.mtime, .dir entries⟩] }

def readFile (env : Env C) : Node C → Option C
  | .file content => some content
  | .link target =>
      match env.follow target with
      | some (.file content) => some content
      | _ => none
  | _ => none

def candidate (env : Env C) (item : Item C) : Bool :=
  resetBackupPrefix.toList.isPrefixOf item.name.toList &&
    match item.node with
    | .dir entries => (entries.find "manifest.json").any fun node => (readFile env node).isSome
    | _ => false

/-- `max` keeps the first of several backups with the greatest mtime. -/
def latestResetBackup (env : Env C) (items : List (Item C)) : Option (Item C) :=
  (items.filter (candidate env)).maxOn? Item.mtime

def lookup (name : String) (items : List (String × Value)) : Option Value :=
  (items.find? fun item => item.1 = name).map Prod.snd

/-- `True` and `1.0` are equal to the format number as well. -/
def isFormat : Value → Bool
  | .int n => n = 1
  | .bool b => b
  | .float d => d = 0x3FF0000000000000
  | _ => false

def nodeAt (items : List (Item C)) (name : String) : Option (Node C) :=
  (items.find? fun item => item.name = name).map Item.node

/-- The validated manifest of an entry of the managed parent, as its settings. -/
def loadResetManifest (env : Env C) (items : List (Item C)) (name : String) :
    Except String (List (String × Value)) :=
  match nodeAt items name with
  | some (.link _) => .error "reset backup directory must not be a symlink"
  | some (.dir entries) =>
      match (entries.find "manifest.json").bind (readFile env) with
      | none => .error "FileNotFoundError"
      | some text =>
          match env.loads text with
          | .error details => .error details
          | .ok (.dict data) =>
              if (lookup "format" data).any isFormat then
                match lookup "settings" data with
                | some (.dict settings) => .ok settings
                | _ => .error "reset backup settings are invalid"
              else .error "unsupported reset backup format"
          | .ok _ => .error "unsupported reset backup format"
  | _ => .error "reset backup directory is unavailable"

theorem freshSuffix_free (taken : Nat → Bool) (fuel suffix : Nat) :
    taken (freshSuffix taken fuel suffix) = false ∨ ∀ i ≤ fuel, taken (suffix + i) = true := by
  induction fuel generalizing suffix with
  | zero =>
      obtain h | h := Bool.eq_false_or_eq_true (taken suffix)
      · exact .inr fun i hi => by rw [Nat.le_zero.mp hi]; exact h
      · exact .inl h
  | succ fuel ih =>
      obtain h | h := Bool.eq_false_or_eq_true (taken suffix)
      · rw [freshSuffix, if_pos h]
        refine (ih (suffix + 1)).imp_right fun hall i hi => ?_
        cases i with
        | zero => exact h
        | succ i => rw [← Nat.add_assoc, Nat.add_right_comm]; exact hall i (Nat.le_of_succ_le_succ hi)
      · left
        rw [freshSuffix, if_neg (by rw [h]; decide)]
        exact h

theorem backupName_injective (moment : Moment) : Function.Injective (backupName moment) := by
  have hlonger : ∀ n, backupName moment 0 ≠ backupName moment (n + 1) := by
    intro n h
    have hlen := congrArg String.length h
    rw [backupName, backupName, String.length_append, String.length_append,
      show "-".length = 1 from rfl] at hlen
    omega
  intro m n h
  cases m with
  | zero =>
      cases n with
      | zero => rfl
      | succ n => exact absurd h (hlonger n)
  | succ m =>
      cases n with
      | zero => exact absurd h.symm (hlonger m)
      | succ n =>
          rw [backupName, backupName, String.append_right_inj] at h
          exact PyText.repr_injective h

theorem freshSuffix_not_taken (env : Env C) (items : List (Item C)) (moment : Moment) :
    taken env items (backupName moment
      (freshSuffix (fun n => taken env items (backupName moment n)) items.length 0)) = false := by
  refine (freshSuffix_free (fun n => taken env items (backupName moment n)) items.length 0).resolve_right
    fun hall => ?_
  have hnames : (List.range (items.length + 1)).map (backupName moment) ⊆ items.map Item.name := by
    intro name h
    obtain ⟨i, hi, rfl⟩ := List.mem_map.mp h
    have ht := hall i (Nat.le_of_lt_succ (List.mem_range.mp hi))
    rw [Nat.zero_add, taken, List.any_eq_true] at ht
    obtain ⟨item, hitem, hname⟩ := ht
    rw [Bool.and_eq_true, decide_eq_true_eq] at hname
    exact List.mem_map.mpr ⟨item, hitem, hname.1⟩
  have hnodup := (List.nodup_range (n := items.length + 1)).map (backupName_injective moment)
  have hlen := (hnodup.subperm hnames).length_le
  simp at hlen

theorem backupName_prefix (moment : Moment) (suffix : Nat) :
    resetBackupPrefix.toList.isPrefixOf (backupName moment suffix).toList = true := by
  rw [List.isPrefixOf_iff_prefix]
  cases suffix <;> simp [backupName, backupStem]

theorem createResetBackup_ok {env : Env C} {moment : Moment} {settings : List (String × Value)}
    {st st' : State C} {name : String} (h : createResetBackup env moment settings st = .ok name st') :
    ∃ entries, backupEntries st.configs (env.dumps (manifest moment settings)) = .ok entries ∧
      (∃ suffix, name = backupName moment suffix) ∧ (∀ item ∈ st.items, item.name ≠ name) ∧
      st' = { st with items := st.items ++ [⟨name, moment.mtime, .dir entries⟩] } := by
  simp only [createResetBackup] at h
  cases hb : backupEntries st.configs (env.dumps (manifest moment settings)) with
  | error e => simp only [hb] at h; cases h
  | ok entries =>
      simp only [hb] at h
      split at h
      · cases h
      · rename_i hfresh
        cases h
        refine ⟨entries, rfl, ⟨_, rfl⟩, fun item hitem hname => hfresh ?_, rfl⟩
        exact List.any_eq_true.mpr ⟨item, hitem, decide_eq_true hname⟩

theorem createResetBackup_completes {env : Env C} {st : State C} {files : Entries C} (moment : Moment)
    (settings : List (String × Value)) (hconfigs : st.configs = some (.dir files))
    (hwhole : files.whole = true) (hpresent : ∀ item ∈ st.items, present env item.node = true) :
    ∃ name entries, createResetBackup env moment settings st =
      .ok name { st with items := st.items ++ [⟨name, moment.mtime, .dir entries⟩] } := by
  have hfree := freshSuffix_not_taken env st.items moment
  simp only [createResetBackup, hconfigs, backupEntries, if_pos hwhole]
  generalize backupName moment (freshSuffix _ _ _) = name at hfree ⊢
  have hmkdir : st.items.any (fun item => decide (item.name = name)) = false := by
    rw [taken, List.any_eq_false] at hfree
    rw [List.any_eq_false]
    intro item hitem hname
    exact hfree item hitem (by rw [hname, hpresent item hitem]; rfl)
  rw [hmkdir]
  exact ⟨name, _, rfl⟩

theorem lookup_of_mem {items : List (String × Value)} (hnodup : (items.map Prod.fst).Nodup)
    {name : String} {value : Value} (h : (name, value) ∈ items) : lookup name items = some value := by
  cases hf : items.find? fun item => item.1 = name with
  | none => exact absurd (decide_eq_true rfl) (List.find?_eq_none.mp hf _ h)
  | some found =>
      have hname : found.1 = name := by simpa using List.find?_some hf
      have hsame := List.inj_on_of_nodup_map hnodup (List.mem_of_find?_eq_some hf) h hname
      rw [lookup, hf, hsame]
      rfl

theorem sortKeys_perm (items : List (String × Value)) : (sortKeys items).Perm items :=
  List.mergeSort_perm _ _

theorem lookup_sortKeys {items : List (String × Value)} (hnodup : (items.map Prod.fst).Nodup)
    {name : String} {value : Value} (h : (name, value) ∈ items) :
    lookup name (sortKeys items) = some value :=
  lookup_of_mem (((sortKeys_perm items).map Prod.fst).nodup_iff.mpr hnodup)
    ((sortKeys_perm items).mem_iff.mpr h)

theorem manifest_of_backup {configs : Option (Node C)} {text : C} {entries : Entries C}
    (h : backupEntries configs text = .ok entries) :
    entries.find "manifest.json" = some (.file text) := by
  cases configs with
  | none => cases h; rfl
  | some node =>
      cases node with
      | file | link | special => cases h
      | dir files =>
          simp only [backupEntries] at h
          split at h
          · cases h; rfl
          · cases h

theorem configs_of_backup {files : Entries C} {text : C} {entries : Entries C}
    (h : backupEntries (some (.dir files)) text = .ok entries) :
    entries.find "config" = some (.dir files) ∧ files.whole = true := by
  simp only [backupEntries] at h
  split at h
  · rename_i hwhole
    cases h
    exact ⟨by rw [copy_entries files hwhole]; rfl, hwhole⟩
  · cases h

theorem latestResetBackup_created (env : Env C) {moment : Moment} {items : List (Item C)} (suffix : Nat)
    {entries : Entries C} {text : C} (hentries : entries.find "manifest.json" = some (.file text))
    (hclock : ∀ item ∈ items, item.mtime < moment.mtime) :
    latestResetBackup env (items ++ [⟨backupName moment suffix, moment.mtime, .dir entries⟩]) =
      some ⟨backupName moment suffix, moment.mtime, .dir entries⟩ := by
  have hcandidate : candidate env ⟨backupName moment suffix, moment.mtime, .dir entries⟩ = true := by
    rw [candidate, backupName_prefix]
    simp only [hentries]
    rfl
  have hmem := List.mem_filter.mpr ⟨List.mem_append_right items (List.mem_singleton_self _), hcandidate⟩
  have hle := List.le_apply_get_maxOn?_of_mem (f := Item.mtime) hmem
  obtain ⟨found, hfound⟩ := Option.isSome_iff_exists.mp (List.isSome_maxOn?_of_mem (f := Item.mtime) hmem)
  simp only [hfound, Option.get_some] at hle
  rw [latestResetBackup, hfound]
  rcases List.mem_append.mp (List.mem_filter.mp (List.maxOn?_mem hfound)).1 with hold | hnew
  · exact absurd hle (Nat.not_le_of_lt (hclock found hold))
  · rw [List.mem_singleton.mp hnew]

theorem nodeAt_append {items : List (Item C)} {name : String} {node : Node C} (new : Item C)
    (h : nodeAt items name = some node) : nodeAt (items ++ [new]) name = some node := by
  obtain ⟨item, hitem, hnode⟩ := Option.map_eq_some_iff.mp h
  rw [nodeAt, List.find?_append, hitem]
  exact congrArg some hnode

theorem nodeAt_created {items : List (Item C)} {name : String} (hfresh : ∀ item ∈ items, item.name ≠ name)
    (mtime : Nat) (node : Node C) : nodeAt (items ++ [⟨name, mtime, node⟩]) name = some node := by
  have hnone : (items.find? fun item => item.name = name) = none :=
    List.find?_eq_none.mpr fun item hitem hname => hfresh item hitem (of_decide_eq_true hname)
  rw [nodeAt, List.find?_append, hnone]
  simp

theorem loadResetManifest_created {env : Env C} {moment : Moment} {settings : List (String × Value)}
    {items : List (Item C)} {name : String} {entries : Entries C}
    (hitem : nodeAt items name = some (.dir entries))
    (hentries : entries.find "manifest.json" = some (.file (env.dumps (manifest moment settings))))
    (hjson : env.loads (env.dumps (manifest moment settings)) = .ok (manifest moment settings)) :
    loadResetManifest env items name = .ok (sortKeys settings) := by
  have hkeys : ((manifestItems moment settings).map Prod.fst).Nodup := by
    simp [manifestItems]
  have hformat : ("format", Value.int 1) ∈ manifestItems moment settings := List.mem_cons_self
  have hsettings : ("settings", Value.dict (sortKeys settings)) ∈ manifestItems moment settings := by
    simp [manifestItems]
  simp only [loadResetManifest, hitem, hentries, Option.bind_some, readFile, hjson]
  simp only [manifest, lookup_sortKeys hkeys hformat, lookup_sortKeys hkeys hsettings]
  rfl

end EovpnPro.ResetBackup
