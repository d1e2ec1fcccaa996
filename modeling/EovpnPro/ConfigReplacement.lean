import EovpnPro.ConfigImport

namespace EovpnPro.ConfigReplacement

open ConfigImport ConfigSource Directories

variable {unicodeAlnum : Char → Bool} {files : Files} {source : Source} {f : Faults}

/-- With a download that succeeded, whatever steps of the swap raise, the
configurations are the old ones or the new ones exactly when the rename that
installs does not raise after the old ones were moved aside or were not there. -/
theorem all_or_nothing_iff {new : ConfigDir} {certs : List String} (hp : f.prepared = true)
    (hd : download unicodeAlnum source (leftStaging files f) = (new, .ok certs)) :
    (∃ dir, (dispatch unicodeAlnum files source f).files .configs = some dir ∧
        (files .configs = some dir ∨ dir = new)) ↔
      (f.install = true → backUpRaises files f = true) := by
  rw [configs_dispatch, hp, hd]
  simp only [Bool.not_true, Bool.false_eq_true, if_false]
  cases hb : backUpRaises files f with
  | true =>
      have hc : (files .configs).isSome = true := (Bool.and_eq_true_iff.mp hb).1
      obtain ⟨dir, hdir⟩ := Option.isSome_iff_exists.mp hc
      exact ⟨fun _ _ => rfl, fun _ => ⟨dir, hdir, .inl hdir⟩⟩
  | false =>
      cases f.install with
      | true => exact ⟨fun ⟨_, h, _⟩ => (by cases h), fun h => Bool.noConfusion (h rfl)⟩
      | false => exact ⟨fun _ h => (by cases h), fun _ => ⟨new, rfl, .inr rfl⟩⟩

def oneConfig : Source := .folder (some [{ name := "new.ovpn", content := [2] }])

def oldConfig : ConfigDir := [("old.ovpn", [1])]

def before : Files
  | .configs => some oldConfig
  | _ => none

theorem download_oneConfig : download (fun _ => false) oneConfig [] = ([("new.ovpn", [2])], .ok []) := by
  decide

/-- Neither rename would succeed, and the first is not got past. -/
theorem all_or_nothing_oneConfig :
    ∃ dir, (dispatch (fun _ => false) before oneConfig { backUp := true, install := true }).files .configs = some dir ∧
      (before .configs = some dir ∨ dir = [("new.ovpn", [2])]) :=
  (all_or_nothing_iff rfl download_oneConfig).mpr fun _ => rfl

theorem configurations_missing : ¬ ∀ (unicodeAlnum : Char → Bool) (files : Files) (source : Source) (f : Faults)
    (new : ConfigDir) (certs : List String), f.prepared = true →
      download unicodeAlnum source (leftStaging files f) = (new, .ok certs) →
      ∃ dir, (dispatch unicodeAlnum files source f).files .configs = some dir ∧
        (files .configs = some dir ∨ dir = new) := by
  intro h
  obtain ⟨dir, hdir, -⟩ := h (fun _ => false) before oneConfig { install := true } _ _ rfl download_oneConfig
  have hnone : (dispatch (fun _ => false) before oneConfig { install := true }).files .configs =
    none := by decide
  rw [hnone] at hdir
  cases hdir

/-- Listing or scanning a folder fails, or an archive cannot be fetched or opened. -/
def SourceFails : Source → Prop
  | .folder none => True
  | .folder (some listing) => ∃ entry ∈ listing, selected entry = true ∧ entry.statFails = true
  | source => ∃ error, fetchZipArchive source = .error error

def isFolder : Source → Bool
  | .folder _ => true
  | _ => false

def filesIn (place : Option ConfigDir) : ConfigDir := place.getD []

theorem scanFolder_eq_none_iff {entries : List FolderEntry} :
    scanFolder entries = none ↔ ∃ entry ∈ entries, selected entry = true ∧ entry.statFails = true := by
  induction entries with
  | nil => simp [scanFolder]
  | cons entry entries ih =>
      simp only [scanFolder, List.exists_mem_cons_iff, ← ih]
      split_ifs with hs hf <;> simp_all

theorem loadZipArchive_of_error {error : ImportError} (h : fetchZipArchive source = .error error) :
    ∃ error, loadZipArchive source = .error error := by
  simp only [loadZipArchive, h]
  cases error <;> exact ⟨_, rfl⟩

/-- How a failure is reported, with nothing written: by a folder as an ordinary
empty result, by an archive as an exception. -/
theorem download_of_sourceFails (unicodeAlnum : Char → Bool) (h : SourceFails source) (dir : ConfigDir) :
    (isFolder source = true ∧ download unicodeAlnum source dir = (dir, .ok [])) ∨
      (isFolder source = false ∧ ∃ error, download unicodeAlnum source dir = (dir, .error error)) := by
  cases source with
  | folder listing =>
      refine .inl ⟨rfl, ?_⟩
      cases listing with
      | none => rfl
      | some listing =>
          have hscan : scanFolder (listing.insertionSort fun e f => e.name ≤ f.name) = none := by
            obtain ⟨entry, he, hs⟩ := h
            exact scanFolder_eq_none_iff.mpr ⟨entry, (List.mem_insertionSort _).mpr he, hs⟩
          simp only [download, hscan]
  | file isLink size archive =>
      obtain ⟨error, he⟩ := h
      obtain ⟨error, he⟩ := loadZipArchive_of_error he
      exact .inr ⟨rfl, error, by simp only [download, he]⟩
  | url scheme hardBlocked response =>
      obtain ⟨error, he⟩ := h
      obtain ⟨error, he⟩ := loadZipArchive_of_error he
      exact .inr ⟨rfl, error, by simp only [download, he]⟩

/-- When a source fails, the configurations stay as they were exactly when the
failure is reported as an exception, the swap that follows the empty result does
not get to move them, or they were just what it puts in their place. -/
theorem existing_kept_iff (h : SourceFails source) :
    filesIn ((dispatch unicodeAlnum files source f).files .configs) = filesIn (files .configs) ↔
      isFolder source = false ∨ f.prepared = false ∨ backUpRaises files f = true ∨
        filesIn (files .configs) = if f.install then [] else leftStaging files f := by
  rw [configs_dispatch]
  cases f.prepared with
  | false => simp
  | true =>
      obtain ⟨hf, hd⟩ | ⟨hf, error, hd⟩ := download_of_sourceFails unicodeAlnum h (leftStaging files f)
      · simp only [hd, hf, Bool.not_true, Bool.false_eq_true, if_false, Bool.true_eq_false, false_or]
        cases backUpRaises files f with
        | true => simp
        | false =>
            simp only [Bool.false_eq_true, if_false, false_or]
            cases f.install with
            | true => exact eq_comm
            | false => exact eq_comm
      · simp [hd, hf]

theorem existing_kept_missing :
    filesIn ((dispatch (fun _ => false) before (.url "" false (.error .os)) {}).files .configs) =
      filesIn (before .configs) :=
  (existing_kept_iff (show SourceFails (.url "" false (.error .os)) from ⟨_, rfl⟩)).mpr (.inl rfl)

theorem existing_lost : ¬ ∀ (unicodeAlnum : Char → Bool) (files : Files) (source : Source) (f : Faults),
    SourceFails source →
      filesIn ((dispatch unicodeAlnum files source f).files .configs) = filesIn (files .configs) := by
  intro h
  have hk := h (fun _ => false) before (.folder none) {} trivial
  revert hk
  decide

end EovpnPro.ConfigReplacement
