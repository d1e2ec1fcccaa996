import EovpnPro.ConfigSource

namespace EovpnPro.ConfigImport

open ConfigSource Directories

/-- `EOVPN_OVPN_CONFIG_DIR`, and the same name with `.staging` and `.old`. -/
inductive Place
  | configs
  | staging
  | old
  deriving DecidableEq, Repr

abbrev Files := Tree Place String Bytes

/-- What the file-system steps of the worker meet: which files each removal leaves
behind, whether the staging directory can be prepared, and which rename raises. -/
structure Faults where
  clearStaging : Option (String → Bool) := none
  prepared : Bool := true
  clearOld : Option (String → Bool) := none
  backUp : Bool := false
  install : Bool := false
  removeOld : Option (String → Bool) := none
  cleanUp : Option (String → Bool) := none

variable {files : Files} {f : Faults}

/-- `os.rename`, which may also raise for a reason of its own. -/
def renameUnless (raises : Bool) (files : Files) (source destination : Place) : Option Files :=
  if raises then none else rename files source destination

def install (files : Files) (f : Faults) : Files × Bool :=
  match renameUnless f.install files .staging .configs with
  | none => (files, false)
  | some installed => (removeTree installed .old f.removeOld, true)

def swap (files : Files) (f : Faults) : Files × Bool :=
  let files := removeTree files .old f.clearOld
  match (if (files .configs).isSome then renameUnless f.backUp files .configs .old else some files) with
  | none => (files, false)
  | some moved => install moved f

structure Outcome where
  files : Files
  pendingCa : Option (String × String) := none

/-- `dispatch` of `validate_and_load`. Its handler only clears the staging directory. -/
def dispatch (unicodeAlnum : Char → Bool) (files : Files) (source : Source) (f : Faults) : Outcome :=
  let files := removeTree files .staging f.clearStaging
  if !f.prepared then { files := removeTree files .staging f.cleanUp }
  else
    let (dir, result) := download unicodeAlnum source ((files .staging).getD [])
    let files := Function.update files .staging (some dir)
    match result with
    | .error _ => { files := removeTree files .staging f.cleanUp }
    | .ok certs =>
        let (files, swapped) := swap files f
        if swapped then { files, pendingCa := certs.getLast?.map fun cert => (basename cert, cert) }
        else { files := removeTree files .staging f.cleanUp }

/-- Moving the old configurations aside raises, by itself or because the old backup
could not be removed. -/
def backUpRaises (files : Files) (f : Faults) : Bool :=
  (files .configs).isSome && (f.backUp || !((removeTree files .old f.clearOld .old).getD []).isEmpty)

theorem backUpRaises_congr {other : Files} (hc : other .configs = files .configs)
    (ho : other .old = files .old) :
    backUpRaises other f = backUpRaises files f := by
  simp only [backUpRaises, removeTree_self, hc, ho]

theorem backUp_eq_none_iff (hc : (files .configs).isSome = true) :
    renameUnless f.backUp (removeTree files .old f.clearOld) .configs .old = none ↔
      backUpRaises files f = true := by
  have hk : removeTree files .old f.clearOld .configs = files .configs := removeTree_of_ne files (by decide) _
  simp only [renameUnless, backUpRaises, hc, Bool.true_and, Bool.or_eq_true, Bool.not_eq_true',
    List.isEmpty_eq_false_iff]
  cases f.backUp with
  | true => simp
  | false =>
      simp only [Bool.false_eq_true, if_false, false_or]
      obtain ⟨dir, hd⟩ := Option.isSome_iff_exists.mp hc
      simp only [rename, hk, hd]
      rcases removeTree files Place.old f.clearOld Place.old with _ | _ | ⟨file, files⟩ <;> simp

theorem configs_install {new : ConfigDir} (hs : files .staging = some new) (hc : files .configs = none) :
    (install files f).1 .configs = if f.install then none else some new := by
  simp only [install, renameUnless]
  cases f.install with
  | true => exact hc
  | false =>
      have hfree := rename_ne_none_of_free (by rw [hs]; rfl) hc
      obtain ⟨installed, hi⟩ := Option.ne_none_iff_exists'.mp hfree
      simp only [Bool.false_eq_true, if_false, hi]
      rw [removeTree_of_ne _ (by decide), rename_destination hi, hs]

theorem configs_swap {new : ConfigDir} (hs : files .staging = some new) :
    (swap files f).1 .configs =
      if backUpRaises files f then files .configs else if f.install then none else some new := by
  have hk : removeTree files .old f.clearOld .configs = files .configs := removeTree_of_ne files (by decide) _
  have hks : removeTree files .old f.clearOld .staging = files .staging :=
    removeTree_of_ne files (by decide) _
  simp only [swap, hk]
  cases hc : files .configs with
  | none =>
      have hb : backUpRaises files f = false := by simp only [backUpRaises, hc]; rfl
      simp only [hb, Option.isSome_none, Bool.false_eq_true, if_false]
      exact configs_install (hks.trans hs) (hk.trans hc)
  | some dir =>
      have hb : renameUnless f.backUp _ _ _ = none ↔ backUpRaises files f = true :=
        backUp_eq_none_iff (by rw [hc]; rfl)
      simp only [Option.isSome_some, if_true]
      cases hr : renameUnless f.backUp (removeTree files .old f.clearOld) .configs .old with
      | none => rw [if_pos (hb.mp hr), ← hc, ← hk]
      | some moved =>
          rw [if_neg fun h => by rw [hb.mpr h] at hr; cases hr]
          simp only [renameUnless] at hr
          split_ifs at hr
          refine configs_install ?_ (rename_source (by decide) hr)
          rw [rename_of_ne (by decide) (by decide) hr, hks, hs]

def leftStaging (files : Files) (f : Faults) : ConfigDir :=
  (removeTree files .staging f.clearStaging .staging).getD []

theorem configs_dispatch (unicodeAlnum : Char → Bool) (files : Files) (source : Source) (f : Faults) :
    (dispatch unicodeAlnum files source f).files .configs =
      if !f.prepared then files .configs
      else match download unicodeAlnum source (leftStaging files f) with
        | (_, .error _) => files .configs
        | (new, .ok _) =>
            if backUpRaises files f then files .configs else if f.install then none else some new := by
  have hclear : removeTree files .staging f.clearStaging .configs = files .configs :=
    removeTree_of_ne files (by decide) _
  have hold : removeTree files .staging f.clearStaging .old = files .old :=
    removeTree_of_ne files (by decide) _
  have hclean : ∀ files : Files, removeTree files .staging f.cleanUp .configs = files .configs := fun _ =>
    removeTree_of_ne _ (by decide) _
  simp only [dispatch, leftStaging]
  cases f.prepared with
  | false => exact (hclean _).trans hclear
  | true =>
      simp only [Bool.not_true, Bool.false_eq_true, if_false]
      rcases download unicodeAlnum source ((removeTree files .staging f.clearStaging .staging).getD []) with
        ⟨new, error | certs⟩
      all_goals
        let staged : Files := Function.update (removeTree files .staging f.clearStaging) .staging (some new)
        have hc : staged .configs = files .configs :=
          (Function.update_of_ne (by decide) _ _).trans hclear
      · exact (hclean staged).trans hc
      · have ho : staged .old = files .old := (Function.update_of_ne (by decide) _ _).trans hold
        have hn : staged .staging = some new := Function.update_self _ _ _
        have hs : (swap staged f).1 .configs = _ := configs_swap hn
        rw [backUpRaises_congr hc ho, hc] at hs
        refine Eq.trans ?_ hs
        change (if (swap staged f).2 = true then _ else _ : Outcome).files .configs = _
        split_ifs
        · rfl
        · exact hclean _

end EovpnPro.ConfigImport
