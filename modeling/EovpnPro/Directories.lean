import Mathlib.Logic.Function.Basic

namespace EovpnPro.Directories

variable {P N C : Type} [DecidableEq P]

abbrev Dir (N C : Type) := List (N × C)

abbrev Tree (P N C : Type) := P → Option (Dir N C)

def put [DecidableEq N] (dir : Dir N C) (name : N) (content : C) : Dir N C :=
  dir.filter (fun file => decide (file.1 ≠ name)) ++ [(name, content)]

def delete [DecidableEq N] (dir : Dir N C) (name : N) : Dir N C :=
  dir.filter fun file => decide (file.1 ≠ name)

def putAll [DecidableEq N] (dir : Dir N C) (files : Dir N C) : Dir N C :=
  files.foldl (fun dir file => put dir file.1 file.2) dir

/-- Remove a tree and pass over errors. `left` tells what the errors leave: nothing
at all, or a directory with the files that it picks. -/
def removeTree (tree : Tree P N C) (place : P) (left : Option (N → Bool)) : Tree P N C :=
  Function.update tree place
    ((tree place).bind fun dir => left.map fun keep => dir.filter fun file => keep file.1)

abbrev Removal (N : Type) := Option (List N)

/-- The next call of a removal that passes over errors, and what is then left of it. -/
def removalStep [DecidableEq N] (tree : Tree P N C) (place : P) :
    Removal N → Tree P N C × Option (Removal N)
  | none => (tree, (tree place).map fun dir => some (dir.map Prod.fst))
  | some (name :: names) =>
      (Function.update tree place ((tree place).map fun dir => delete dir name), some (some names))
  | some [] =>
      (if (tree place).any List.isEmpty then Function.update tree place none else tree, none)

def Covers (tree : Tree P N C) (place : P) (left : Removal N) : Prop :=
  ∀ names, left = some names → ∀ dir, tree place = some dir → ∀ file ∈ dir, file.1 ∈ names

def rename (tree : Tree P N C) (source destination : P) : Option (Tree P N C) :=
  match tree source, tree destination with
  | none, _ => none
  | some _, some (_ :: _) => none
  | some dir, _ => some (Function.update (Function.update tree source none) destination (some dir))

variable {tree moved : Tree P N C} {place other source destination : P}

theorem mem_put [DecidableEq N] {dir : Dir N C} {name : N} {content : C} {file : N × C} :
    file ∈ put dir name content ↔ (file ∈ dir ∧ file.1 ≠ name) ∨ file = (name, content) := by
  simp only [put, List.mem_append, List.mem_filter, List.mem_singleton, decide_eq_true_eq]

theorem mem_putAll [DecidableEq N] {dir files : Dir N C} {file : N × C} (h : (files.map Prod.fst).Nodup) :
    file ∈ putAll dir files ↔ file ∈ files ∨ file ∈ dir ∧ ∀ other ∈ files, other.1 ≠ file.1 := by
  induction files generalizing dir with
  | nil => simp [putAll]
  | cons first files ih =>
      obtain ⟨hfirst, h⟩ := List.nodup_cons.mp h
      change file ∈ putAll (put dir first.1 first.2) files ↔ _
      rw [ih h, mem_put]
      constructor
      · rintro (hf | ⟨⟨hd, hne⟩ | rfl, hrest⟩)
        · exact .inl (List.mem_cons_of_mem _ hf)
        · exact .inr ⟨hd, List.forall_mem_cons.mpr ⟨hne.symm, hrest⟩⟩
        · exact .inl List.mem_cons_self
      · rintro (hf | ⟨hd, hall⟩)
        · obtain rfl | hf := List.mem_cons.mp hf
          · exact .inr ⟨.inr rfl, fun other ho he => hfirst (he ▸ List.mem_map_of_mem ho)⟩
          · exact .inl hf
        · obtain ⟨hne, hrest⟩ := List.forall_mem_cons.mp hall
          exact .inr ⟨.inl ⟨hd, hne.symm⟩, hrest⟩

theorem mem_delete [DecidableEq N] {dir : Dir N C} {name : N} {file : N × C} :
    file ∈ delete dir name ↔ file ∈ dir ∧ file.1 ≠ name := by
  simp only [delete, List.mem_filter, decide_eq_true_eq]

theorem removeTree_of_ne (tree : Tree P N C) (h : other ≠ place) (left : Option (N → Bool)) :
    removeTree tree place left other = tree other :=
  Function.update_of_ne h _ _

theorem removeTree_self (left : Option (N → Bool)) :
    removeTree tree place left place =
      (tree place).bind fun dir => left.map fun keep => dir.filter fun file => keep file.1 :=
  Function.update_self _ _ _

section Removal

variable [DecidableEq N] {left rest : Removal N}

theorem removalStep_of_ne (tree : Tree P N C) (h : other ≠ place) (left : Removal N) :
    (removalStep tree place left).1 other = tree other := by
  rcases left with _ | _ | ⟨name, names⟩
  · rfl
  · simp only [removalStep]
    split
    · exact Function.update_of_ne h _ _
    · rfl
  · exact Function.update_of_ne h _ _

theorem removalStep_eq_none (left : Removal N) (h : tree place = none) :
    (removalStep tree place left).1 place = none := by
  rcases left with _ | _ | ⟨name, names⟩ <;> simp [removalStep, h]

theorem mem_of_removalStep {dir : Dir N C} {file : N × C}
    (h : (removalStep tree place left).1 place = some dir) (hf : file ∈ dir) :
    ∃ dir, tree place = some dir ∧ file ∈ dir := by
  rcases left with _ | _ | ⟨name, names⟩
  · exact ⟨dir, h, hf⟩
  · simp only [removalStep] at h
    split at h
    · simp at h
    · exact ⟨dir, h, hf⟩
  · simp only [removalStep, Function.update_self, Option.map_eq_some_iff] at h
    obtain ⟨dir, hd, rfl⟩ := h
    exact ⟨dir, hd, (List.mem_filter.mp hf).1⟩

theorem Covers.kept (left : Removal N) (h : Covers tree place rest) :
    Covers (removalStep tree place left).1 place rest := by
  intro names hn dir hd file hf
  obtain ⟨dir, hd, hf⟩ := mem_of_removalStep hd hf
  exact h names hn dir hd file hf

theorem Covers.next (h : Covers tree place left) (hr : (removalStep tree place left).2 = some rest) :
    Covers (removalStep tree place left).1 place rest := by
  rcases left with _ | _ | ⟨name, names⟩
  · rintro _ rfl dir hd file hf
    simp only [removalStep, Option.map_eq_some_iff] at hr hd
    obtain ⟨listed, hl, hr⟩ := hr
    obtain rfl := Option.some.inj (hl.symm.trans hd)
    exact Option.some.inj hr ▸ List.mem_map_of_mem hf
  · cases hr
  · obtain rfl := Option.some.inj hr
    intro _ hn dir hd file hf
    obtain rfl := Option.some.inj hn
    simp only [removalStep, Function.update_self, Option.map_eq_some_iff] at hd
    obtain ⟨before, hb, rfl⟩ := hd
    obtain ⟨hf, hne⟩ := List.mem_filter.mp hf
    exact (List.mem_cons.mp (h _ rfl before hb file hf)).resolve_left (of_decide_eq_true hne)

theorem Covers.gone (h : Covers tree place left) (hr : (removalStep tree place left).2 = none) :
    (removalStep tree place left).1 place = none := by
  rcases left with _ | _ | ⟨name, names⟩
  · exact Option.map_eq_none_iff.mp hr
  · cases hp : tree place with
    | none => simp [removalStep, hp]
    | some dir =>
        cases dir with
        | nil => simp [removalStep, hp]
        | cons file files => exact absurd (h [] rfl _ hp file List.mem_cons_self) List.not_mem_nil
  · cases hr

end Removal

theorem rename_eq_some_iff : rename tree source destination = some moved ↔
    ∃ dir, tree source = some dir ∧ (∀ file files, tree destination ≠ some (file :: files)) ∧
      moved = Function.update (Function.update tree source none) destination (some dir) := by
  simp only [rename]
  cases hs : tree source with
  | none => simp
  | some dir =>
      rcases hd : tree destination with _ | _ | ⟨file, files⟩ <;> simp [eq_comm]

theorem rename_destination (h : rename tree source destination = some moved) :
    moved destination = tree source := by
  obtain ⟨dir, hs, -, rfl⟩ := rename_eq_some_iff.mp h
  rw [Function.update_self, hs]

theorem rename_source (hne : source ≠ destination) (h : rename tree source destination = some moved) :
    moved source = none := by
  obtain ⟨dir, -, -, rfl⟩ := rename_eq_some_iff.mp h
  rw [Function.update_of_ne hne, Function.update_self]

theorem rename_of_ne (hs : other ≠ source) (hd : other ≠ destination)
    (h : rename tree source destination = some moved) : moved other = tree other := by
  obtain ⟨dir, -, -, rfl⟩ := rename_eq_some_iff.mp h
  rw [Function.update_of_ne hd, Function.update_of_ne hs]

theorem rename_ne_none_of_free (hs : (tree source).isSome = true) (hd : tree destination = none) :
    rename tree source destination ≠ none := by
  obtain ⟨dir, hs⟩ := Option.isSome_iff_exists.mp hs
  refine Option.ne_none_iff_exists'.mpr ⟨_, rename_eq_some_iff.mpr ⟨dir, hs, ?_, rfl⟩⟩
  simp [hd]

end EovpnPro.Directories
