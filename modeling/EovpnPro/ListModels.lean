import Mathlib.Data.List.Sort

namespace EovpnPro.ListModels

variable {α : Type}

/-- An item of a sorted list that is shown through a filter, with the filter's verdict
as it was last asked for. -/
structure Entry (α : Type) where
  item : α
  passes : Bool

def items (model : List (Entry α)) : List α := model.map Entry.item

def visible (model : List (Entry α)) : List α := items (model.filter Entry.passes)

def append (le : α → α → Bool) (p : α → Bool) (x : α) : List (Entry α) → List (Entry α)
  | [] => [⟨x, p x⟩]
  | e :: model => if le e.item x then e :: append le p x model else ⟨x, p x⟩ :: e :: model

def refilter (p : α → Bool) (model : List (Entry α)) : List (Entry α) :=
  model.map fun e => { e with passes := p e.item }

def resort (le : α → α → Bool) (p : α → Bool) (moved : α → Bool) (model : List (Entry α)) : List (Entry α) :=
  (model.mergeSort fun a b => le a.item b.item).map fun e =>
    if moved e.item then { e with passes := p e.item } else e

/-- No verdict is out of date, and the items are in order. -/
structure Settled (le : α → α → Bool) (p : α → Bool) (model : List (Entry α)) : Prop where
  verdicts : ∀ e ∈ model, e.passes = p e.item
  sorted : (items model).Pairwise fun a b => le a b = true

variable {le : α → α → Bool} {p : α → Bool} {model : List (Entry α)}

theorem settled_nil (le : α → α → Bool) (p : α → Bool) : Settled le p [] where
  verdicts _ h := by cases h
  sorted := List.Pairwise.nil

theorem items_append_perm (le : α → α → Bool) (p : α → Bool) (x : α) (model : List (Entry α)) :
    (items (append le p x model)).Perm (x :: items model) := by
  induction model with
  | nil => exact List.Perm.refl _
  | cons e model ih =>
      rw [append]
      split
      · exact (ih.cons e.item).trans (List.Perm.swap x e.item _)
      · exact List.Perm.refl _

@[simp] theorem items_refilter (p : α → Bool) (model : List (Entry α)) : items (refilter p model) = items model := by
  simp [items, refilter]

theorem items_resort_perm (le : α → α → Bool) (p : α → Bool) (moved : α → Bool) (model : List (Entry α)) :
    (items (resort le p moved model)).Perm (items model) := by
  have hitems : items (resort le p moved model) = items (model.mergeSort fun a b => le a.item b.item) := by
    rw [items, resort, List.map_map, items]
    refine List.map_congr_left fun e _ => ?_
    simp only [Function.comp_apply]
    split <;> rfl
  rw [hitems]
  exact (List.mergeSort_perm _ _).map _

section

variable (htotal : ∀ a b, le a b = true ∨ le b a = true)
  (htrans : ∀ a b c, le a b = true → le b c = true → le a c = true)

include htotal htrans

theorem Settled.append (h : Settled le p model) (x : α) : Settled le p (append le p x model) := by
  constructor
  · intro e he
    induction model with
    | nil =>
        rw [List.mem_singleton.mp he]
    | cons d model ih =>
        rw [ListModels.append] at he
        have hrest : Settled le p model :=
          ⟨fun e he => h.verdicts e (.tail _ he), (List.pairwise_cons.mp h.sorted).2⟩
        split at he
        · rcases List.mem_cons.mp he with rfl | he
          · exact h.verdicts _ (.head _)
          · exact ih hrest he
        · rcases List.mem_cons.mp he with rfl | he
          · rfl
          · exact h.verdicts _ he
  · induction model with
    | nil => exact List.pairwise_singleton _ _
    | cons d model ih =>
        obtain ⟨hd, hsorted⟩ := List.pairwise_cons.mp h.sorted
        have hrest : Settled le p model := ⟨fun e he => h.verdicts e (.tail _ he), hsorted⟩
        rw [ListModels.append]
        split
        · rename_i hle
          refine List.pairwise_cons.mpr ⟨fun b hb => ?_, ih hrest⟩
          rcases List.mem_cons.mp ((items_append_perm le p x model).mem_iff.mp hb) with rfl | hb
          · exact hle
          · exact hd b hb
        · rename_i hle
          have hx : le x d.item = true := (htotal x d.item).resolve_right hle
          refine List.pairwise_cons.mpr ⟨fun b hb => ?_, h.sorted⟩
          rcases List.mem_cons.mp hb with rfl | hb
          · exact hx
          · exact htrans _ _ _ hx (hd b hb)

theorem sorted_resort (p : α → Bool) (moved : α → Bool) (model : List (Entry α)) :
    (items (resort le p moved model)).Pairwise fun a b => le a b = true := by
  have hsorted := @List.pairwise_mergeSort _ (fun a b : Entry α => le a.item b.item)
    (fun a b c => htrans a.item b.item c.item) (fun a b => by simpa using htotal a.item b.item) model
  rw [items, List.pairwise_map, resort, List.pairwise_map]
  refine hsorted.imp fun {a b} hab => ?_
  split <;> split <;> exact hab

theorem Settled.resort {other : α → α → Bool} {moved : α → Bool} (h : Settled other p model) :
    Settled le p (resort le p moved model) := by
  refine ⟨fun e he => ?_, sorted_resort htotal htrans p moved model⟩
  obtain ⟨d, hd, rfl⟩ := List.mem_map.mp he
  have hverdict := h.verdicts d (List.mem_mergeSort.mp hd)
  split
  · rfl
  · exact hverdict

end

theorem settled_refilter (p : α → Bool) (h : (items model).Pairwise fun a b => le a b = true) :
    Settled le p (refilter p model) where
  verdicts e he := by
    obtain ⟨d, -, rfl⟩ := List.mem_map.mp he
    rfl
  sorted := by
    rw [items_refilter]
    exact h

theorem Settled.congr {q : α → Bool} (h : Settled le p model) (hq : ∀ x ∈ items model, q x = p x) :
    Settled le q model where
  verdicts e he := (h.verdicts e he).trans (hq e.item (List.mem_map_of_mem he)).symm
  sorted := h.sorted

theorem Settled.visible_filter (h : Settled le p model) : visible model = (items model).filter p := by
  have hverdicts := h.verdicts
  clear h
  induction model with
  | nil => rfl
  | cons e model ih =>
      have he := hverdicts e (.head _)
      have htail := ih fun d hd => hverdicts d (.tail _ hd)
      simp only [visible, items, List.map_cons] at htail ⊢
      rw [List.filter_cons, List.filter_cons, he]
      split
      · rw [List.map_cons, htail]
      · exact htail

theorem Settled.visible_eq (h : Settled le p model) {all : List α} (hperm : (items model).Perm all)
    (hall : all.Pairwise fun a b => le a b = true)
    (hanti : ∀ a ∈ all, ∀ b ∈ all, le a b = true → le b a = true → a = b) :
    visible model = all.filter p := by
  have hitems : items model = all := by
    refine List.Perm.eq_of_pairwise ?_ h.sorted hall hperm
    intro a b ha hb
    exact hanti a (hperm.mem_iff.mp ha) b hb
  rw [h.visible_filter, hitems]

end EovpnPro.ListModels
