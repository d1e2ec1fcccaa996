import EovpnPro.Sources
import Mathlib.Data.List.Nodup
import Mathlib.Logic.Function.Basic

namespace EovpnPro.SourceHandles

open Sources Function

/-- A scheduler beside the handles that are kept on its sources, one handle a kind. -/
structure Held (κ ι : Type) where
  sched : Scheduler κ
  handle : ι → Option Nat

variable {κ ι : Type}

section

variable [DecidableEq ι]

def forget (x : Held κ ι) (i : ι) : Held κ ι := { x with handle := update x.handle i none }

def release (x : Held κ ι) (i : ι) : Held κ ι :=
  { sched := (x.handle i).elim x.sched (remove x.sched), handle := update x.handle i none }

def register (x : Held κ ι) (i : ι) (now interval : Nat) (callback : κ) : Held κ ι :=
  { sched := add x.sched now interval callback, handle := update x.handle i (some x.sched.fresh) }

end

def drop (x : Held κ ι) (id : Nat) : Held κ ι := { x with sched := remove x.sched id }

variable {kind : κ → Option ι} {x y z : Held κ ι} {i : ι} {skip : Option Nat} {id : Nat}

/-- Every registered source that has a kind is the one that the handle of its kind leads
to, except for a source that is being dispatched. -/
def Owned (kind : κ → Option ι) (skip : Option Nat) (x : Held κ ι) : Prop :=
  ∀ s ∈ x.sched.sources, some s.id ≠ skip → ∀ i, kind s.callback = some i → x.handle i = some s.id

/-- Identifiers are handed out once, and no handle leads to a source of another kind. -/
structure Sound (kind : κ → Option ι) (x : Held κ ι) : Prop where
  below : ∀ s ∈ x.sched.sources, s.id < x.sched.fresh
  distinct : (x.sched.sources.map Source.id).Nodup
  handed : ∀ i id, x.handle i = some id → id < x.sched.fresh
  own : ∀ i, ∀ s ∈ x.sched.sources, x.handle i = some s.id → kind s.callback = some i

/-- A registered source that has a kind, and that no handle leads to any more. -/
structure Lost (kind : κ → Option ι) (id : Nat) (x : Held κ ι) : Prop where
  below : id < x.sched.fresh
  registered : ∃ s ∈ x.sched.sources, s.id = id ∧ kind s.callback ≠ none
  unheld : ∀ i, x.handle i ≠ some id

/-- What happens between two states takes no source from its handle, and finds none again. -/
structure Keeps (kind : κ → Option ι) (x y : Held κ ι) : Prop where
  sound : Sound kind x → Sound kind y
  owned : ∀ skip, Owned kind skip x → Owned kind skip y
  lost : ∀ id, Lost kind id x → Lost kind id y

theorem Keeps.refl (x : Held κ ι) : Keeps kind x x := ⟨id, fun _ => id, fun _ => id⟩

theorem Keeps.trans (h : Keeps kind x y) (hy : Keeps kind y z) : Keeps kind x z :=
  ⟨fun hx => hy.sound (h.sound hx), fun skip hx => hy.owned skip (h.owned skip hx),
    fun id hx => hy.lost id (h.lost id hx)⟩

theorem keeps_of_eq (h : y = x) : Keeps kind x y := by
  rw [h]
  exact .refl x

theorem Lost.not_owned (h : Lost kind id x) : ¬ Owned kind none x := by
  intro ho
  obtain ⟨s, hs, rfl, hk⟩ := h.registered
  obtain ⟨i, hi⟩ := Option.ne_none_iff_exists'.mp hk
  exact h.unheld i (ho s hs (Option.some_ne_none _) i hi)

theorem Sound.fewer (h : Sound kind x) (hf : y.sched.fresh = x.sched.fresh)
    (hs : y.sched.sources.Sublist x.sched.sources)
    (hh : ∀ i id, y.handle i = some id → x.handle i = some id) : Sound kind y where
  below s hm := hf ▸ h.below s (hs.subset hm)
  distinct := h.distinct.sublist (hs.map _)
  handed i id hi := hf ▸ h.handed i id (hh i id hi)
  own i s hm hi := h.own i s (hs.subset hm) (hh i s.id hi)

section Dropping

theorem sound_drop (h : Sound kind x) (id : Nat) : Sound kind (drop x id) :=
  h.fewer rfl List.filter_sublist fun _ _ hi => hi

theorem Owned.dropped (h : Owned kind (some id) x) : Owned kind none (drop x id) := by
  intro s hs _ i hi
  obtain ⟨hm, hid⟩ := List.mem_filter.mp hs
  exact h s hm (fun he => of_decide_eq_true hid (Option.some.inj he)) i hi

theorem Owned.drop (h : Owned kind skip x) (id : Nat) : Owned kind skip (drop x id) :=
  fun s hs hskip i hi => h s (List.mem_filter.mp hs).1 hskip i hi

theorem Lost.drop {other : Nat} (h : Lost kind id x) (hne : id ≠ other) : Lost kind id (drop x other) := by
  obtain ⟨s, hs, rfl, hk⟩ := h.registered
  exact ⟨h.below, ⟨s, List.mem_filter.mpr ⟨hs, decide_eq_true hne⟩, rfl, hk⟩, h.unheld⟩

theorem keeps_rearm (x : Held κ ι) (id now : Nat) :
    Keeps kind x { x with sched := rearm x.sched id now } := by
  have hsame : ∀ s ∈ (rearm x.sched id now).sources,
      ∃ r ∈ x.sched.sources, r.id = s.id ∧ r.callback = s.callback := by
    intro s hs
    obtain ⟨r, hr, rfl⟩ := List.mem_map.mp hs
    refine ⟨r, hr, ?_⟩
    split <;> exact ⟨rfl, rfl⟩
  have hids : (rearm x.sched id now).sources.map Source.id = x.sched.sources.map Source.id := by
    rw [rearm, List.map_map]
    apply List.map_congr_left
    intro s _
    rw [comp_apply]
    split <;> rfl
  constructor
  · intro h
    refine ⟨fun s hs => ?_, hids ▸ h.distinct, h.handed, fun i s hs hi => ?_⟩
    · obtain ⟨r, hr, hid, -⟩ := hsame s hs
      exact hid ▸ h.below r hr
    · obtain ⟨r, hr, hid, hc⟩ := hsame s hs
      rw [← hid] at hi
      exact hc ▸ h.own i r hr hi
  · intro skip h s hs hskip i hi
    obtain ⟨r, hr, hid, hc⟩ := hsame s hs
    rw [← hid] at hskip ⊢
    rw [← hc] at hi
    exact h r hr hskip i hi
  · intro lost h
    obtain ⟨s, hs, rfl, hk⟩ := h.registered
    refine ⟨h.below, ⟨_, List.mem_map_of_mem hs, ?_⟩, h.unheld⟩
    split <;> exact ⟨rfl, hk⟩

theorem below_add (h : Sound kind x) (now interval : Nat) (callback : κ) :
    ∀ s ∈ (add x.sched now interval callback).sources, s.id < x.sched.fresh + 1 := by
  intro s hs
  rcases List.mem_append.mp hs with hs | hs
  · exact Nat.lt_succ_of_lt (h.below s hs)
  · rw [List.mem_singleton.mp hs]
    exact Nat.lt_succ_self _

theorem distinct_add (h : Sound kind x) (now interval : Nat) (callback : κ) :
    ((add x.sched now interval callback).sources.map Source.id).Nodup := by
  rw [add, List.map_append]
  refine List.nodup_append.mpr ⟨h.distinct, List.nodup_singleton _, fun id hid other ho he => ?_⟩
  obtain ⟨s, hs, rfl⟩ := List.mem_map.mp hid
  rw [List.mem_singleton.mp ho] at he
  exact absurd he (Nat.ne_of_lt (h.below s hs))

theorem keeps_add (x : Held κ ι) (now interval : Nat) {callback : κ} (hc : kind callback = none) :
    Keeps kind x { x with sched := add x.sched now interval callback } where
  sound h := by
    refine ⟨below_add h now interval callback, distinct_add h now interval callback,
      fun i id hi => Nat.lt_succ_of_lt (h.handed i id hi), fun i s hs hi => ?_⟩
    rcases List.mem_append.mp hs with hs | hs
    · exact h.own i s hs hi
    · rw [List.mem_singleton.mp hs] at hi
      exact absurd (h.handed i _ hi) (Nat.lt_irrefl _)
  owned skip h s hs hskip i hi := by
    rcases List.mem_append.mp hs with hs | hs
    · exact h s hs hskip i hi
    · rw [List.mem_singleton.mp hs, hc] at hi
      cases hi
  lost id h := by
    obtain ⟨s, hs, rfl, hk⟩ := h.registered
    exact ⟨Nat.lt_succ_of_lt h.below, ⟨s, List.mem_append_left _ hs, rfl, hk⟩, h.unheld⟩

end Dropping

section Handles

variable [DecidableEq ι]

theorem length_le_one_of_owned (hs : Sound kind x) (ho : Owned kind none x) (i : ι) :
    (x.sched.sources.filter fun s => decide (kind s.callback = some i)).length ≤ 1 := by
  have hone : ∀ s ∈ x.sched.sources.filter (fun s => decide (kind s.callback = some i)),
      x.handle i = some s.id := by
    intro s hm
    obtain ⟨hm, hk⟩ := List.mem_filter.mp hm
    exact ho s hm (Option.some_ne_none _) i (of_decide_eq_true hk)
  have hnodup : ((x.sched.sources.filter fun s => decide (kind s.callback = some i)).map Source.id).Nodup :=
    hs.distinct.sublist (List.filter_sublist.map _)
  generalize x.sched.sources.filter (fun s => decide (kind s.callback = some i)) = found at hnodup hone
  match found with
  | [] => exact Nat.zero_le 1
  | [s] => exact Nat.le_refl 1
  | s :: r :: rest =>
      have hsame : s.id = r.id := Option.some.inj ((hone s List.mem_cons_self).symm.trans
        (hone r (List.mem_cons_of_mem s List.mem_cons_self)))
      exact absurd (hsame ▸ List.mem_cons_self) (List.nodup_cons.mp hnodup).1

theorem of_update_none {handle : ι → Option Nat} {j : ι} (h : update handle i none j = some id) :
    j ≠ i ∧ handle j = some id := by
  by_cases hj : j = i
  · rw [hj, update_self] at h
    cases h
  · exact ⟨hj, update_of_ne hj none handle ▸ h⟩

theorem sound_forget (h : Sound kind x) (i : ι) : Sound kind (forget x i) :=
  h.fewer rfl (List.Sublist.refl _) fun _ _ hj => (of_update_none hj).2

theorem Owned.forget_own (h : Owned kind none x) {s : Source κ} (hs : s ∈ x.sched.sources)
    (hi : kind s.callback = some i) : Owned kind (some s.id) (forget x i) := by
  intro r hr hskip j hj
  have hown := h r hr (Option.some_ne_none _) j hj
  have hne : j ≠ i := by
    rintro rfl
    exact hskip (hown.symm.trans (h s hs (Option.some_ne_none _) j hi))
  exact (update_of_ne hne none x.handle).trans hown

theorem Owned.forget_absent (h : Owned kind skip x)
    (hi : ∀ s ∈ x.sched.sources, some s.id ≠ skip → kind s.callback ≠ some i) :
    Owned kind skip (forget x i) := by
  intro s hs hskip j hj
  have hne : j ≠ i := by
    rintro rfl
    exact hi s hs hskip hj
  exact (update_of_ne hne none x.handle).trans (h s hs hskip j hj)

theorem lost_forget (h : Sound kind x) {s : Source κ} (hs : s ∈ x.sched.sources)
    (hi : kind s.callback = some i) : Lost kind s.id (forget x i) where
  below := h.below s hs
  registered := ⟨s, hs, rfl, by rw [hi]; exact Option.some_ne_none i⟩
  unheld j hj := by
    obtain ⟨hne, hj⟩ := of_update_none hj
    exact hne (Option.some.inj ((h.own j s hs hj).symm.trans hi))

theorem mem_release {s : Source κ} :
    s ∈ (release x i).sched.sources ↔ s ∈ x.sched.sources ∧ x.handle i ≠ some s.id := by
  simp only [release]
  cases x.handle i with
  | none => exact ⟨fun hs => ⟨hs, (Option.some_ne_none s.id).symm⟩, And.left⟩
  | some id =>
      refine List.mem_filter.trans (and_congr_right fun _ => ?_)
      rw [decide_eq_true_iff, ne_comm, Ne, Ne, Option.some.injEq]

theorem release_fresh (x : Held κ ι) (i : ι) : (release x i).sched.fresh = x.sched.fresh := by
  simp only [release]
  cases x.handle i <;> rfl

theorem release_sublist (x : Held κ ι) (i : ι) :
    (release x i).sched.sources.Sublist x.sched.sources := by
  simp only [release]
  cases x.handle i with
  | none => exact List.Sublist.refl _
  | some id => exact List.filter_sublist

theorem keeps_release (x : Held κ ι) (i : ι) : Keeps kind x (release x i) where
  sound h := h.fewer (release_fresh x i) (release_sublist x i) fun _ _ hj => (of_update_none hj).2
  owned skip h s hs hskip j hj := by
    obtain ⟨hm, hi⟩ := mem_release.mp hs
    have hown := h s hm hskip j hj
    have hne : j ≠ i := fun he => hi (he ▸ hown)
    exact (update_of_ne hne none x.handle).trans hown
  lost id h := by
    obtain ⟨s, hs, rfl, hk⟩ := h.registered
    refine ⟨release_fresh x i ▸ h.below, ⟨s, mem_release.mpr ⟨hs, h.unheld i⟩, rfl, hk⟩, fun j hj => ?_⟩
    exact h.unheld j (of_update_none hj).2

theorem handle_register_self (x : Held κ ι) (i : ι) (now interval : Nat) (callback : κ) :
    (register x i now interval callback).handle i = some x.sched.fresh := update_self i _ x.handle

theorem handle_register_of_ne {j : ι} (hne : j ≠ i) (now interval : Nat) (callback : κ) :
    (register x i now interval callback).handle j = x.handle j := update_of_ne hne _ x.handle

theorem keeps_register (hfree : x.handle i = none) (now interval : Nat) {callback : κ}
    (hc : kind callback = some i) : Keeps kind x (register x i now interval callback) where
  sound h := by
    refine ⟨below_add h now interval callback, distinct_add h now interval callback, fun j id hj => ?_,
      fun j s hs hj => ?_⟩
    · by_cases hji : j = i
      · rw [hji, handle_register_self] at hj
        exact Option.some.inj hj ▸ Nat.lt_succ_self _
      · rw [handle_register_of_ne hji] at hj
        exact Nat.lt_succ_of_lt (h.handed j id hj)
    · rcases List.mem_append.mp hs with hs | hs
      · by_cases hji : j = i
        · rw [hji, handle_register_self] at hj
          exact absurd (Option.some.inj hj).symm (Nat.ne_of_lt (h.below s hs))
        · rw [handle_register_of_ne hji] at hj
          exact h.own j s hs hj
      · rw [List.mem_singleton.mp hs] at hj ⊢
        by_cases hji : j = i
        · rw [hji]
          exact hc
        · rw [handle_register_of_ne hji] at hj
          exact absurd (h.handed j _ hj) (Nat.lt_irrefl _)
  owned skip h s hs hskip j hj := by
    rcases List.mem_append.mp hs with hs | hs
    · have hown := h s hs hskip j hj
      have hne : j ≠ i := by
        rintro rfl
        rw [hfree] at hown
        cases hown
      exact (handle_register_of_ne hne now interval callback).trans hown
    · rw [List.mem_singleton.mp hs] at hj ⊢
      obtain rfl := Option.some.inj (hc.symm.trans hj)
      exact handle_register_self x i now interval callback
  lost id h := by
    obtain ⟨s, hs, rfl, hk⟩ := h.registered
    refine ⟨Nat.lt_succ_of_lt h.below, ⟨s, List.mem_append_left _ hs, rfl, hk⟩, fun j hj => ?_⟩
    by_cases hji : j = i
    · rw [hji, handle_register_self] at hj
      exact absurd (Option.some.inj hj).symm (Nat.ne_of_lt h.below)
    · rw [handle_register_of_ne hji] at hj
      exact h.unheld j hj

end Handles

end EovpnPro.SourceHandles
