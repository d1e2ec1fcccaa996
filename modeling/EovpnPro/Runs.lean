import Mathlib.Logic.Basic

namespace EovpnPro.Runs

variable {σ α : Type}

/-- Take a list of actions one after another. An action that is not enabled
has no successor, and the run then has none either. -/
def run (step : σ → α → Option σ) : σ → List α → Option σ
  | s, [] => some s
  | s, a :: as => (step s a).bind (fun t => run step t as)

theorem run_append (step : σ → α → Option σ) (s : σ) (as bs : List α) :
    run step s (as ++ bs) = (run step s as).bind (fun t => run step t bs) := by
  induction as generalizing s with
  | nil => rfl
  | cons a as ih => simp only [List.cons_append, run, Option.bind_assoc, ih]

/-- Every step that the run really takes starts from a pair satisfying the
guard. -/
def AllSteps (step : σ → α → Option σ) (guard : σ → α → Prop) : σ → List α → Prop
  | _, [] => True
  | s, a :: as => ∀ t, step s a = some t → guard s a ∧ AllSteps step guard t as

instance decidableAllSteps (step : σ → α → Option σ) (guard : σ → α → Prop)
    [∀ s a, Decidable (guard s a)] : ∀ s as, Decidable (AllSteps step guard s as)
  | _, [] => .isTrue trivial
  | s, a :: as =>
      have := fun t => decidableAllSteps step guard t as
      match h : step s a with
      | none => .isTrue fun t ht => by rw [h] at ht; cases ht
      | some t =>
          decidable_of_iff (guard s a ∧ AllSteps step guard t as)
            ⟨fun hg u hu => Option.some.inj (h.symm.trans hu) ▸ hg, fun hg => hg t h⟩

/-- Every state that the run reaches, the first one included. -/
def AllStates (step : σ → α → Option σ) (P : σ → Prop) : σ → List α → Prop
  | s, [] => P s
  | s, a :: as => P s ∧ ∀ t, step s a = some t → AllStates step P t as

theorem AllStates.head {step : σ → α → Option σ} {P : σ → Prop} {s : σ} {as : List α}
    (h : AllStates step P s as) : P s := by
  cases as with
  | nil => exact h
  | cons a as => exact h.1

theorem AllStates.last {step : σ → α → Option σ} {P : σ → Prop} {s t : σ} {as : List α}
    (h : AllStates step P s as) (hr : run step s as = some t) : P t := by
  induction as generalizing s with
  | nil => exact Option.some.inj hr ▸ h
  | cons a as ih =>
      obtain ⟨u, hu, hr⟩ := Option.bind_eq_some_iff.mp hr
      exact ih (h.2 u hu) hr

theorem AllStates.mono {step : σ → α → Option σ} {P Q : σ → Prop} (hPQ : ∀ s, P s → Q s)
    {s : σ} {as : List α} (h : AllStates step P s as) : AllStates step Q s as := by
  induction as generalizing s with
  | nil => exact hPQ s h
  | cons a as ih => exact ⟨hPQ s h.1, fun t ht => ih (h.2 t ht)⟩

theorem AllSteps.mono {step : σ → α → Option σ} {G H : σ → α → Prop} (hGH : ∀ s a, G s a → H s a)
    {s : σ} {as : List α} (h : AllSteps step G s as) : AllSteps step H s as := by
  induction as generalizing s with
  | nil => trivial
  | cons a as ih => exact fun t ht => ⟨hGH s a (h t ht).1, ih (h t ht).2⟩

theorem allSteps_iff {step : σ → α → Option σ} {G H : σ → α → Prop} (hGH : ∀ s a, G s a ↔ H s a)
    {s : σ} {as : List α} : AllSteps step G s as ↔ AllSteps step H s as :=
  ⟨AllSteps.mono fun s a => (hGH s a).mp, AllSteps.mono fun s a => (hGH s a).mpr⟩

theorem AllSteps.cons {step : σ → α → Option σ} {G : σ → α → Prop} {s t : σ} {as : List α} {a : α} (h : step s a = some t)
    (hg : G s a) (hr : AllSteps step G t as) : AllSteps step G s (a :: as) :=
  fun _ hu => Option.some.inj (h.symm.trans hu) ▸ ⟨hg, hr⟩

theorem AllSteps.next {step : σ → α → Option σ} {G : σ → α → Prop} {s t u : σ} {as : List α} {a : α}
    (h : AllSteps step G s (as ++ [a])) (hr : run step s as = some t) (ha : step t a = some u) : G t a := by
  induction as generalizing s with
  | nil =>
      obtain rfl := Option.some.inj hr
      exact (h u ha).1
  | cons b as ih =>
      obtain ⟨v, hv, hr⟩ := Option.bind_eq_some_iff.mp hr
      exact ih (h v hv).2 hr

theorem allStates_of_guarded {step : σ → α → Option σ} {I : σ → Prop} {guard : σ → α → Prop}
    (hstep : ∀ s a t, I s → guard s a → step s a = some t → I t)
    {s : σ} {as : List α} (hs : I s) (hg : AllSteps step guard s as) : AllStates step I s as := by
  induction as generalizing s with
  | nil => exact hs
  | cons a as ih =>
      exact ⟨hs, fun t ht => ih (hstep s a t hs (hg t ht).1 ht) (hg t ht).2⟩

theorem allStates_of_invariant {step : σ → α → Option σ} {I : σ → Prop}
    (hstep : ∀ s a t, I s → step s a = some t → I t) {s : σ} (hs : I s) (as : List α) :
    AllStates step I s as := by
  induction as generalizing s with
  | nil => exact hs
  | cons a as ih => exact ⟨hs, fun t ht => ih (hstep s a t hs ht)⟩

theorem allStates_iff_allSteps {step : σ → α → Option σ} {I P : σ → Prop} {guard : σ → α → Prop}
    (hP : ∀ s, I s → P s)
    (hkeep : ∀ s a t, I s → step s a = some t → guard s a → I t)
    (hbreak : ∀ s a t, I s → step s a = some t → P t → guard s a)
    {s : σ} (as : List α) (hs : I s) : AllStates step P s as ↔ AllSteps step guard s as := by
  induction as generalizing s with
  | nil => exact ⟨fun _ => trivial, fun _ => hP s hs⟩
  | cons a as ih =>
      constructor
      · intro h t ht
        have hg := hbreak s a t hs ht (h.2 t ht).head
        exact ⟨hg, (ih (hkeep s a t hs ht hg)).mp (h.2 t ht)⟩
      · intro h
        refine ⟨hP s hs, fun t ht => ?_⟩
        exact (ih (hkeep s a t hs ht (h t ht).1)).mpr (h t ht).2

theorem allSteps_iff_of_invariant {step : σ → α → Option σ} {I : σ → Prop} {G H : σ → α → Prop}
    (hkeep : ∀ s a t, I s → step s a = some t → G s a → I t)
    (hiff : ∀ s a t, I s → step s a = some t → (H s a ↔ G s a))
    {s : σ} (as : List α) (hs : I s) : AllSteps step H s as ↔ AllSteps step G s as := by
  induction as generalizing s with
  | nil => exact Iff.rfl
  | cons a as ih =>
      constructor
      · intro h t ht
        have hg := (hiff s a t hs ht).mp (h t ht).1
        exact ⟨hg, (ih (hkeep s a t hs ht hg)).mp (h t ht).2⟩
      · intro h t ht
        have hg := (h t ht).1
        exact ⟨(hiff s a t hs ht).mpr hg, (ih (hkeep s a t hs ht hg)).mpr (h t ht).2⟩

end EovpnPro.Runs
