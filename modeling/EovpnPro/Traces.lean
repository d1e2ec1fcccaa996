import Mathlib.Logic.Basic

namespace EovpnPro.Traces

variable {α : Type} {p q : List α → α → Prop} {act : α} {trace : List α}

/-- Everything that happened in a trace, newest first, met the condition on what
had happened before. -/
def Always (p : List α → α → Prop) : List α → Prop
  | [] => True
  | act :: older => p older act ∧ Always p older

instance Always.decidable [∀ older act, Decidable (p older act)] : ∀ trace, Decidable (Always p trace)
  | [] => .isTrue trivial
  | act :: older =>
      have : Decidable (Always p older) := Always.decidable older
      inferInstanceAs (Decidable (p older act ∧ Always p older))

theorem Always.mono (h : Always p trace) (hpq : ∀ older act, p older act → q older act) : Always q trace := by
  induction trace with
  | nil => trivial
  | cons act older ih => exact ⟨hpq older act h.1, ih h.2⟩

theorem always_congr (h : Always (fun older act => p older act ↔ q older act) trace) :
    Always p trace ↔ Always q trace := by
  induction trace with
  | nil => exact Iff.rfl
  | cons act older ih => exact and_congr h.1 (ih h.2)

end EovpnPro.Traces
