import Mathlib.Data.List.Basic

namespace EovpnPro.Sources

variable {κ : Type}

/-- A registered one-shot or repeating timer source. Times are in nanoseconds. -/
structure Source (κ : Type) where
  id : Nat
  interval : Nat
  due : Nat
  callback : κ

/-- The sources a main loop holds. Identifiers are handed out once. -/
structure Scheduler (κ : Type) where
  fresh : Nat := 1
  sources : List (Source κ) := []

def add (s : Scheduler κ) (now interval : Nat) (callback : κ) : Scheduler κ :=
  ⟨s.fresh + 1, s.sources ++ [⟨s.fresh, interval, now + interval, callback⟩]⟩

def remove (s : Scheduler κ) (id : Nat) : Scheduler κ :=
  ⟨s.fresh, s.sources.filter (fun x => x.id ≠ id)⟩

def rearm (s : Scheduler κ) (id now : Nat) : Scheduler κ :=
  ⟨s.fresh, s.sources.map (fun x => if x.id = id then { x with due := now + x.interval } else x)⟩

/-- The source with this identifier, when it may be dispatched at `now`. -/
def due? (s : Scheduler κ) (id now : Nat) : Option (Source κ) :=
  s.sources.find? (fun x => x.id = id ∧ x.due ≤ now)

theorem of_due? {s : Scheduler κ} {id now : Nat} {source : Source κ} (h : due? s id now = some source) :
    source ∈ s.sources ∧ source.id = id ∧ source.due ≤ now := by
  have hp := List.find?_some (p := fun x : Source κ => decide (x.id = id ∧ x.due ≤ now)) h
  exact ⟨List.mem_of_find?_eq_some h, of_decide_eq_true hp⟩

end EovpnPro.Sources
