import Mathlib.Data.List.Basic

namespace EovpnPro.Subscriptions

variable {κ : Type}

/-- The signal subscriptions of one bus connection. Identifiers are handed out
once. -/
structure Bus (κ : Type) where
  fresh : Nat := 1
  live : List (Nat × κ) := []

def subscribe (b : Bus κ) (topic : κ) : Bus κ := ⟨b.fresh + 1, b.live ++ [(b.fresh, topic)]⟩

def unsubscribe (b : Bus κ) (id : Nat) : Bus κ := ⟨b.fresh, b.live.filter (fun s => s.1 ≠ id)⟩

variable {b : Bus κ} {id : Nat} {topic : κ}

theorem mem_subscribe_self (b : Bus κ) (topic : κ) : (b.fresh, topic) ∈ (subscribe b topic).live :=
  List.mem_append_right _ (List.mem_singleton_self _)

theorem mem_subscribe (h : (id, topic) ∈ b.live) (other : κ) : (id, topic) ∈ (subscribe b other).live :=
  List.mem_append_left _ h

end EovpnPro.Subscriptions
