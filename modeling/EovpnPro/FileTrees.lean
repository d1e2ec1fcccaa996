import Mathlib.Data.List.Basic

namespace EovpnPro.FileTrees

mutual

/-- What a name in a directory stands for. `special` is a socket, a pipe or a device. -/
inductive Node (C : Type)
  | file (content : C)
  | link (target : String)
  | special
  | dir (entries : Entries C)

inductive Entries (C : Type)
  | nil
  | cons (name : String) (node : Node C) (rest : Entries C)

end

variable {C : Type}

def Entries.find (name : String) : Entries C → Option (Node C)
  | .nil => none
  | .cons n node rest => if n = name then some node else find name rest

mutual

/-- A copy into a place that is not there yet. There is none of a special file. -/
def Node.copy : Node C → Option (Node C)
  | .file content => some (.file content)
  | .link target => some (.link target)
  | .special => none
  | .dir entries => some (.dir entries.copy)

/-- The copies of all entries that can be copied. -/
def Entries.copy : Entries C → Entries C
  | .nil => .nil
  | .cons name node rest =>
      match node.copy with
      | some new => .cons name new rest.copy
      | none => rest.copy

end

mutual

def Node.whole : Node C → Bool
  | .file _ | .link _ => true
  | .special => false
  | .dir entries => entries.whole

def Entries.whole : Entries C → Bool
  | .nil => true
  | .cons _ node rest => node.whole && rest.whole

end

mutual

theorem copy_node : ∀ node : Node C, node.whole = true → node.copy = some node
  | .file _, _ | .link _, _ => rfl
  | .special, h => by cases h
  | .dir entries, h => by rw [Node.copy, copy_entries entries h]

theorem copy_entries : ∀ entries : Entries C, entries.whole = true → entries.copy = entries
  | .nil, _ => rfl
  | .cons name node rest, h => by
      rw [Entries.whole, Bool.and_eq_true] at h
      simp only [Entries.copy, copy_node node h.1, copy_entries rest h.2]

end

end EovpnPro.FileTrees
