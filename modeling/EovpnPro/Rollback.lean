import EovpnPro.Runs

namespace EovpnPro.Rollback

open Runs

variable {V σ α : Type}

/-- A value that is in use, the last value that was put aside, and the one that a
pending question offers to bring back. -/
structure Register (V : Type) where
  current : V
  saved : Option V
  offered : Option V

/-- `save` puts the current value aside for another one. `restore` puts it aside for
the offered one, so that restoring can itself be taken back. -/
inductive Op (V : Type)
  | edit (value : V)
  | save (value : V)
  | offer
  | withdraw
  | restore

def apply (r : Register V) : Op V → Option (Register V)
  | .edit value => some { r with current := value }
  | .save value => some { r with current := value, saved := some r.current }
  | .offer => some { r with offered := r.saved }
  | .withdraw => some { r with offered := none }
  | .restore => r.offered.map fun value => ⟨value, some r.current, none⟩

def Op.Saves : Op V → Prop
  | .save _ | .restore => True
  | .edit _ | .offer | .withdraw => False

/-- The operations that leave a pending question as it is. -/
def Op.Waits : Op V → Prop
  | .edit _ | .save _ => True
  | .offer | .withdraw | .restore => False

theorem saved_of_saves {r t : Register V} {op : Op V} (hop : op.Saves) (h : apply r op = some t) :
    t.saved = some r.current := by
  cases op with
  | save value =>
      cases h
      rfl
  | restore =>
      obtain ⟨value, _, rfl⟩ := Option.map_eq_some_iff.mp h
      rfl
  | edit _ | offer | withdraw => exact hop.elim

theorem saved_kept {r t : Register V} {ops : List (Op V)} (hops : ∀ op ∈ ops, ¬op.Saves)
    (h : run apply r ops = some t) : t.saved = r.saved := by
  induction ops generalizing r with
  | nil =>
      cases h
      rfl
  | cons op ops ih =>
      obtain ⟨m, hm, hrest⟩ := Option.bind_eq_some_iff.mp h
      rw [ih (fun op' hmem => hops op' (.tail _ hmem)) hrest]
      have hop := hops op (.head _)
      cases op with
      | edit _ | offer | withdraw =>
          cases hm
          rfl
      | save _ | restore => exact (hop trivial).elim

theorem offered_kept {r t : Register V} {ops : List (Op V)} (hops : ∀ op ∈ ops, op.Waits)
    (h : run apply r ops = some t) : t.offered = r.offered := by
  induction ops generalizing r with
  | nil =>
      cases h
      rfl
  | cons op ops ih =>
      obtain ⟨m, hm, hrest⟩ := Option.bind_eq_some_iff.mp h
      rw [ih (fun op' hmem => hops op' (.tail _ hmem)) hrest]
      have hop := hops op (.head _)
      cases op with
      | edit _ | save _ =>
          cases hm
          rfl
      | offer | withdraw | restore => exact hop.elim

theorem restore_brings_back {r m u t : Register V} {op : Op V} {quiet waiting : List (Op V)}
    (hop : op.Saves) (hquiet : ∀ op ∈ quiet, ¬op.Saves) (hwaiting : ∀ op ∈ waiting, op.Waits)
    (hm : run apply r (op :: quiet) = some m) (hu : run apply m (.offer :: waiting) = some u)
    (ht : apply u .restore = some t) : t.current = r.current := by
  obtain ⟨n, hn, hq⟩ := Option.bind_eq_some_iff.mp hm
  have hsaved : m.saved = some r.current := (saved_kept hquiet hq).trans (saved_of_saves hop hn)
  have hoffered : u.offered = some r.current := (offered_kept hwaiting hu).trans hsaved
  obtain ⟨value, hvalue, rfl⟩ := Option.map_eq_some_iff.mp ht
  exact Option.some.inj (hvalue.symm.trans hoffered)

section

variable {step : σ → α → Option σ} {guard : σ → α → Prop} {Rel : σ → Register V → Prop}

def Refines (step : σ → α → Option σ) (guard : σ → α → Prop) (Rel : σ → Register V → Prop)
    (op : σ → α → σ → Op V) : Prop :=
  ∀ s a t r, Rel s r → guard s a → step s a = some t → ∃ r', apply r (op s a t) = some r' ∧ Rel t r'

theorem allSteps_append {s t : σ} {as bs : List α} (hrun : run step s as = some t)
    (h : AllSteps step guard s (as ++ bs)) : AllSteps step guard s as ∧ AllSteps step guard t bs := by
  induction as generalizing s with
  | nil =>
      cases hrun
      exact ⟨trivial, h⟩
  | cons a as ih =>
      obtain ⟨m, hm, hrest⟩ := Option.bind_eq_some_iff.mp hrun
      obtain ⟨hg, hnext⟩ := h m hm
      obtain ⟨hleft, hright⟩ := ih hrest hnext
      refine ⟨fun m' hm' => ?_, hright⟩
      cases hm.symm.trans hm'
      exact ⟨hg, hleft⟩

/-- The operations that match a run. -/
def opsOf (step : σ → α → Option σ) (op : σ → α → σ → Op V) : σ → List α → List (Op V)
  | _, [] => []
  | s, a :: as =>
      match step s a with
      | none => []
      | some t => op s a t :: opsOf step op t as

theorem mem_opsOf {op : σ → α → σ → Op V} {s : σ} {as : List α} {o : Op V}
    (h : o ∈ opsOf step op s as) : ∃ a ∈ as, ∃ s t, o = op s a t := by
  induction as generalizing s with
  | nil => cases h
  | cons a as ih =>
      rw [opsOf] at h
      split at h
      · cases h
      · rename_i t _
        rcases List.mem_cons.mp h with rfl | hrest
        · exact ⟨a, .head _, s, t, rfl⟩
        · obtain ⟨b, hb, s', t', heq⟩ := ih hrest
          exact ⟨b, .tail _ hb, s', t', heq⟩

theorem Refines.run {op : σ → α → σ → Op V} (h : Refines step guard Rel op) {s t : σ} {r : Register V}
    {as : List α} (hrel : Rel s r) (hguard : AllSteps step guard s as) (hrun : run step s as = some t) :
    ∃ r', Runs.run apply r (opsOf step op s as) = some r' ∧ Rel t r' := by
  induction as generalizing s r with
  | nil =>
      cases hrun
      exact ⟨r, rfl, hrel⟩
  | cons a as ih =>
      obtain ⟨m, hm, hrest⟩ := Option.bind_eq_some_iff.mp hrun
      obtain ⟨hg, hguards⟩ := hguard m hm
      obtain ⟨n, hn, hnext⟩ := h s a m r hrel hg hm
      obtain ⟨r', hr', hlast⟩ := ih hnext hguards hrest
      refine ⟨r', ?_, hlast⟩
      simp only [opsOf, hm]
      exact Option.bind_eq_some_iff.mpr ⟨n, hn, hr'⟩

end

end EovpnPro.Rollback
