import EovpnPro.ResetBackup
import Mathlib.Data.List.Basic

namespace EovpnPro.BackupChoice

open FileTrees Settings ResetBackup

variable {C : Type}

/-- The directory that the managed configurations lie in, as it is listed. -/
structure Parent (C : Type) where
  items : List (Item C)
  distinct : (items.map Item.name).Nodup

/-- A backup that a restore would accept. -/
def Accepted (env : Env C) (p : Parent C) (item : Item C) : Prop :=
  item ∈ p.items ∧ resetBackupPrefix.toList.isPrefixOf item.name.toList = true ∧
    ∃ settings, loadResetManifest env p.items item.name = .ok settings

/-- Where there is a backup to restore, one of the newest of them is offered. -/
def Offered (env : Env C) (p : Parent C) : Prop :=
  (∃ item, Accepted env p item) → ∃ latest, latestResetBackup env p.items = some latest ∧
    Accepted env p latest ∧ ∀ item, Accepted env p item → item.mtime ≤ latest.mtime

/-- One entry is preferred to another: it is newer, or as new and listed before. -/
def Preferred (items : List (Item C)) (better worse : Item C) : Prop :=
  worse.mtime < better.mtime ∨ worse.mtime = better.mtime ∧
    ∃ front back, items = front ++ worse :: back ∧ better ∈ front

theorem exists_of_maxOn? {α : Type} {f : α → Nat} {xs : List α} {m : α} (h : xs.maxOn? f = some m) :
    ∃ front back, xs = front ++ m :: back ∧ (∀ x ∈ front, f x < f m) ∧ ∀ x ∈ back, f x ≤ f m := by
  induction xs generalizing m with
  | nil => cases h
  | cons x xs ih =>
      rw [List.maxOn?_cons] at h
      cases hm : xs.maxOn? f with
      | none =>
          have hnil : xs = [] := by
            cases xs with
            | nil => rfl
            | cons y ys => rw [List.maxOn?_cons] at hm; cases hm
          rw [hm] at h
          obtain rfl := Option.some.inj h
          exact ⟨[], [], by rw [hnil]; rfl, by simp, by simp⟩
      | some best =>
          obtain ⟨front, back, rfl, hfront, hback⟩ := ih hm
          rw [hm] at h
          obtain hkeep : maxOn f x best = m := Option.some.inj h
          by_cases hle : f best ≤ f x
          · rw [maxOn_eq_left hle] at hkeep
            subst hkeep
            refine ⟨[], _, rfl, by simp, fun y hy => ?_⟩
            rcases List.mem_append.mp hy with hy | hy
            · exact (hfront y hy).le.trans hle
            · rcases List.mem_cons.mp hy with rfl | hy
              · exact hle
              · exact (hback y hy).trans hle
          · rw [maxOn_eq_right hle] at hkeep
            subst hkeep
            refine ⟨x :: front, back, rfl, fun y hy => ?_, hback⟩
            rcases List.mem_cons.mp hy with rfl | hy
            · exact Nat.not_le.mp hle
            · exact hfront y hy

variable {env : Env C} {p : Parent C} {item latest : Item C}

theorem nodeAt_of_mem (h : item ∈ p.items) : nodeAt p.items item.name = some item.node := by
  cases hf : p.items.find? fun other => other.name = item.name with
  | none => exact absurd (decide_eq_true rfl) (List.find?_eq_none.mp hf _ h)
  | some found =>
      have hname : found.name = item.name := by simpa using List.find?_some hf
      have hsame := List.inj_on_of_nodup_map p.distinct (List.mem_of_find?_eq_some hf) h hname
      rw [nodeAt, hf, hsame]
      rfl

theorem candidate_of_accepted (h : Accepted env p item) : candidate env item = true := by
  obtain ⟨hmem, hprefix, settings, hload⟩ := h
  rw [loadResetManifest, nodeAt_of_mem hmem] at hload
  rw [candidate, hprefix, Bool.true_and]
  cases hnode : item.node with
  | file | link | special => rw [hnode] at hload; cases hload
  | dir entries =>
      rw [hnode] at hload
      dsimp only at hload ⊢
      cases hfind : entries.find "manifest.json" with
      | none => rw [hfind] at hload; cases hload
      | some node =>
          cases hread : readFile env node with
          | none => rw [hfind, Option.bind_some, hread] at hload; cases hload
          | some text => simp [hread]

theorem exists_of_latest (h : latestResetBackup env p.items = some latest) :
    ∃ front back, p.items = front ++ latest :: back ∧ candidate env latest = true ∧
      (∀ item ∈ front, candidate env item = true → item.mtime < latest.mtime) ∧
      ∀ item ∈ back, candidate env item = true → item.mtime ≤ latest.mtime := by
  obtain ⟨front, back, heq, hfront, hback⟩ := exists_of_maxOn? h
  obtain ⟨before, after, hitems, rfl, hafter⟩ := List.filter_eq_append_iff.mp heq
  obtain ⟨skipped, rest, rfl, hskipped, hlatest, rfl⟩ := List.filter_eq_cons_iff.mp hafter
  refine ⟨before ++ skipped, rest, by rw [hitems, List.append_assoc], hlatest, fun item hi hc => ?_,
    fun item hi hc => hback item (List.mem_filter.mpr ⟨hi, hc⟩)⟩
  rcases List.mem_append.mp hi with hi | hi
  · exact hfront item (List.mem_filter.mpr ⟨hi, hc⟩)
  · exact absurd hc (hskipped item hi)

theorem not_preferred (h : latestResetBackup env p.items = some latest) (hmem : item ∈ p.items)
    (hc : candidate env item = true) : ¬Preferred p.items item latest := by
  obtain ⟨front, back, heq, -, hfront, hback⟩ := exists_of_latest h
  have hle : item.mtime ≤ latest.mtime := by
    rw [heq] at hmem
    rcases List.mem_append.mp hmem with hi | hi
    · exact (hfront item hi hc).le
    · rcases List.mem_cons.mp hi with rfl | hi
      · exact le_rfl
      · exact hback item hi hc
  rintro (hlt | ⟨hsame, front', back', heq', hi⟩)
  · omega
  · have hnodup : p.items.Nodup := List.Nodup.of_map Item.name p.distinct
    rw [heq, List.nodup_append, List.nodup_cons] at hnodup
    obtain ⟨-, ⟨hlast, -⟩, hapart⟩ := hnodup
    have hfirst : latest ∉ front := fun hl => hapart latest hl latest List.mem_cons_self rfl
    rw [heq] at heq'
    obtain ⟨rfl, -⟩ := (List.append_cons_inj_of_notMem hfirst hlast).mp heq'
    have hlt := hfront item hi hc
    omega

/-- A backup that can be restored is offered, and a newest one, exactly when some such is
preferred to each candidate that cannot be. -/
theorem offered_iff (env : Env C) (p : Parent C) :
    Offered env p ↔ ((∃ item, Accepted env p item) → ∀ item ∈ p.items, candidate env item = true →
      ¬Accepted env p item → ∃ better, Accepted env p better ∧ Preferred p.items better item) := by
  refine forall_congr' fun hsome => ⟨?_, fun h => ?_⟩
  · rintro ⟨latest, hlatest, haccepted, -⟩ item hmem hc hnot
    obtain ⟨front, back, heq, -, hfront, hback⟩ := exists_of_latest hlatest
    refine ⟨latest, haccepted, ?_⟩
    rw [heq] at hmem
    rcases List.mem_append.mp hmem with hi | hi
    · exact .inl (hfront item hi hc)
    · rcases List.mem_cons.mp hi with rfl | hi
      · exact absurd haccepted hnot
      · rcases (hback item hi hc).lt_or_eq with hlt | hsame
        · exact .inl hlt
        · obtain ⟨more, rest, rfl⟩ := List.append_of_mem hi
          exact .inr ⟨hsame, front ++ latest :: more, rest, by simp [heq], by simp⟩
  · obtain ⟨good, hgood⟩ := hsome
    have hin := List.mem_filter.mpr ⟨hgood.1, candidate_of_accepted hgood⟩
    obtain ⟨latest, hlatest⟩ := Option.isSome_iff_exists.mp
      (List.isSome_maxOn?_of_mem (f := Item.mtime) hin)
    have hbest (item : Item C) (hi : Accepted env p item) : ¬Preferred p.items item latest :=
      not_preferred hlatest hi.1 (candidate_of_accepted hi)
    refine ⟨latest, hlatest, ?_, fun item hi => ?_⟩
    · by_contra hnot
      obtain ⟨front, back, heq, hc, -⟩ := exists_of_latest hlatest
      obtain ⟨better, haccepted, hpreferred⟩ := h latest (by rw [heq]; simp) hc hnot
      exact hbest better haccepted hpreferred
    · exact Nat.not_lt.mp fun hlt => hbest item hi (.inl hlt)

def shortManifest : String := "\x7b\"format\": 1, \"settings\": \x7b\x7d\x7d"

def shortEnv : Env String where
  dumps _ := ""
  loads text :=
    if text = shortManifest then .ok (.dict [("format", .int 1), ("settings", .dict [])])
    else .error "Expecting value: line 1 column 1 (char 0)"
  follow _ := none
  repr _ := ""

def interrupted : Parent String where
  items :=
    [⟨"reset-backup-20260101T000000Z-7", 1, .dir (.cons "manifest.json" (.file shortManifest) .nil)⟩,
      ⟨"reset-backup-20260102T000000Z-7", 2, .dir (.cons "manifest.json" (.file "") .nil)⟩]
  distinct := by decide

theorem newest_damaged : ¬ ∀ (env : Env String) (p : Parent String), Offered env p := by
  intro h
  have hsome : ∃ item, Accepted shortEnv interrupted item :=
    ⟨_, List.mem_cons_self, by decide, [], rfl⟩
  obtain ⟨latest, hlatest, ⟨-, -, settings, hload⟩, -⟩ := h shortEnv interrupted hsome
  have hchosen : (latestResetBackup shortEnv interrupted.items).map Item.name =
    some "reset-backup-20260102T000000Z-7" := by rfl
  rw [hlatest] at hchosen
  rw [Option.some.inj hchosen] at hload
  cases hload

end EovpnPro.BackupChoice
