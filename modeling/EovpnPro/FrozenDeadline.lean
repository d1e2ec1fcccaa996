import EovpnPro.CandidateFate
import EovpnPro.CascadePaths
import EovpnPro.Runs

namespace EovpnPro.FrozenDeadline

open AutoConnect Events Sources AppState WindowEvents CascadeController MainWindow CandidateFate CascadeMoves
open CascadePaths Runs Relation

variable {w t : World} {P : Controller → Prop}

/-- No attempt was closed as a timeout before its deadline, but for the millisecond that
timer intervals are truncated to. The elapsed time of a record is measured against the
deadline in effect when it is closed. -/
def Honoured (w : World) : Prop :=
  ∀ a ∈ w.ctl.attempts, a.result = .timeout → a.timeoutSeconds ≤ a.elapsedSeconds + millisecond

def moved (w : World) (source : Source Callback) : Time := w.ctl.deadline - source.due

/-- The condition of one step: when a timeout source of the run is dispatched while no
dialog is open, the deadline of the open attempt has not been moved, since the source was
armed, by more than the dispatch is late. -/
def InBudget (w : World) : MainWindow.Action → Prop
  | .fire id after e => ∀ source gen, due? w.sched id (w.clock + after) = some source →
      source.callback = .timeout gen → Expires w gen e.timeout → attemptOpen w.ctl = true →
        moved w source ≤ w.clock + after - source.due + e.timeout.drop.closing + millisecond
  | _ => True

theorem moved_le_iff {deadline due now closing tolerance : Nat} (h : due ≤ now) :
    deadline - due ≤ now - due + closing + tolerance ↔ deadline ≤ now + closing + tolerance := by
  omega

def Reached (c : Controller) (now : Time) : Prop :=
  attemptOpen c = true → c.deadline ≤ now + millisecond

structure Timed (w : World) : Prop extends Steady w where
  honoured : Honoured w
  budget : ∀ a ∈ w.ctl.attempts, a.finishedAt = none → millisecond < a.timeoutSeconds

theorem lt_computeAttemptTimeout (rtt : Option Int) : millisecond < computeAttemptTimeout rtt := by
  simp only [computeAttemptTimeout]
  split
  · decide
  · split
    · decide
    · rename_i tenths _
      have hclamp : 300000 ≤ clampBudget tenths := by
        simp only [clampBudget]
        omega
      have hrounded : ∀ n : Nat, 300000 ≤ n → 1000000 < (n + 50) / 100 * (10 * 1000000) := by
        intro n hn
        omega
      exact hrounded (clampBudget tenths) hclamp

theorem honoured_closeAttempt_iff {a : ConnectionAttempt} (ha : a.finishedAt = none)
    (hb : millisecond < a.timeoutSeconds) (now deadline : Time) (code message : Option String) :
    let closed := closeAttempt now deadline .timeout code message a
    closed.timeoutSeconds ≤ closed.elapsedSeconds + millisecond ↔ deadline ≤ now + millisecond := by
  simp only [closeAttempt, ha, Option.isSome_none, Bool.false_eq_true, if_false]
  have hiff : ∀ now deadline budget tolerance : Nat, tolerance < budget →
      (budget ≤ now + budget - deadline + tolerance ↔ deadline ≤ now + tolerance) := by
    intro now deadline budget tolerance hlt
    omega
  exact hiff now deadline a.timeoutSeconds millisecond hb

theorem timed_calm (h : Calm Reached w t) (hw : Timed w) : Timed t := by
  obtain ⟨hactive, hrecords⟩ := h.records
  refine ⟨h.steady hw.toSteady, fun a hm htime => ?_, fun a hm hf => ?_⟩
  · rcases hrecords with heq | ⟨now, result, code, message, heq, hcloses⟩
    · exact hw.honoured a (heq ▸ hm) htime
    · rw [heq] at hm
      obtain ⟨k, hk⟩ := List.mem_iff_getElem?.mp hm
      obtain ⟨b, hb, ⟨rfl, -⟩ | ⟨hopen, hnone, rfl⟩⟩ := of_closeActive hk
      · exact hw.honoured a (List.mem_of_getElem? hb) htime
      · have hmem := List.mem_of_getElem? hb
        have hresult : result = .timeout := by
          rw [closeAttempt, hnone] at htime
          exact htime
        subst hresult
        apply (honoured_closeAttempt_iff hnone (hw.budget b hmem hnone) _ _ _ _).mpr
        rcases hcloses.timely rfl with hdue | hreached
        · exact Nat.le_add_right_of_le hdue
        · apply hreached
          simp only [attemptOpen, hopen, Option.bind_some, hb, Option.any_some, hnone, Option.isNone_none]
  · rcases hrecords with heq | ⟨now, result, code, message, heq, -⟩
    · exact hw.budget a (heq ▸ hm) hf
    · rw [heq] at hm
      obtain ⟨k, hk⟩ := List.mem_iff_getElem?.mp hm
      obtain ⟨b, hb, ⟨rfl, -⟩ | ⟨-, hnone, rfl⟩⟩ := of_closeActive hk
      · exact hw.budget a (List.mem_of_getElem? hb) hf
      · simp only [closeAttempt, hnone, Option.isSome_none, Bool.false_eq_true, if_false] at hf
        cases hf

theorem timed_openAttempt (hw : Timed w) (ha : w.ctl.active = true) {filename : String}
    (hq : w.ctl.queue[w.ctl.index]? = some filename) (dt : Time) : Timed (openAttempt w filename dt) := by
  refine ⟨steady_openAttempt hw.toSteady ha hq dt, fun a hm htime => ?_, fun a hm hf => ?_⟩
  · rcases List.mem_append.mp hm with hm | hm
    · exact hw.honoured a hm htime
    · rw [List.mem_singleton.mp hm] at htime
      cases htime
  · rcases List.mem_append.mp hm with hm | hm
    · exact hw.budget a hm hf
    · rw [List.mem_singleton.mp hm]
      exact lt_computeAttemptTimeout _

theorem timed_turn (h : Turn P Reached w t) (hw : Timed w) : Timed t := by
  have hs := h.steady hw.toSteady
  cases h with
  | move h =>
      cases h with
      | calm h => exact timed_calm h hw
      | attempt u filename dt arming ha hq hp h =>
          exact tried_keeps (fun _ _ hu hc => timed_calm hc hu) h (timed_openAttempt hw ha hq dt) arming
      | retry | connect => exact ⟨hs, hw.honoured, hw.budget⟩
  | prepare => exact ⟨hs, hw.honoured, hw.budget⟩
  | load queue hq hn h =>
      refine ⟨hs, fun a hm => ?_, fun a hm => ?_⟩
      · cases hm
      · cases hm

theorem timed_unregister (hw : Timed w) (callback : Callback) : Timed (unregister w callback) := by
  have hs := steady_unregister hw.toSteady callback
  cases callback with
  | settle | timeout | tick | reconnect => exact ⟨hs, hw.honoured, hw.budget⟩

theorem timed_step (hw : Timed w) {a : MainWindow.Action} (hg : InBudget w a) (ht : step w a = some t) :
    Timed t := by
  refine step_keeps (P := fun _ => True) (Q := Reached) (fun _ _ hu h => timed_turn h hu)
    (fun _ callback hu => timed_unregister hu callback) (fun _ hu => hu.named) ht ?_ hw
  cases a with
  | fire id after e =>
      intro source hs
      cases hc : source.callback with
      | timeout gen =>
          intro ha hgen hbusy
          exact .inr fun ho => (moved_le_iff (of_due? hs).2.2).mp (hg source gen hs hc ⟨ha, hgen, hbusy⟩ ho)
      | settle gen => exact fun _ _ _ => trivial
      | tick | reconnect => trivial
  | backend | load | filter | select | autoReconnect | fastest | cancelCascade | connectClick
  | speedTestClick | sortClick | speedTestDone | event => trivial

theorem early_advance (hw : Timed w) (ha : w.ctl.active = true) (ho : attemptOpen w.ctl = true)
    (e : DropEnv)
    (code message : Option String) (hearly : w.clock + e.closing + millisecond < w.ctl.deadline) :
    ¬ Honoured (advance e w .timeout code message) := by
  obtain ⟨k, a, hk, hrecord, hnone⟩ := open_record ho
  obtain ⟨clock, failures, attempts, heq, hattempts⟩ := leaveCandidate_eq w e.closing .timeout code message
  have hclosed := hw.left e.closing .timeout code message
  let early := closeAttempt (w.clock + e.closing) w.ctl.deadline .timeout
  have hearlier : ∃ c m, Sealed k (early c m a) (leaveCandidate w e.closing .timeout code message) := by
    rcases hattempts with rfl | ⟨c, m, rfl⟩
    · rw [heq] at hclosed
      exact Bool.noConfusion (hclosed.symm.trans ho)
    · refine ⟨c, m, ?_, .inl ?_⟩
      · rw [heq]
        simp only [closeActive, hk, List.getElem?_modify_eq, hrecord, Option.map_eq_map,
          Option.map_some, early]
      · simp only [early, closeAttempt, hnone, Option.isSome_none, Bool.false_eq_true, if_false,
          Option.isSome_some]
  obtain ⟨c, m, hsealed⟩ := hearlier
  have hlast := calms_keep (fun _ _ hu hc => hc.sealed hu)
    (calm_left (Q := Reached) e ha .timeout code message) hsealed
  have hbudget := hw.budget a (List.mem_of_getElem? hrecord) hnone
  intro hhonoured
  have hresult : (early c m a).result = .timeout := by
    simp only [early, closeAttempt, hnone, Option.isSome_none, Bool.false_eq_true, if_false]
  have htime := hhonoured _ (List.mem_of_getElem? hlast.1) hresult
  have hreached := (honoured_closeAttempt_iff hnone hbudget _ _ c m).mp htime
  exact Nat.not_le_of_lt hearly hreached

theorem inBudget_of_honoured (hw : Timed w) {a : MainWindow.Action} (ht : step w a = some t)
    (hhonoured : Honoured t) : InBudget w a := by
  cases a with
  | fire id after e =>
      intro source gen hs hc hx ho
      simp only [step, hs, Option.map_some, Option.some.injEq] at ht
      subst ht
      apply (moved_le_iff (of_due? hs).2.2).mpr
      by_contra hearly
      let forgot := { w.pass after with ctl := { w.ctl with timeoutId := none } }
      have hforgot : Timed forgot :=
        ⟨⟨hw.named, hw.newest, hw.opened, hw.preparing⟩, hw.honoured, hw.budget⟩
      let message := orElse w.ctl.pendingFailureMessage "Handshake timeout expired."
      refine early_advance hforgot hx.1 ho e.timeout.drop (some "timeout") (some message)
        (Nat.lt_of_not_le hearly) ?_
      simp only [fire, hc] at hhonoured
      rw [onTimeout_expired (w := w.pass after) hx.1 hx.2.1 hx.2.2] at hhonoured
      exact hhonoured
  | backend | load | filter | select | autoReconnect | fastest | cancelCascade | connectClick
  | speedTestClick | sortClick | speedTestDone | event => trivial

theorem initial_timed : Timed initial where
  toSteady := initial_steady
  honoured a hm := by cases hm
  budget a hm := by cases hm

/-- The deadline is honoured throughout a run exactly when it is never moved, between the
arming of a timeout source and its dispatch, by more than that dispatch is late. -/
theorem deadline_honoured_iff (actions : List MainWindow.Action) :
    AllStates step Honoured initial actions ↔ AllSteps step InBudget initial actions :=
  allStates_iff_allSteps (I := Timed) (fun _ h => h.honoured)
    (fun _ _ _ h ht hg => timed_step h hg ht) (fun _ _ _ h ht hh => inBudget_of_honoured h ht hh)
    actions initial_timed

def dialogOpens : List MainWindow.Action :=
  [.backend (some .networkManager), .load ["a.ovpn", "b.ovpn"], .speedTestClick,
    .speedTestDone 0 [("a.ovpn", none)] {} {}, .fastest 0 {} {},
    .fire 2 (100 * millisecond) { tick := { busy := true } }, .fire 1 (30 * second - 100 * millisecond) {}]

theorem dialogOpens_records :
    (run step initial dialogOpens).map (fun t => t.ctl.attempts.map
        fun a => (a.result, a.timeoutSeconds, a.elapsedSeconds)) =
      some [(.timeout, 30 * second, 30 * second - 100 * millisecond)] := by
  decide

theorem frozen_time_taken : ¬ ∀ actions, AllStates step Honoured initial actions := by
  intro h
  obtain ⟨t, ht, he⟩ := Option.map_eq_some_iff.mp dialogOpens_records
  obtain ⟨a, hattempts, ha⟩ := List.map_eq_singleton_iff.mp he
  obtain ⟨htime, hbudget, helapsed⟩ : a.result = _ ∧ a.timeoutSeconds = _ ∧ a.elapsedSeconds = _ := by
    simpa only [Prod.mk.injEq] using ha
  have hhonoured := (h dialogOpens).last ht a (hattempts ▸ List.mem_singleton_self a) htime
  rw [hbudget, helapsed] at hhonoured
  revert hhonoured
  decide

end EovpnPro.FrozenDeadline
