import EovpnPro.CascadePaths
import EovpnPro.Runs

namespace EovpnPro.FinishedRuns

open AutoConnect Events Sources AppState WindowEvents CascadeController MainWindow CascadeMoves CascadePaths
open Runs Relation

variable {u v w t : World} {P : Controller → Prop} {Q : Controller → Time → Prop}

def madeIn : Callback → Option Nat
  | .timeout gen | .tick gen | .settle gen => some gen
  | .reconnect _ => none

def spent (w : World) (source : Source Callback) : World :=
  let w := { w with sched := remove w.sched source.id }
  match source.callback with
  | .timeout _ => { w with ctl := { w.ctl with timeoutId := none } }
  | .settle _ => { w with ctl := { w.ctl with settleId := none } }
  | .tick _ | .reconnect _ => w

def Inert (w : World) (id : Nat) : Prop :=
  ∀ after e source gen, due? w.sched id (w.clock + after) = some source →
    madeIn source.callback = some gen → fire (w.pass after) source e = spent (w.pass after) source

/-- Once no run is active, or a later one is, the sources armed so far are inert in every
state that follows. -/
def StaysFinished (w : World) : Prop :=
  ∀ actions, AllStates step (fun t => w.ctl.active = false ∨ w.ctl.gen < t.ctl.gen →
    ∀ id, id < w.sched.fresh → Inert t id) w actions

/-- What a stretch of turns can do to the generation and the sources: a run that becomes
active has a new generation, and a source that is new has a new identifier and was made
in a generation that has been reached. -/
structure Arms (w t : World) : Prop where
  gen : w.ctl.gen ≤ t.ctl.gen
  active : t.ctl.active = true → w.ctl.active = true ∨ w.ctl.gen < t.ctl.gen
  fresh : w.sched.fresh ≤ t.sched.fresh
  source : ∀ s ∈ t.sched.sources, (∃ r ∈ w.sched.sources, r.id = s.id ∧ r.callback = s.callback) ∨
    w.sched.fresh ≤ s.id ∧ ∀ gen, madeIn s.callback = some gen → gen ≤ t.ctl.gen

theorem Arms.trans (huv : Arms u v) (hvw : Arms v w) : Arms u w where
  gen := Nat.le_trans huv.gen hvw.gen
  active ha := by
    rcases hvw.active ha with hv | hlt
    · exact (huv.active hv).imp_right fun hlt => Nat.lt_of_lt_of_le hlt hvw.gen
    · exact .inr (Nat.lt_of_le_of_lt huv.gen hlt)
  fresh := Nat.le_trans huv.fresh hvw.fresh
  source s hs := by
    rcases hvw.source s hs with ⟨r, hr, hid, hcallback⟩ | ⟨hfresh, hgen⟩
    · rcases huv.source r hr with ⟨q, hq, hqid, hqcallback⟩ | ⟨hfresh, hgen⟩
      · exact .inl ⟨q, hq, hqid.trans hid, hqcallback.trans hcallback⟩
      · refine .inr ⟨hid ▸ hfresh, fun gen hmade => ?_⟩
        rw [← hcallback] at hmade
        exact Nat.le_trans (hgen gen hmade) hvw.gen
    · exact .inr ⟨Nat.le_trans huv.fresh hfresh, hgen⟩

theorem arms_of_subset (hgen : w.ctl.gen ≤ t.ctl.gen) (ha : t.ctl.active = true → w.ctl.active = true)
    (hfresh : t.sched.fresh = w.sched.fresh) (hs : t.sched.sources ⊆ w.sched.sources) : Arms w t where
  gen := hgen
  active h := .inl (ha h)
  fresh := Nat.le_of_eq hfresh.symm
  source s h := .inl ⟨s, hs h, rfl, rfl⟩

theorem arms_same (hgen : t.ctl.gen = w.ctl.gen) (ha : t.ctl.active = w.ctl.active)
    (hs : t.sched = w.sched) : Arms w t := by
  refine arms_of_subset (Nat.le_of_eq hgen.symm) (fun h => ha ▸ h) ?_ ?_
  · rw [hs]
  · rw [hs]
    exact List.Subset.refl _

theorem arms_add {now interval : Nat} {callback : Callback} (hgen : t.ctl.gen = w.ctl.gen)
    (ha : t.ctl.active = w.ctl.active) (hs : t.sched = add w.sched now interval callback)
    (hmade : ∀ gen, madeIn callback = some gen → gen = w.ctl.gen) : Arms w t where
  gen := Nat.le_of_eq hgen.symm
  active h := .inl (ha ▸ h)
  fresh := by
    rw [hs]
    exact Nat.le_succ _
  source s h := by
    rw [hs] at h
    rcases List.mem_append.mp h with h | h
    · exact .inl ⟨s, h, rfl, rfl⟩
    · rw [List.mem_singleton.mp h]
      exact .inr ⟨Nat.le_refl _, fun gen hm => Nat.le_of_eq ((hmade gen hm).trans hgen.symm)⟩

theorem arms_disarm (hgen : w.ctl.gen ≤ t.ctl.gen) (ha : t.ctl.active = true → w.ctl.active = true)
    (hs : t.sched = (disarmTimers w false).sched) : Arms w t := by
  obtain ⟨hfresh, hsub⟩ := disarmTimers_subset w
  refine arms_of_subset hgen ha ?_ ?_
  · rw [hs, hfresh]
  · rw [hs]
    exact hsub

theorem arms_leave (w : World) (closing : Time) (reason : AttemptResult) (code message : Option String) :
    Arms w (leaveCandidate w closing reason code message) := by
  obtain ⟨clock, failures, attempts, heq, -⟩ := leaveCandidate_eq w closing reason code message
  rw [heq]
  exact arms_disarm (Nat.le_refl _) id rfl

theorem arms_armTimeoutAndTicks (w : World) (dt : Time) : Arms w (armTimeoutAndTicks w dt) := by
  let quiet := (disarmTimers w false).pass dt
  let interval := max 250 ((quiet.ctl.deadline - quiet.clock) / millisecond) * millisecond
  let armed := add quiet.sched quiet.clock interval (.timeout quiet.ctl.gen)
  have hquiet : Arms w quiet := arms_disarm (Nat.le_refl _) id rfl
  have htimeout : Arms quiet { quiet with sched := armed } :=
    arms_add rfl rfl rfl fun gen hm => (Option.some.inj hm).symm
  have htick : Arms { quiet with sched := armed } (armTimeoutAndTicks w dt) :=
    arms_add (w := { quiet with sched := armed }) rfl rfl rfl fun gen hm => (Option.some.inj hm).symm
  exact (hquiet.trans htimeout).trans htick

theorem arms_armSettle (w : World) : Arms w (armSettle w) := by
  obtain ⟨hfresh, hsub⟩ := removeSource_subset w.sched w.ctl.settleId
  let quiet := { w with sched := removeSource w.sched w.ctl.settleId }
  have hquiet : Arms w quiet := arms_of_subset (Nat.le_refl _) id hfresh hsub
  exact hquiet.trans (arms_add rfl rfl rfl fun gen hm => (Option.some.inj hm).symm)

theorem arms_rearm (w : World) (id : Nat) (now : Time) :
    Arms w { w with sched := rearm w.sched id now } where
  gen := Nat.le_refl _
  active := .inl
  fresh := Nat.le_refl _
  source s hs := by
    obtain ⟨r, hr, rfl⟩ := List.mem_map.mp hs
    refine .inl ⟨r, hr, ?_⟩
    split <;> exact ⟨rfl, rfl⟩

theorem arms_calm (h : Calm Q w t) : Arms w t := by
  cases h with
  | leave closing reason code message => exact arms_leave w closing reason code message
  | missing closing code message =>
      have hreset : Arms w (setDisconnectRetries w 0) := arms_same rfl rfl rfl
      exact hreset.trans (arms_leave _ closing .missing code message)
  | arm dt => exact arms_armTimeoutAndTicks w dt
  | settle h => exact arms_armSettle w
  | reconnect lost => exact arms_add rfl rfl rfl fun gen hm => by cases hm
  | rearm id now => exact arms_rearm w id now
  | drop id => exact arms_of_subset (Nat.le_refl _) (fun ha => ha) rfl (List.filter_subset_self _)
  | disarm => exact arms_disarm (Nat.le_refl _) id rfl
  | succeed =>
      rw [finishSucceeded, completeActiveAttempt_eq]
      exact arms_disarm (Nat.le_refl _) (fun ha => Bool.noConfusion ha) rfl
  | exhaust =>
      rw [finishExhausted, completeActiveAttempt_eq]
      exact arms_disarm (Nat.le_refl _) (fun ha => Bool.noConfusion ha) rfl
  | cancelled closing =>
      rw [closeCancelled, completeActiveAttempt_eq]
      exact arms_disarm (Nat.le_succ _) (fun ha => Bool.noConfusion ha) rfl
  | window | pass | note | down | flags | forgetTimeout | freeze | extend | await | reset | retried | adopt
  | ended => exact arms_same rfl rfl rfl

theorem arms_turn (h : Turn P Q w t) : Arms w t := by
  cases h with
  | move h =>
      cases h with
      | calm h => exact arms_calm h
      | attempt u filename dt arming ha hq hp h =>
          have htry : Arms w (openAttempt w filename dt) := arms_same rfl rfl rfl
          have hopen : Arms w u := calms_keep (fun _ _ hu hc => hu.trans (arms_calm hc)) h htry
          exact hopen.trans (arms_armTimeoutAndTicks u arming)
      | retry | connect => exact arms_same rfl rfl rfl
  | prepare | load =>
      exact ⟨Nat.le_succ _, fun _ => .inr (Nat.lt_succ_self _), Nat.le_refl _,
        fun s hs => .inl ⟨s, hs, rfl, rfl⟩⟩

theorem arms_unregister (w : World) (callback : Callback) : Arms w (unregister w callback) := by
  cases callback with
  | timeout | tick | settle | reconnect => exact arms_same rfl rfl rfl

theorem arms_step (hn : "" ∉ w.ctl.queue) {a : MainWindow.Action} (ht : step w a = some t) : Arms w t := by
  have hturns := turns_of_step hn ht (stepAllowed_free w a)
  have hstart : Arms w (dispatched w a) := by
    rcases dispatched_cases w a with heq | ⟨callback, heq⟩ <;> rw [heq]
    · exact arms_same rfl rfl rfl
    · exact arms_unregister w callback
  exact turns_keep (fun _ _ hu h => hu.trans (arms_turn h)) hturns hstart

structure Reached (w : World) : Prop extends Steady w where
  made : ∀ s ∈ w.sched.sources, ∀ gen, madeIn s.callback = some gen → gen ≤ w.ctl.gen

theorem Reached.after (h : Reached w) (hs : Steady t) (ha : Arms w t) : Reached t := by
  refine ⟨hs, fun s hm gen hmade => ?_⟩
  rcases ha.source s hm with ⟨r, hr, -, hcallback⟩ | ⟨-, hgen⟩
  · rw [← hcallback] at hmade
    exact Nat.le_trans (h.made r hr gen hmade) ha.gen
  · exact hgen gen hmade

theorem reached_step {a : MainWindow.Action} (h : Reached w) (ht : step w a = some t) : Reached t :=
  h.after (steady_step h.toSteady ht) (arms_step h.named ht)

theorem fire_stale {source : Source Callback} {gen : Nat} (hm : madeIn source.callback = some gen)
    (hstale : w.ctl.active = true → gen ≠ w.ctl.gen) (e : FireEnv) : fire w source e = spent w source := by
  have hreturns : (!w.ctl.active || decide (gen ≠ w.ctl.gen)) = true := by
    cases ha : w.ctl.active with
    | false => rfl
    | true => exact decide_eq_true (hstale ha)
  simp only [fire, spent]
  cases hc : source.callback with
  | timeout g =>
      rw [hc] at hm
      obtain rfl := Option.some.inj hm
      simp only [onTimeout, hreturns, if_true]
  | tick g =>
      rw [hc] at hm
      obtain rfl := Option.some.inj hm
      simp only [onTick, hreturns, if_true, Bool.false_eq_true, if_false]
  | settle g =>
      rw [hc] at hm
      obtain rfl := Option.some.inj hm
      have hrun : (w.ctl.active && decide (g = w.ctl.gen)) = false := by
        cases ha : w.ctl.active with
        | false => rfl
        | true => exact decide_eq_false (hstale ha)
      simp only [onSettle, hrun, Bool.false_eq_true, if_false]
  | reconnect lost =>
      rw [hc] at hm
      cases hm

theorem inert_of_arms (hw : Reached w) (h : Arms w t) (hover : w.ctl.active = false ∨ w.ctl.gen < t.ctl.gen)
    {id : Nat} (hid : id < w.sched.fresh) : Inert t id := by
  intro after e source gen hs hm
  obtain ⟨hsource, hsame, -⟩ := of_due? hs
  refine fire_stale (w := t.pass after) hm (fun ha heq => ?_) e
  have hnew : w.ctl.gen < t.ctl.gen := by
    rcases hover with hinactive | hlt
    · exact (h.active ha).resolve_left fun hactive => Bool.noConfusion (hinactive.symm.trans hactive)
    · exact hlt
  rcases h.source source hsource with ⟨r, hr, -, hcallback⟩ | ⟨hfresh, -⟩
  · rw [← hcallback] at hm
    exact absurd (heq ▸ hw.made r hr gen hm) (Nat.not_le_of_lt hnew)
  · exact absurd (hsame ▸ hfresh) (Nat.not_le_of_lt hid)

theorem Reached.staysFinished (h : Reached w) : StaysFinished w := by
  intro actions
  have hstart : Steady w ∧ Arms w w := ⟨h.toSteady, arms_same rfl rfl rfl⟩
  refine (allStates_of_invariant (I := fun t => Steady t ∧ Arms w t) ?_ hstart actions).mono ?_
  · intro u a t hu ht
    exact ⟨steady_step hu.1 ht, hu.2.trans (arms_step hu.1.named ht)⟩
  · intro t ht hover id hid
    exact inert_of_arms h ht.2 hover hid

theorem initial_reached : Reached initial where
  toSteady := initial_steady
  made s hs := by cases hs

/-- Whatever sequence of runs came before and comes after: once a run has ended, none of
the timeout, tick and settle sources armed until then ever does anything again. -/
theorem finished_runs_stay_finished (actions : List MainWindow.Action) :
    AllStates step StaysFinished initial actions :=
  (allStates_of_invariant (fun _ _ _ h ht => reached_step h ht) initial_reached actions).mono
    fun _ h => h.staysFinished

end EovpnPro.FinishedRuns
