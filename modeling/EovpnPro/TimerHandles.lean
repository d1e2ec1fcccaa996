import EovpnPro.CascadeAdvance
import EovpnPro.CascadeFrame
import EovpnPro.SourceHandles

namespace EovpnPro.TimerHandles

open AutoConnect Events Sources AppState WindowEvents CascadeController MainWindow CascadeLedger CascadeAdvance
open CascadeFrame SourceHandles Runs

variable {w u t : World}

inductive Timer
  | timeout
  | tick
  | settle
  deriving DecidableEq, Repr

def kind : Callback → Option Timer
  | .timeout _ => some .timeout
  | .tick _ => some .tick
  | .settle _ => some .settle
  | .reconnect _ => none

def handle (c : Controller) : Timer → Option Nat
  | .timeout => c.timeoutId
  | .tick => c.tickId
  | .settle => c.settleId

/-- The controller's handles own its sources: each registered source is the one that its
handle leads to, so that there is at most one of each kind, and disarming leaves none. -/
structure OwnsSources (w : World) : Prop where
  owned : ∀ s ∈ w.sched.sources, ∀ timer, kind s.callback = some timer → handle w.ctl timer = some s.id
  single : ∀ timer, (w.sched.sources.filter fun s => decide (kind s.callback = some timer)).length ≤ 1
  disarmed : ∀ s ∈ (disarmTimers w false).sched.sources, kind s.callback = none

def TimeoutRegistered (w : World) : Prop := ∃ s ∈ w.sched.sources, kind s.callback = some .timeout

def beginLate (w : World) (queue : List String) (e : StartEnv) : Bool :=
  startsAtOnce w.win.manager e && (queue[0]?).any fun filename =>
    decide (computeAttemptTimeout (w.win.latencies.lookup filename).join ≤ e.attempt.button)

def listLate (w : World) (e : StartEnv) : Bool :=
  match buildCascadeQueue (candidateScope w) w.win.latencies true maxCascadeCandidates with
  | [] => false
  | first :: rest =>
      !((w.win.manager.isSome && e.already.up) && decide (w.win.selected = some first)) &&
        beginLate w (first :: rest) e

def toggleLate (w : World) (e : StartEnv) : Bool :=
  !busy w.ctl && !(candidateScope w).isEmpty && !w.win.latencies.isEmpty && listLate w e

def doneLate (w : World) (latencies : Latencies) (e : StartEnv) : Bool :=
  !w.win.speedTestCancel && w.ctl.autoCascadeAfterTest && w.ctl.active &&
    decide (w.ctl.phase = .preparing) && listLate { w with win := { w.win with latencies } } e

def fireLate (w : World) (e : FireEnv) : Callback → Bool
  | .tick gen => tickLate w gen e.tick
  | .settle gen => decide (gen = w.ctl.gen) && tryLate w e.attempt
  | .timeout _ | .reconnect _ => false

/-- The step comes to `_on_timeout` by another way than its own source: from a tick, or from
the button update in front of an attempt. -/
def callsTimeout (w : World) : MainWindow.Action → Bool
  | .fastest _ _ e => toggleLate w e
  | .speedTestDone _ latencies _ e => doneLate w latencies e
  | .fire id after e =>
      (due? w.sched id (w.clock + after)).any fun source => fireLate (w.pass after) e source.callback
  | .backend _ | .load _ | .filter _ | .select _ | .autoReconnect _ | .cancelCascade _ _
  | .connectClick _ _ | .speedTestClick | .sortClick _ | .event _ _ _ _ => false

/-- The condition of one step: `_on_timeout` is called by another way than its own source
only while no handshake-timeout source is registered. -/
def Guarded (w : World) (a : MainWindow.Action) : Prop := TimeoutRegistered w → callsTimeout w a = false

section Frames

def held (w : World) : Held Callback Timer := ⟨w.sched, handle w.ctl⟩

def KeepsHandles (w t : World) : Prop := Keeps kind (held w) (held t)

theorem handle_ext {c : Controller} {f : Timer → Option Nat} (ht : c.timeoutId = f .timeout)
    (hk : c.tickId = f .tick) (hs : c.settleId = f .settle) : handle c = f := by
  funext timer
  cases timer with
  | timeout => exact ht
  | tick => exact hk
  | settle => exact hs

theorem held_eq {x : Held Callback Timer} (hs : w.sched = x.sched) (hh : handle w.ctl = x.handle) :
    held w = x := by
  obtain ⟨sched, handle⟩ := x
  obtain rfl := hs
  obtain rfl := hh
  rfl

theorem held_of_outline (h : outline t = outline w) : held t = held w := by
  simp only [outline, Prod.mk.injEq] at h
  obtain ⟨⟨hs, ht, hk, hl⟩, -⟩ := h
  exact held_eq hs (handle_ext ht hk hl)

theorem removeSource_eq (s : Scheduler Callback) (id : Option Nat) : removeSource s id = id.elim s (remove s) := by
  cases id <;> rfl

theorem held_disarmTimers (w : World) : held (disarmTimers w false) =
    release (release (release (held w) .timeout) .tick) .settle := by
  refine held_eq ?_ (handle_ext rfl rfl rfl)
  simp only [disarmTimers, removeSource_eq]
  rfl

theorem keeps_added {timer : Timer} {now interval : Nat} {callback : Callback} (hc : kind callback = some timer)
    (hfree : handle w.ctl timer = none) (hs : t.sched = add w.sched now interval callback)
    (hh : handle t.ctl = Function.update (handle w.ctl) timer (some w.sched.fresh)) : KeepsHandles w t := by
  have hheld : held t = register (held w) timer now interval callback := held_eq hs hh
  rw [KeepsHandles, hheld]
  exact keeps_register hfree now interval hc

theorem keeps_disarmTimers (w : World) : KeepsHandles w (disarmTimers w false) := by
  rw [KeepsHandles, held_disarmTimers]
  exact ((keeps_release _ _).trans (keeps_release _ _)).trans (keeps_release _ _)

theorem keeps_armTimeoutAndTicks (w : World) (dt : Time) : KeepsHandles w (armTimeoutAndTicks w dt) := by
  let quiet := (disarmTimers w false).pass dt
  let interval := max 250 ((quiet.ctl.deadline - quiet.clock) / millisecond) * millisecond
  let armed := { quiet with
    sched := add quiet.sched quiet.clock interval (.timeout quiet.ctl.gen)
    ctl := { quiet.ctl with timeoutId := some quiet.sched.fresh } }
  have hquiet : KeepsHandles w quiet := keeps_disarmTimers w
  have harmed : KeepsHandles quiet armed := keeps_added rfl rfl rfl (handle_ext rfl rfl rfl)
  have htick : KeepsHandles armed (armTimeoutAndTicks w dt) := keeps_added rfl rfl rfl (handle_ext rfl rfl rfl)
  exact (hquiet.trans harmed).trans htick

theorem keeps_armSettle (w : World) : KeepsHandles w (armSettle w) := by
  let quiet := { w with
    sched := removeSource w.sched w.ctl.settleId
    ctl := { w.ctl with settleId := none } }
  have hquiet : held quiet = release (held w) .settle := by
    refine held_eq ?_ (handle_ext rfl rfl rfl)
    simp only [quiet, removeSource_eq]
    rfl
  have hsettle : KeepsHandles quiet (armSettle w) := keeps_added rfl rfl rfl (handle_ext rfl rfl rfl)
  refine Keeps.trans ?_ hsettle
  rw [hquiet]
  exact keeps_release _ _

theorem keeps_frame : CancelFrame KeepsHandles where
  trans := Keeps.trans
  same h := keeps_of_eq (held_of_outline h)
  phased w _ _ := .refl (held w)
  reconnects w _ := keeps_add (held w) _ _ rfl
  disarmed := keeps_disarmTimers
  armed := keeps_armTimeoutAndTicks
  settles := keeps_armSettle
  ended w _ _ := keeps_disarmTimers w
  cancelled w := keeps_disarmTimers w

end Frames

section Starting

theorem outline_onConnectionEvent_settling (next : Advance) (ha : w.ctl.active = true)
    (hp : w.ctl.phase = .settling) {result : Result} {error : Option String} (hu : isUp result error = false) :
    outline (onConnectionEvent next w result error) = outline w := by
  cases ht : terminal (normalizeConnectionEvent result error).kind with
  | false => rw [onConnectionEvent_other ha (of_decide_eq_false hu) ht]
  | true =>
      have hc : w.ctl.phase ≠ .connecting := fun hc => CascadePhase.noConfusion (hp.symm.trans hc)
      simp only [onConnectionEvent_terminal ha ht, terminalResponse, if_neg hc]
      split_ifs <;> rfl

theorem outline_deliveries_settling {events : List Delivery} (ha : w.ctl.active = true)
    (hp : w.ctl.phase = .settling) (hu : events.any (fun d => isUp d.result d.error) = false) :
    outline (events.foldl deliverQuiet w) = outline w := by
  induction events generalizing w with
  | nil => rfl
  | cons d events ih =>
      rw [List.any_cons, Bool.or_eq_false_iff] at hu
      have hd : outline (deliverQuiet w d) = outline w :=
        outline_onConnectionEvent_settling (w := w.pass d.after) _ ha hp hu.1
      have hrun : ((deliverQuiet w d).ctl.active, (deliverQuiet w d).ctl.phase) = _ :=
        congrArg (fun o => o.2.1) hd
      obtain ⟨hactive, hphase⟩ := Prod.mk.inj hrun
      exact (ih (hactive.trans ha) (hphase.trans hp) hu.2).trans hd

theorem outline_callDisconnect (ha : w.ctl.active = true) (hp : w.ctl.phase = .settling)
    {reply : Reply Delivery} (hu : comesUp reply = false) :
    outline (callDisconnect w reply) = outline w :=
  outline_deliveries_settling (w := w.record .disconnect) ha hp hu

theorem held_forgetTimeout (w : World) : held (forgetTimeout w) = forget (held w) .timeout :=
  held_eq rfl (handle_ext rfl rfl rfl)

theorem keeps_forgetIf (h : held u = held w) (late : Bool) :
    KeepsHandles (forgetIf late w) (forgetIf late u) := by
  cases late with
  | false => exact keeps_of_eq h
  | true =>
      apply keeps_of_eq
      exact (held_forgetTimeout u).trans ((congrArg (forget · .timeout) h).trans (held_forgetTimeout w).symm)

theorem keeps_tried {late : Bool} {e : TryEnv} (h : held u = held w) (hl : tryLate u e = late) :
    KeepsHandles (forgetIf late w) (tryCurrentServer u e) := by
  have htry := keeps_frame.tryCurrentServer u e
  rw [hl] at htry
  exact (keeps_forgetIf h late).trans htry

theorem tryLate_congr {e : TryEnv} (h : ledger u = ledger w) : tryLate u e = tryLate w e :=
  congrArg (fun l : AttemptLedger.Ledger => l.active && (l.queue[l.index]?).any fun filename =>
    decide (computeAttemptTimeout (l.latencies.lookup filename).join ≤ e.button)) h

theorem keeps_begin (w : World) (queue : List String) (e : StartEnv) :
    KeepsHandles (forgetIf (beginLate w queue e) w) (begin w queue e) := by
  rw [begin, beginLate]
  have hmanager : (loadQueue w queue).win.manager = w.win.manager := rfl
  have hheld : held (loadQueue w queue) = held w := rfl
  have hactive : (loadQueue w queue).ctl.active = true := rfl
  have hlate : tryLate (loadQueue w queue) e.attempt = (queue[0]?).any fun filename =>
    decide (computeAttemptTimeout (w.win.latencies.lookup filename).join ≤ e.attempt.button) := rfl
  generalize loadQueue w queue = loaded at hmanager hheld hactive hlate ⊢
  rw [← hlate, ← hmanager]
  simp only [startsAtOnce]
  cases loaded.win.manager with
  | none => exact keeps_tried hheld rfl
  | some backend =>
      cases e.status.up with
      | false => exact keeps_tried (u := loaded.record (.polled e.status)) hheld rfl
      | true =>
          let waiting := awaitDisconnect (loaded.record (.polled e.status))
          cases e.startWatch with
          | some message => exact keeps_tried (u := waiting) hheld rfl
          | none => 
              have hcalled : KeepsHandles w (callDisconnect waiting e.disconnect) :=
                (keeps_of_eq hheld).trans (keeps_frame.callDisconnect waiting e.disconnect)
              cases e.disconnect.raises with
              | none => exact hcalled.trans (keeps_armSettle _)
              | some message =>
                  have hl := ledger_callDisconnect_settling (w := waiting) hactive
                    (fun hc => CascadePhase.noConfusion hc) e.disconnect
                  cases hu : comesUp e.disconnect with
                  | true =>
                      rw [hu, if_pos rfl] at hl
                      have hi : (callDisconnect waiting e.disconnect).ctl.active = false :=
                        congrArg AttemptLedger.Ledger.active hl
                      have hnone : tryLate (callDisconnect waiting e.disconnect) e.attempt = false := by
                        rw [tryLate, hi, Bool.false_and]
                      have htry := keeps_frame.tryCurrentServer (callDisconnect waiting e.disconnect) e.attempt
                      rw [hnone] at htry
                      exact hcalled.trans htry
                  | false =>
                      rw [hu, if_neg Bool.false_ne_true] at hl
                      have hsame := outline_callDisconnect (w := waiting) hactive rfl hu
                      exact keeps_tried ((held_of_outline hsame).trans hheld) ((tryLate_congr hl).trans rfl)

theorem keeps_startFromVisibleList (w : World) (e : StartEnv) :
    KeepsHandles (forgetIf (listLate w e) w) (startFromVisibleList w e) := by
  rw [startFromVisibleList, listLate]
  cases buildCascadeQueue (candidateScope w) w.win.latencies true maxCascadeCandidates with
  | nil =>
      dsimp only
      split_ifs
      · exact keeps_frame.finishExhausted w
      · exact .refl _
  | cons first rest =>
      dsimp only
      cases (w.win.manager.isSome && e.already.up) && decide (w.win.selected = some first) with
      | true =>
          have hadopt : KeepsHandles w { w with ctl := { w.ctl with current := w.win.selected } } := .refl _
          rw [if_pos rfl]
          split_ifs
          · exact hadopt.trans (keeps_frame.finishSucceeded _)
          · exact .refl _
      | false => exact keeps_begin w (first :: rest) e

theorem keeps_measuring (h : t.ctl = u.ctl ∧ t.sched = u.sched) : KeepsHandles u t :=
  keeps_of_eq (held_eq h.2 (congrArg handle h.1))

theorem keeps_toggle (w : World) (cancelling : DropEnv) (e : StartEnv) :
    KeepsHandles (forgetIf (toggleLate w e) w) (toggle w cancelling e) := by
  rw [toggle, toggleLate, start]
  cases hb : busy w.ctl with
  | true => exact keeps_frame.cancel w cancelling
  | false =>
      have ha : w.ctl.active = false := (Bool.or_eq_false_iff.mp hb).1
      rw [ha]
      cases (candidateScope w).isEmpty with
      | true => exact .refl _
      | false =>
          cases w.win.latencies.isEmpty with
          | false => exact keeps_startFromVisibleList w e
          | true =>
              let shown := showPreparing { w with ctl := { w.ctl with autoCascadeAfterTest := true } }
              have hshown : KeepsHandles w shown := .refl (held w)
              change KeepsHandles w (if w.win.sortBySpeedActive then triggerSpeedTest shown else activateSort shown)
              split_ifs with hsort
              · exact hshown.trans (keeps_measuring (triggerSpeedTest_rest shown))
              · have hactivate : activateSort shown = onSortToggled shown true := if_neg hsort
                rw [hactivate]
                exact hshown.trans (keeps_measuring (onSortToggled_rest shown true))

theorem keeps_startAfterTest (w : World) (e : StartEnv) :
    KeepsHandles (forgetIf (w.ctl.autoCascadeAfterTest && w.ctl.active &&
      decide (w.ctl.phase = .preparing) && listLate w e) w) (startAfterTest w e) := by
  rw [startAfterTest]
  cases w.ctl.autoCascadeAfterTest with
  | false => exact .refl _
  | true =>
      let cleared := { w with ctl := { w.ctl with autoCascadeAfterTest := false } }
      have hclear : KeepsHandles (forgetIf (listLate w e) w) (forgetIf (listLate w e) cleared) :=
        keeps_forgetIf (w := w) (u := cleared) rfl _
      simp only [if_true, Bool.true_and]
      cases w.ctl.active && decide (w.ctl.phase = .preparing) with
      | false => exact .refl _
      | true => exact hclear.trans (keeps_startFromVisibleList cleared e)

/-- A measurement that was cancelled cancels the cascade that waits for it, so that nothing
is left to start after it. -/
theorem complete_stopped (hc : w.win.speedTestCancel = true) (latencies : Latencies) (cancelling : DropEnv)
    (e : StartEnv) : ∃ u, KeepsHandles w u ∧ (u.ctl.autoCascadeAfterTest && u.ctl.active) = false ∧
      onSpeedTestComplete w latencies cancelling e = startAfterTest u e := by
  let stopped := { w with win := { w.win with speedTestRunning := false } }
  have hstopped : KeepsHandles w stopped := .refl (held w)
  cases ha : w.ctl.autoCascadeAfterTest with
  | false =>
      refine ⟨{ stopped with win := { stopped.win with speedTestSensitive := true } }, hstopped, ?_, ?_⟩
      · rw [show stopped.ctl = w.ctl from rfl, ha, Bool.false_and]
      · simp only [onSpeedTestComplete, hc, ha, Bool.not_true, Bool.false_eq_true, if_false, stopped]
  | true =>
      have hbusy : busy stopped.ctl = true := by simp only [busy, stopped, ha, Bool.or_true]
      have hinactive : (cancel stopped cancelling).ctl.active = false := by
        have hl := ledger_cancel stopped cancelling
        rw [hbusy, if_pos rfl] at hl
        exact congrArg AttemptLedger.Ledger.active hl
      refine ⟨{ cancel stopped cancelling with
        win := { (cancel stopped cancelling).win with speedTestSensitive := true } }, ?_, ?_, ?_⟩
      · exact hstopped.trans (keeps_frame.cancel stopped cancelling)
      · rw [hinactive, Bool.and_false]
      · simp only [onSpeedTestComplete, hc, ha, Bool.not_true, Bool.false_eq_true, if_false, if_true, stopped]

theorem keeps_onSpeedTestComplete (w : World) (latencies : Latencies) (cancelling : DropEnv) (e : StartEnv) :
    KeepsHandles (forgetIf (doneLate w latencies e) w) (onSpeedTestComplete w latencies cancelling e) := by
  cases hc : w.win.speedTestCancel with
  | false =>
      let done := { w with win := { w.win with
        speedTestRunning := false, latencies, speedTestSensitive := true } }
      have hdone : onSpeedTestComplete w latencies cancelling e = startAfterTest done e := by
        simp only [onSpeedTestComplete, hc, Bool.not_false, if_true, done]
      have hlate : doneLate w latencies e = (w.ctl.autoCascadeAfterTest && w.ctl.active &&
          decide (w.ctl.phase = .preparing) && listLate done e) := by
        rw [doneLate, hc]
        rfl
      rw [hdone, hlate]
      exact (keeps_forgetIf (w := w) (u := done) rfl _).trans (keeps_startAfterTest done e)
  | true =>
      obtain ⟨u, hu, hidle, hdone⟩ := complete_stopped hc latencies cancelling e
      have hlate : doneLate w latencies e = false := by
        rw [doneLate, hc]
        rfl
      have hafter := keeps_startAfterTest u e
      rw [hidle] at hafter
      rw [hlate, hdone]
      exact hu.trans hafter

end Starting

section Steps

structure Good (w : World) : Prop where
  sound : Sound kind (held w)
  owned : Owned kind none (held w)

theorem Good.keeps (h : Good w) (hk : KeepsHandles w t) : Good t := ⟨hk.sound h.sound, hk.owned none h.owned⟩

theorem Good.ownsSources (h : Good w) : OwnsSources w where
  owned s hs timer hk := h.owned s hs (Option.some_ne_none _) timer hk
  single := length_le_one_of_owned h.sound h.owned
  disarmed s hs := by
    cases hk : kind s.callback with
    | none => rfl
    | some timer =>
        have hnone : handle (disarmTimers w false).ctl timer = none := by cases timer <;> rfl
        have hown := (h.keeps (keeps_disarmTimers w)).owned s hs (Option.some_ne_none _) timer hk
        exact absurd (hnone.symm.trans hown) (Option.some_ne_none _).symm

theorem not_ownsSources {id : Nat} (h : Lost kind id (held t)) : ¬ OwnsSources t :=
  fun ho => h.not_owned fun s hs _ timer hk => ho.owned s hs timer hk

theorem sound_forgetIf (h : Sound kind (held w)) (late : Bool) : Sound kind (held (forgetIf late w)) := by
  cases late with
  | false => exact h
  | true =>
      rw [show forgetIf true w = forgetTimeout w from rfl, held_forgetTimeout]
      exact sound_forget h .timeout

theorem owned_forgetIf {skip : Option Nat} {late : Bool} (h : Owned kind skip (held w))
    (hg : TimeoutRegistered w → late = false) : Owned kind skip (held (forgetIf late w)) := by
  cases late with
  | false => exact h
  | true =>
      rw [show forgetIf true w = forgetTimeout w from rfl, held_forgetTimeout]
      exact h.forget_absent fun s hs _ hk => Bool.noConfusion (hg ⟨s, hs, hk⟩)

theorem lost_forgetTimeout (h : Sound kind (held w)) {s : Source Callback} (hs : s ∈ w.sched.sources)
    (hk : kind s.callback = some .timeout) : Lost kind s.id (held (forgetTimeout w)) := by
  rw [held_forgetTimeout]
  exact lost_forget h hs hk

theorem keeps_outside {a : MainWindow.Action} (hf : ∀ id after e, a ≠ .fire id after e)
    (ht : step w a = some t) : KeepsHandles (forgetIf (callsTimeout w a) w) t := by
  have hpass (late : Bool) (after : Time) : KeepsHandles (forgetIf late w) (forgetIf late (w.pass after)) :=
    keeps_forgetIf (w := w) (u := w.pass after) rfl late
  cases a with
  | backend | load | filter | select | autoReconnect =>
      obtain rfl := Option.some.inj ht
      exact .refl (held w)
  | fastest after cancelling e =>
      obtain rfl := Option.some.inj ht
      exact (hpass _ after).trans (keeps_toggle (w.pass after) cancelling e)
  | cancelCascade after e =>
      obtain rfl := Option.some.inj ht
      exact (hpass false after).trans (keeps_frame.cancel _ e)
  | connectClick after e =>
      obtain rfl := Option.some.inj ht
      exact (hpass false after).trans (keeps_frame.signalsConnect _ e)
  | speedTestClick =>
      obtain rfl := Option.some.inj ht
      exact keeps_measuring (triggerSpeedTest_rest w)
  | sortClick on =>
      obtain rfl := Option.some.inj ht
      exact keeps_measuring (onSortToggled_rest w on)
  | speedTestDone after latencies cancelling e =>
      simp only [step] at ht
      split at ht
      · obtain rfl := Option.some.inj ht
        exact (hpass _ after).trans (keeps_onSpeedTestComplete (w.pass after) latencies cancelling e)
      · cases ht
  | event after result error e =>
      obtain rfl := Option.some.inj ht
      have hnext := keeps_frame.onConnectionEvent (keeps_frame.advance e (w.pass after)) result error
      exact (hpass false after).trans hnext
  | fire id after e => exact absurd rfl (hf id after e)

def forgetSettle (w : World) : World := { w with ctl := { w.ctl with settleId := none } }

theorem held_forgetSettle (w : World) : held (forgetSettle w) = forget (held w) .settle :=
  held_eq rfl (handle_ext rfl rfl rfl)

theorem keeps_onSettle (w : World) (gen : Nat) (e : TryEnv) :
    KeepsHandles (forgetIf (decide (gen = w.ctl.gen) && tryLate w e) (forgetSettle w)) (onSettle w gen e) := by
  by_cases hrun : (w.ctl.active && decide (gen = w.ctl.gen)) = true
  · have hsettle : onSettle w gen e = tryCurrentServer (forgetSettle w) e := if_pos hrun
    rw [hsettle, (Bool.and_eq_true_iff.mp hrun).2, Bool.true_and]
    exact keeps_frame.tryCurrentServer (forgetSettle w) e
  · have hsettle : onSettle w gen e = forgetSettle w := if_neg hrun
    have hlate : (decide (gen = w.ctl.gen) && tryLate w e) = false := by
      rw [tryLate, ← Bool.and_assoc, Bool.and_comm _ w.ctl.active, Bool.eq_false_iff.mpr hrun, Bool.false_and]
    rw [hsettle, hlate]
    exact .refl _

theorem id_ne_of_kind (h : Sound kind (held w)) {r s : Source Callback} (hr : r ∈ w.sched.sources)
    (hs : s ∈ w.sched.sources) (hk : kind r.callback ≠ kind s.callback) : r.id ≠ s.id := by
  intro hid
  have hsame := List.inj_on_of_nodup_map h.distinct hr hs hid
  exact hk (hsame ▸ rfl)

theorem good_fire (h : Good w) {source : Source Callback} (hs : source ∈ w.sched.sources) {e : FireEnv}
    (hg : TimeoutRegistered w → fireLate w e source.callback = false) : Good (fire w source e) := by
  rw [fire]
  cases hc : source.callback with
  | timeout gen =>
      have hk := keeps_frame.onTimeout w gen e.timeout
      rw [KeepsHandles, held_forgetTimeout] at hk
      have hown := hk.owned _ (h.owned.forget_own hs (i := .timeout) (by rw [hc]; rfl))
      exact ⟨sound_drop (hk.sound (sound_forget h.sound .timeout)) source.id, hown.dropped⟩
  | tick gen =>
      rw [hc] at hg
      have hk := keeps_frame.onTick w gen e.tick
      have hticked : Good (onTick w gen e.tick).1 :=
        ⟨hk.sound (sound_forgetIf h.sound _), hk.owned none (owned_forgetIf h.owned hg)⟩
      dsimp only
      split
      · exact hticked.keeps (keeps_rearm _ source.id w.clock)
      · exact ⟨sound_drop hticked.sound source.id, hticked.owned.drop source.id⟩
  | settle gen =>
      rw [hc] at hg
      have hk := keeps_onSettle w gen e.attempt
      have hsound : Sound kind (held (forgetSettle w)) := held_forgetSettle w ▸ sound_forget h.sound .settle
      have hown : Owned kind (some source.id) (held (forgetSettle w)) :=
        held_forgetSettle w ▸ h.owned.forget_own hs (by rw [hc]; rfl)
      have hsettled := hk.owned _ (owned_forgetIf hown hg)
      exact ⟨sound_drop (hk.sound (sound_forgetIf hsound _)) source.id, hsettled.dropped⟩
  | reconnect lost =>
      have hreconnected : Good (triggerReconnect w e.connect) := h.keeps (keeps_frame.triggerReconnect w e.connect)
      exact ⟨sound_drop hreconnected.sound source.id, hreconnected.owned.drop source.id⟩

/-- A timeout source whose handle is cleared by another callback stays behind. -/
theorem lost_fire (h : Good w) {source : Source Callback} (hs : source ∈ w.sched.sources) {e : FireEnv}
    (hr : TimeoutRegistered w) (hl : fireLate w e source.callback = true) :
    ∃ id, Lost kind id (held (fire w source e)) := by
  obtain ⟨s, hm, hk⟩ := hr
  refine ⟨s.id, ?_⟩
  rw [fire]
  cases hc : source.callback with
  | timeout | reconnect =>
      rw [hc] at hl
      cases hl
  | tick gen =>
      rw [hc] at hl
      have hother : kind s.callback ≠ kind source.callback := by
        rw [hk, hc]
        intro h
        cases h
      have hne : s.id ≠ source.id := id_ne_of_kind h.sound hm hs hother
      have hticked := keeps_frame.onTick w gen e.tick
      rw [show tickLate w gen e.tick = true from hl] at hticked
      have hlost := hticked.lost s.id (lost_forgetTimeout h.sound hm hk)
      dsimp only
      split
      · exact (keeps_rearm _ source.id w.clock).lost s.id hlost
      · exact hlost.drop hne
  | settle gen =>
      rw [hc] at hl
      have hother : kind s.callback ≠ kind source.callback := by
        rw [hk, hc]
        intro h
        cases h
      have hne : s.id ≠ source.id := id_ne_of_kind h.sound hm hs hother
      have hsound : Sound kind (held (forgetSettle w)) := held_forgetSettle w ▸ sound_forget h.sound .settle
      have hsettled := keeps_onSettle w gen e.attempt
      rw [show (decide (gen = w.ctl.gen) && tryLate w e.attempt) = true from hl] at hsettled
      exact (hsettled.lost s.id (lost_forgetTimeout (w := forgetSettle w) hsound hm hk)).drop hne

theorem good_step (h : Good w) {a : MainWindow.Action} (hg : Guarded w a) (ht : step w a = some t) :
    Good t := by
  by_cases hf : ∃ id after e, a = .fire id after e
  · obtain ⟨id, after, e, rfl⟩ := hf
    obtain ⟨source, hs, rfl⟩ := Option.map_eq_some_iff.mp ht
    refine good_fire (w := w.pass after) (h.keeps (.refl _)) (of_due? hs).1 fun hr => ?_
    have hlate := hg hr
    rwa [callsTimeout, hs, Option.any_some] at hlate
  · have hk := keeps_outside (fun id after e he => hf ⟨id, after, e, he⟩) ht
    exact ⟨hk.sound (sound_forgetIf h.sound _), hk.owned none (owned_forgetIf h.owned hg)⟩

theorem guarded_of_ownsSources (h : Good w) {a : MainWindow.Action} (ht : step w a = some t)
    (ho : OwnsSources t) : Guarded w a := by
  intro hr
  by_contra hl
  rw [Bool.not_eq_false] at hl
  by_cases hf : ∃ id after e, a = .fire id after e
  · obtain ⟨id, after, e, rfl⟩ := hf
    obtain ⟨source, hs, rfl⟩ := Option.map_eq_some_iff.mp ht
    rw [callsTimeout, hs, Option.any_some] at hl
    obtain ⟨lost, hlost⟩ := lost_fire (w := w.pass after) (h.keeps (.refl _)) (of_due? hs).1 hr hl
    exact not_ownsSources hlost ho
  · have hk := keeps_outside (fun id after e he => hf ⟨id, after, e, he⟩) ht
    rw [hl] at hk
    obtain ⟨s, hm, hkind⟩ := hr
    exact not_ownsSources (hk.lost s.id (lost_forgetTimeout h.sound hm hkind)) ho

theorem initial_good : Good initial where
  sound := {
    below := fun _ hs => by cases hs
    distinct := List.nodup_nil
    handed := fun timer id hid => by cases timer <;> cases hid
    own := fun _ _ hs => by cases hs }
  owned _ hs := by cases hs

end Steps

/-- The handles own the sources throughout a run exactly when `_on_timeout` is never called
by another way than its own source while a handshake-timeout source is registered. -/
theorem owns_sources_iff (actions : List MainWindow.Action) :
    AllStates step OwnsSources initial actions ↔ AllSteps step Guarded initial actions :=
  allStates_iff_allSteps (I := Good) (fun _ h => h.ownsSources)
    (fun _ _ _ h ht hg => good_step h hg ht) (fun _ _ _ h ht ho => guarded_of_ownsSources h ht ho)
    actions initial_good

/-- The first candidate's deadline has passed when a tick is dispatched before the timeout. -/
def tickFirst : List MainWindow.Action :=
  [.backend (some .networkManager), .load ["a.ovpn", "b.ovpn"], .speedTestClick,
    .speedTestDone 0 [("a.ovpn", none)] {} {}, .fastest 0 {} {}, .fire 2 (30 * second) {}]

theorem tickFirst_sources :
    (run step initial tickFirst).map (fun t => (t.sched.sources.map fun s => (s.id, s.callback),
        t.ctl.timeoutId, t.ctl.tickId, t.ctl.settleId)) =
      some ([(1, .timeout 1), (3, .settle 1)], none, none, some 3) := by
  decide

theorem timeout_left_registered : ¬ ∀ actions, AllStates step OwnsSources initial actions := by
  intro h
  obtain ⟨t, ht, he⟩ := Option.map_eq_some_iff.mp tickFirst_sources
  obtain ⟨hsources, htimeout, -⟩ : t.sched.sources.map (fun s => (s.id, s.callback)) = _ ∧
      t.ctl.timeoutId = none ∧ _ := by simpa only [Prod.mk.injEq] using he
  have hm : (1, Callback.timeout 1) ∈ t.sched.sources.map fun s => (s.id, s.callback) :=
    hsources ▸ List.mem_cons_self
  obtain ⟨s, hs, heq⟩ := List.mem_map.mp hm
  obtain ⟨-, hc⟩ := Prod.mk.inj heq
  have hown := ((h tickFirst).last ht).owned s hs .timeout (by rw [hc]; rfl)
  exact absurd (htimeout.symm.trans hown) (Option.some_ne_none _).symm

end EovpnPro.TimerHandles
