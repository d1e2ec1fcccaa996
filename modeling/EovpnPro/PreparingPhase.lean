import EovpnPro.FinishedRuns
import EovpnPro.MeasurementFrame

namespace EovpnPro.PreparingPhase

open AutoConnect Events Sources AppState WindowEvents CascadeController MainWindow
open CascadeMoves MeasurementFrame FinishedRuns Runs

/-- The main window with, for the statements only, whether it was the user who
cancelled the measurement in progress. -/
structure Observed where
  world : World := initial
  byUser : Bool := false

def presses : Action → Bool
  | .speedTestClick => true
  | _ => false

/-- The test button cancels the measurement that is running; a new measurement has not
been cancelled by anyone. -/
def cancelledByUser (s : Observed) (a : Action) (t : World) : Bool :=
  if t.win.speedTestRunning && !s.world.win.speedTestRunning then false
  else s.byUser || (presses a && s.world.win.speedTestRunning && !s.world.win.speedTestCancel)

def step (s : Observed) (a : Action) : Option Observed :=
  (MainWindow.step s.world a).map (fun t => ⟨t, cancelledByUser s a t⟩)

def measured (w : World) (latencies : Latencies) : World :=
  { w with
    ctl := { w.ctl with autoCascadeAfterTest := false }
    win := { w.win with speedTestRunning := false, latencies, speedTestSensitive := true } }

def Continues (w : World) : Prop :=
  ∀ after latencies cancelling e, MainWindow.step w (.speedTestDone after latencies cancelling e) =
    some (startFromVisibleList (measured (w.pass after) latencies) e)

/-- The completion of the measurement, a connection event, and what the user cancels
a cascade with. -/
def leaves : Action → Bool
  | .speedTestDone .. | .event .. | .fastest .. | .cancelCascade .. | .connectClick .. => true
  | _ => false

/-- A step that does what `PREPARING` is for. -/
structure Faithful (s : Observed) (a : Action) (t : Observed) : Prop where
  spared : ¬ Waiting s.world → Waiting t.world → s.world.win.speedTestRunning = true →
    t.world.win.speedTestCancel = s.world.win.speedTestCancel
  measuring : ¬ Waiting s.world → Waiting t.world →
    t.world.win.speedTestRunning = true ∧ t.world.win.speedTestCancel = false
  continued : Waiting t.world → t.byUser = false → Continues t.world
  left : Waiting s.world → ¬ Waiting t.world → leaves a = true

/-- `start` is going to wait for a measurement. -/
def Prepares (w : World) : Prop :=
  busy w.ctl = false ∧ (candidateScope w).isEmpty = false ∧ w.win.latencies.isEmpty = true

def Harmless (w : World) : Prop :=
  w.win.manager.isNone = true ∨ ∀ selected ∈ w.win.selected, selected = ""

/-- The cascade is not started during a measurement, nobody turns Sort on while the
cascade waits, and a reconnect that comes due then is harmless. -/
def Undisturbed (w : World) : Action → Prop
  | .fastest .. => Prepares w → w.win.speedTestRunning = false
  | .sortClick on => Waiting w → on = true → w.win.latencies.isEmpty = true → w.win.speedTestCancel = true
  | .fire id after _ => Waiting w → ∀ source lost, due? w.sched id (w.clock + after) = some source →
      source.callback = .reconnect lost → Harmless w
  | _ => True

variable {w t : World}

theorem not_waiting (ha : w.ctl.active = false) : ¬ Waiting w :=
  fun hw => Bool.noConfusion (hw.1.symm.trans ha)

theorem busy_of_waiting (hw : Waiting w) : busy w.ctl = true := by
  rw [busy, hw.1]
  rfl

theorem not_waiting_cancel (hb : busy w.ctl = true) (e : DropEnv) : ¬ Waiting (cancel w e) :=
  not_waiting (cancelled_of_busy hb e).1

theorem not_waiting_startFromVisibleList (w : World) (e : StartEnv) :
    ¬ Waiting (startFromVisibleList w e) := by
  rw [startFromVisibleList]
  split
  · split_ifs with ha
    · exact not_waiting (congrArg AttemptLedger.Ledger.active (CascadeLedger.ledger_finishExhausted w))
    · exact not_waiting (Bool.eq_false_iff.mpr ha)
  · split_ifs with hup ha
    · exact not_waiting (congrArg AttemptLedger.Ledger.active (CascadeLedger.ledger_finishSucceeded _))
    · exact not_waiting (Bool.eq_false_iff.mpr ha)
    · intro hw
      exact CascadePhase.noConfusion ((spares_loaded w _ e).waiting hw).2

theorem not_waiting_startAfterTest (h : Waiting w → w.ctl.autoCascadeAfterTest = true) (e : StartEnv) :
    ¬ Waiting (startAfterTest w e) := by
  rw [startAfterTest]
  dsimp only
  split_ifs with hauto hprepare
  · exact not_waiting_startFromVisibleList _ e
  · intro hw
    refine hprepare ?_
    rw [hw.1, hw.2]
    rfl
  · exact fun hw => hauto (h hw)

theorem complete_eq (h : Waiting w → w.ctl.autoCascadeAfterTest = true) (latencies : Latencies)
    (cancelling : DropEnv) (e : StartEnv) :
    ∃ u, onSpeedTestComplete w latencies cancelling e = startAfterTest u e ∧
      u.win.speedTestRunning = false ∧ u.win.speedTestSensitive = true ∧
      (Waiting u → u.ctl.autoCascadeAfterTest = true) := by
  refine ⟨_, rfl, ?_, rfl, ?_⟩
  · dsimp only
    split_ifs
    · rfl
    · exact (keeps_frame.cancel _ cancelling).running
    · rfl
  · dsimp only
    split_ifs with hcancel hauto
    · exact h
    · intro hw
      have hbusy : busy { w with win := { w.win with speedTestRunning := false } }.ctl = true := by
        simp only [busy, hauto, Bool.or_true]
      exact absurd hw (not_waiting_cancel hbusy _)
    · exact h

theorem startAfterTest_inactive (ha : w.ctl.active = false) (e : StartEnv) :
    (startAfterTest w e).ctl.phase = w.ctl.phase := by
  rw [startAfterTest]
  dsimp only
  rw [ha]
  split_ifs with _ hp
  · exact absurd hp Bool.false_ne_true
  · rfl
  · rfl

theorem complete_cancelled (hw : Waiting w) (hauto : w.ctl.autoCascadeAfterTest = true)
    (hc : w.win.speedTestCancel = true) (latencies : Latencies) (cancelling : DropEnv) (e : StartEnv) :
    (onSpeedTestComplete w latencies cancelling e).ctl.phase = .cancelled := by
  have hon : ¬ (!w.win.speedTestCancel) = true := by rw [hc]; exact Bool.false_ne_true
  have hstopped : busy { w with win := { w.win with speedTestRunning := false } }.ctl = true :=
    busy_of_waiting hw
  obtain ⟨ha, hp⟩ := cancelled_of_busy hstopped cancelling
  rw [onSpeedTestComplete]
  dsimp only
  rw [if_neg hon, if_pos hauto]
  refine (startAfterTest_inactive ?_ e).trans ?_
  · exact ha
  · exact hp

theorem complete_measured (hw : Waiting w) (hauto : w.ctl.autoCascadeAfterTest = true)
    (hc : w.win.speedTestCancel = false) (latencies : Latencies) (cancelling : DropEnv) (e : StartEnv) :
    onSpeedTestComplete w latencies cancelling e = startFromVisibleList (measured w latencies) e := by
  have hoff : (!w.win.speedTestCancel) = true := by rw [hc]; rfl
  have hprepare : (w.ctl.active && decide (w.ctl.phase = .preparing)) = true := by
    rw [hw.1, hw.2]
    rfl
  rw [onSpeedTestComplete]
  dsimp only
  rw [if_pos hoff, startAfterTest]
  dsimp only
  rw [if_pos hauto, if_pos hprepare]
  rfl

theorem continues_iff (hw : Waiting w) (hr : w.win.speedTestRunning = true)
    (hauto : w.ctl.autoCascadeAfterTest = true) : Continues w ↔ w.win.speedTestCancel = false := by
  constructor
  · intro h
    by_contra hcancel
    rw [Bool.not_eq_false] at hcancel
    have hdone := h 0 [] {} {}
    rw [MainWindow.step, if_pos hr, Option.some.injEq] at hdone
    have hphase := complete_cancelled (w := w.pass 0) hw hauto hcancel [] {} {}
    rw [hdone] at hphase
    have hpreparing : w.ctl.phase = .cancelled :=
      (spares_startFromVisibleList (measured (w.pass 0) []) {}).phase hphase
    exact CascadePhase.noConfusion (hw.2.symm.trans hpreparing)
  · intro hcancel after latencies cancelling e
    rw [MainWindow.step, if_pos hr, complete_measured (w := w.pass after) hw hauto hcancel]

def preparing (w : World) : World :=
  { showPreparing { w with ctl := { w.ctl with autoCascadeAfterTest := true } } with
    win := { w.win with sortBySpeedActive := true } }

theorem sort_presses {on : Bool} (hon : on = true) (hl : w.win.latencies.isEmpty = true) :
    onSortToggled w on = triggerSpeedTest { w with win := { w.win with sortBySpeedActive := on } } := by
  have hpress : (on && w.win.latencies.isEmpty) = true := by rw [hon, hl]; rfl
  rw [onSortToggled]
  dsimp only
  rw [if_pos hpress]

theorem ask_eq (hl : w.win.latencies.isEmpty = true) :
    (if w.win.sortBySpeedActive then triggerSpeedTest w else activateSort w) =
      triggerSpeedTest { w with win := { w.win with sortBySpeedActive := true } } := by
  cases hsort : w.win.sortBySpeedActive with
  | true =>
      have hsame : { w with win := { w.win with sortBySpeedActive := true } } = w := by rw [← hsort]
      rw [if_pos rfl, hsame]
  | false =>
      rw [if_neg Bool.false_ne_true, activateSort, if_neg (Bool.eq_false_iff.mp hsort), sort_presses rfl hl]

theorem start_prepares (h : Prepares w) (e : StartEnv) : start w e = triggerSpeedTest (preparing w) := by
  obtain ⟨hbusy, hscope, hlatencies⟩ := h
  have ha : w.ctl.active = false := (Bool.or_eq_false_iff.mp hbusy).1
  rw [start, if_neg (Bool.eq_false_iff.mp ha), if_neg (Bool.eq_false_iff.mp hscope), if_pos hlatencies]
  exact ask_eq hlatencies

theorem toggle_prepares (h : Prepares w) (cancelling : DropEnv) (e : StartEnv) :
    toggle w cancelling e = start w e := by
  rw [toggle, if_neg (Bool.eq_false_iff.mp h.1)]

theorem keeps_start (hbusy : busy w.ctl = false) (h : ¬ Prepares w) (e : StartEnv) :
    Keeps w (start w e) := by
  rw [start]
  split_ifs with ha hscope hlatencies
  · exact (Spares.refl w).toKeeps
  · exact (Spares.refl w).toKeeps
  · exact absurd ⟨hbusy, Bool.eq_false_iff.mpr hscope, hlatencies⟩ h
  · exact (spares_startFromVisibleList w e).toKeeps

def Touches (w : World) : Action → Prop
  | .fastest .. => Prepares w
  | .speedTestClick | .sortClick _ | .speedTestDone .. => True
  | _ => False

theorem keeps_step {a : Action} (hn : ¬ Touches w a) (ht : MainWindow.step w a = some t) : Keeps w t := by
  cases a with
  | backend | load | filter | select | autoReconnect =>
      obtain rfl := Option.some.inj ht
      exact keeps_of_same rfl rfl rfl
  | fastest after cancelling e =>
      obtain rfl := Option.some.inj ht
      have hpass := (spares_frame.pass w after).toKeeps
      cases hb : busy (w.pass after).ctl with
      | true =>
          rw [toggle, if_pos hb]
          exact hpass.trans (keeps_frame.cancel _ cancelling)
      | false =>
          rw [toggle, if_neg (Bool.eq_false_iff.mp hb)]
          exact hpass.trans (keeps_start (w := w.pass after) hb hn e)
  | cancelCascade after e =>
      obtain rfl := Option.some.inj ht
      exact (spares_frame.pass w after).toKeeps.trans (keeps_frame.cancel _ e)
  | connectClick after e =>
      obtain rfl := Option.some.inj ht
      exact (spares_frame.pass w after).toKeeps.trans (keeps_frame.signalsConnect _ e)
  | speedTestClick | sortClick | speedTestDone => exact absurd trivial hn
  | event after result error e =>
      obtain rfl := Option.some.inj ht
      have hevent := spares_frame.onConnectionEvent (spares_frame.advance e (w.pass after)) result error
      exact ((spares_frame.pass w after).trans hevent).toKeeps
  | fire id after e =>
      obtain ⟨source, -, rfl⟩ := Option.map_eq_some_iff.mp ht
      exact (spares_frame.pass w after).toKeeps.trans (keeps_fire _ source e)

structure Idles (w t : World) : Prop where
  gen : t.ctl.gen = w.ctl.gen
  auto : t.ctl.autoCascadeAfterTest = w.ctl.autoCascadeAfterTest
  sources : t.sched.sources ⊆ w.sched.sources

theorem idles_of_same (hc : t.ctl = w.ctl) (hs : t.sched = w.sched) : Idles w t := by
  refine ⟨congrArg Controller.gen hc, congrArg Controller.autoCascadeAfterTest hc, ?_⟩
  rw [hs]
  exact List.Subset.refl _

theorem waiting_signalsConnect (hw : Waiting w) (e : ConnectEnv) :
    signalsConnect w e = if w.win.manager.isNone then w else cancel w e.cancel := by
  by_cases hm : w.win.manager.isNone = true
  · rw [signalsConnect, if_pos hm, if_pos hm]
  · rw [signalsConnect, if_neg hm, if_pos hw.1, if_neg hm]

theorem waiting_event (hw : Waiting w) (next : Advance) (result : Result) (error : Option String) :
    onConnectionEvent next w result error = w ∨ ¬ Waiting (onConnectionEvent next w result error) := by
  by_cases hk : (normalizeConnectionEvent result error).kind = .connected
  · rw [onConnectionEvent_connected hw.1 hk]
    exact .inr (not_waiting (congrArg AttemptLedger.Ledger.active (CascadeLedger.ledger_finishSucceeded _)))
  · refine .inl ?_
    cases ht : terminal (normalizeConnectionEvent result error).kind with
    | false => exact onConnectionEvent_other hw.1 hk ht next
    | true =>
        have hsettling : ¬ (w.ctl.phase = .settling ∧ w.ctl.expectDisconnect = true) :=
          fun h => CascadePhase.noConfusion (hw.2.symm.trans h.1)
        have hconnecting : ¬ w.ctl.phase = .connecting :=
          fun h => CascadePhase.noConfusion (hw.2.symm.trans h)
        rw [onConnectionEvent_terminal hw.1 ht, terminalResponse, if_neg hsettling, if_neg hconnecting]

def Stale (w : World) : Prop :=
  ∀ s ∈ w.sched.sources, ∀ gen, madeIn s.callback = some gen → gen < w.ctl.gen

theorem idles_spent (w : World) (source : Source Callback) : Idles w (spent w source) := by
  have hsub : (remove w.sched source.id).sources ⊆ w.sched.sources := List.filter_subset_self _
  rw [spent]
  dsimp only
  cases source.callback with
  | timeout | settle | tick | reconnect => exact ⟨rfl, rfl, hsub⟩

theorem harmless_triggerReconnect (hw : Waiting w) (h : Harmless w) (e : ConnectEnv) :
    triggerReconnect w e = w := by
  rw [triggerReconnect]
  split
  · rfl
  · next selected hs =>
      split_ifs with hne
      · rfl
      · rcases h with hm | hnone
        · rw [waiting_signalsConnect hw, if_pos hm]
        · exact absurd (hnone selected hs) hne

theorem harmful_triggerReconnect (hw : Waiting w) (h : ¬ Harmless w) (e : ConnectEnv) :
    triggerReconnect w e = cancel w e.cancel := by
  rw [Harmless, not_or, not_forall] at h
  obtain ⟨hm, selected, hs⟩ := h
  rw [Classical.not_imp] at hs
  rw [triggerReconnect, hs.1]
  dsimp only
  rw [if_neg hs.2, waiting_signalsConnect hw, if_neg hm]

theorem stale_fire (hs : Stale w) {source : Source Callback} (hsource : source ∈ w.sched.sources)
    (hr : ∀ lost, source.callback ≠ .reconnect lost) (e : FireEnv) : fire w source e = spent w source := by
  cases hc : source.callback with
  | timeout gen | tick gen | settle gen =>
      have hm : madeIn source.callback = some gen := by rw [hc]; rfl
      exact fire_stale hm (fun _ => Nat.ne_of_lt (hs source hsource gen hm)) e
  | reconnect lost => exact absurd hc (hr lost)

theorem harmful_fire (hw : Waiting w) (h : ¬ Harmless w) {source : Source Callback} {lost : Option String}
    (hc : source.callback = .reconnect lost) (e : FireEnv) : ¬ Waiting (fire w source e) := by
  rw [fire, hc]
  dsimp only
  rw [harmful_triggerReconnect hw h]
  exact not_waiting_cancel (busy_of_waiting hw) e.connect.cancel

theorem waiting_fire (hw : Waiting w) (hs : Stale w) {source : Source Callback}
    (hsource : source ∈ w.sched.sources) (hr : ∀ lost, source.callback = .reconnect lost → Harmless w)
    (e : FireEnv) : Idles w (fire w source e) ∧ Waiting (fire w source e) := by
  by_cases hcallback : ∃ lost, source.callback = .reconnect lost
  · obtain ⟨lost, hc⟩ := hcallback
    rw [fire, hc]
    dsimp only
    rw [harmless_triggerReconnect hw (hr lost hc)]
    exact ⟨⟨rfl, rfl, List.filter_subset_self _⟩, hw⟩
  · rw [stale_fire hs hsource (fun lost hc => hcallback ⟨lost, hc⟩)]
    refine ⟨idles_spent w source, ?_⟩
    rw [spent]
    dsimp only
    cases source.callback with
    | timeout | settle | tick | reconnect => exact hw

def Usable (w : World) : Prop :=
  w.win.speedTestSensitive = true ∨ w.win.speedTestRunning = true ∨ w.ctl.active = true

theorem Usable.keep (h : Usable w) (hk : Keeps w t) : Usable t := by
  rcases hk.usable with hs | ha | ⟨hs, ha⟩
  · exact .inl hs
  · exact .inr (.inr ha)
  · rw [Usable, hs, ha, hk.running]
    exact h

theorem Usable.trigger (h : Usable w) : Usable (triggerSpeedTest w) := by
  rw [triggerSpeedTest]
  split_ifs with hr hs
  · exact .inr (.inl hr)
  · exact .inr (.inl rfl)
  · exact h

/-- What holds of every reachable state: a cascade that waits has its measurement
running, and the sources of earlier runs only. -/
structure Prepared (w : World) : Prop extends Reached w where
  usable : Usable w
  measuring : Waiting w → w.win.speedTestRunning = true
  auto : Waiting w → w.ctl.autoCascadeAfterTest = true
  stale : Waiting w → Stale w

theorem Prepared.done (h : Prepared w) {after : Time} {latencies : Latencies} {cancelling : DropEnv}
    {e : StartEnv} (ht : MainWindow.step w (.speedTestDone after latencies cancelling e) = some t) :
    t.win.speedTestRunning = false ∧ Usable t ∧ ¬ Waiting t := by
  simp only [MainWindow.step] at ht
  split_ifs at ht
  obtain rfl := Option.some.inj ht
  obtain ⟨u, heq, hr, hs, hauto⟩ := complete_eq (w := w.pass after) h.auto latencies cancelling e
  have hspared := spares_startAfterTest u e
  rw [heq]
  exact ⟨hspared.running.trans hr, Usable.keep (w := u) (.inl hs) hspared.toKeeps,
    not_waiting_startAfterTest hauto e⟩

theorem idles_step (h : Prepared w) {a : Action} (hw : Waiting w) (ht : MainWindow.step w a = some t)
    (hwt : Waiting t) : Idles w t := by
  cases a with
  | backend | load | filter | select | autoReconnect =>
      obtain rfl := Option.some.inj ht
      exact idles_of_same rfl rfl
  | fastest after cancelling e =>
      obtain rfl := Option.some.inj ht
      have hb : busy (w.pass after).ctl = true := busy_of_waiting hw
      rw [toggle, if_pos hb] at hwt
      exact absurd hwt (not_waiting_cancel hb cancelling)
  | cancelCascade after e =>
      obtain rfl := Option.some.inj ht
      exact absurd hwt (not_waiting_cancel (w := w.pass after) (busy_of_waiting hw) e)
  | connectClick after e =>
      obtain rfl := Option.some.inj ht
      rw [waiting_signalsConnect (w := w.pass after) hw] at hwt ⊢
      split_ifs at hwt ⊢
      · exact idles_of_same rfl rfl
      · exact absurd hwt (not_waiting_cancel (w := w.pass after) (busy_of_waiting hw) e.cancel)
  | speedTestClick =>
      obtain rfl := Option.some.inj ht
      obtain ⟨hc, hs⟩ := triggerSpeedTest_rest w
      exact idles_of_same hc hs
  | sortClick on =>
      obtain rfl := Option.some.inj ht
      obtain ⟨hc, hs⟩ := onSortToggled_rest w on
      exact idles_of_same hc hs
  | speedTestDone => exact absurd hwt (h.done ht).2.2
  | event after result error e =>
      obtain rfl := Option.some.inj ht
      rcases waiting_event (w := w.pass after) hw (advance e) result error with heq | hn
      · rw [heq]
        exact idles_of_same rfl rfl
      · exact absurd hwt hn
  | fire id after e =>
      obtain ⟨source, hs, rfl⟩ := Option.map_eq_some_iff.mp ht
      obtain ⟨hsource, -⟩ := of_due? hs
      have hr : ∀ lost, source.callback = .reconnect lost → Harmless (w.pass after) := by
        intro lost hc
        by_contra hh
        exact harmful_fire (w := w.pass after) hw hh hc e hwt
      obtain ⟨hi, -⟩ := waiting_fire (w := w.pass after) hw (h.stale hw) hsource hr e
      exact ⟨hi.gen, hi.auto, hi.sources⟩

theorem Usable.free (h : Usable w) (hp : Prepares w) :
    w.win.speedTestRunning = true ∨ w.win.speedTestSensitive = true := by
  have ha : w.ctl.active = false := (Bool.or_eq_false_iff.mp hp.1).1
  rcases h with hs | hr | hactive
  · exact .inr hs
  · exact .inl hr
  · exact Bool.noConfusion (hactive.symm.trans ha)

theorem start_flags (h : Usable w) (hp : Prepares w) (e : StartEnv) :
    (start w e).win.speedTestRunning = true ∧
      (start w e).win.speedTestCancel = w.win.speedTestRunning := by
  rw [start_prepares hp e]
  cases hr : w.win.speedTestRunning with
  | true => exact trigger_running (w := preparing w) hr
  | false =>
      have hs := (h.free hp).resolve_left (Bool.eq_false_iff.mp hr)
      exact trigger_idle (w := preparing w) hr hs

theorem start_waits (hp : Prepares w) (e : StartEnv) :
    Waiting (start w e) ∧ (start w e).ctl.autoCascadeAfterTest = true ∧
      (start w e).ctl.gen = w.ctl.gen + 1 ∧ (start w e).sched = w.sched := by
  rw [start_prepares hp e]
  obtain ⟨hc, hs⟩ := triggerSpeedTest_rest (preparing w)
  rw [Waiting, hc, hs]
  exact ⟨⟨rfl, rfl⟩, rfl, rfl, rfl⟩

theorem begins_waiting (h : Prepared w) {a : Action} (ht : MainWindow.step w a = some t) (hw : ¬ Waiting w)
    (hwt : Waiting t) :
    ∃ after cancelling e, a = .fastest after cancelling e ∧ Prepares w ∧ t = start (w.pass after) e := by
  by_cases hn : Touches w a
  · cases a with
    | fastest after cancelling e =>
        obtain rfl := Option.some.inj ht
        exact ⟨after, cancelling, e, rfl, hn, toggle_prepares (w := w.pass after) hn cancelling e⟩
    | speedTestClick =>
        obtain rfl := Option.some.inj ht
        rw [Waiting, (triggerSpeedTest_rest w).1] at hwt
        exact absurd hwt hw
    | sortClick on =>
        obtain rfl := Option.some.inj ht
        rw [Waiting, (onSortToggled_rest w on).1] at hwt
        exact absurd hwt hw
    | speedTestDone => exact absurd hwt (h.done ht).2.2
    | backend | load | filter | select | autoReconnect | cancelCascade | connectClick | event | fire =>
        exact hn.elim
  · exact absurd ((keeps_step hn ht).waiting hwt) hw

/-- What a step can do to the measurement: leave it alone, press the test button, or
complete it. -/
inductive Measures (w : World) : World → Prop
  | other {t : World} (hk : Keeps w t) : Measures w t
  | pressed (u : World) (hf : flags u = flags w) (ha : w.ctl.active = true → u.ctl.active = true) :
      Measures w (triggerSpeedTest u)
  | completed {t : World} (hr : t.win.speedTestRunning = false) (hu : Usable t) (hw : ¬ Waiting t) :
      Measures w t

theorem measures_sort (w : World) (on : Bool) : Measures w (onSortToggled w on) := by
  rw [onSortToggled]
  dsimp only
  split_ifs
  · exact .pressed _ rfl id
  · exact .other (keeps_of_same rfl rfl rfl)

theorem Prepared.measures_step (h : Prepared w) {a : Action} (ht : MainWindow.step w a = some t) :
    Measures w t := by
  by_cases hn : Touches w a
  · cases a with
    | fastest after cancelling e =>
        obtain rfl := Option.some.inj ht
        rw [toggle_prepares (w := w.pass after) hn, start_prepares (w := w.pass after) hn e]
        exact .pressed _ rfl fun _ => rfl
    | speedTestClick =>
        obtain rfl := Option.some.inj ht
        exact .pressed w rfl id
    | sortClick on =>
        obtain rfl := Option.some.inj ht
        exact measures_sort w on
    | speedTestDone =>
        obtain ⟨hr, hu, hwt⟩ := h.done ht
        exact .completed hr hu hwt
    | backend | load | filter | select | autoReconnect | cancelCascade | connectClick | event | fire =>
        exact hn.elim
  · exact .other (keeps_step hn ht)

theorem Usable.measures (h : Usable w) (hm : Measures w t) : Usable t := by
  cases hm with
  | other hk => exact h.keep hk
  | pressed u hf ha =>
      refine Usable.trigger ?_
      simp only [flags, Prod.mk.injEq] at hf
      rw [Usable, hf.1, hf.2.2]
      exact h.imp_right (Or.imp_right ha)
  | completed hr hu hw => exact hu

theorem running_measures (hr : w.win.speedTestRunning = true) (hm : Measures w t) :
    t.win.speedTestRunning = false ∧ ¬ Waiting t ∨ t.win.speedTestRunning = true ∧
      (w.win.speedTestCancel = true → t.win.speedTestCancel = true) := by
  cases hm with
  | other hk => exact .inr ⟨hk.running.trans hr, fun hc => hk.cancelled.trans hc⟩
  | pressed u hf ha =>
      have hru : u.win.speedTestRunning = true := (congrArg Prod.fst hf).trans hr
      obtain ⟨ht, hc⟩ := trigger_running hru
      exact .inr ⟨ht, fun _ => hc⟩
  | completed hrt hu hw => exact .inl ⟨hrt, hw⟩

theorem prepared_step (h : Prepared w) {a : Action} (ht : MainWindow.step w a = some t) : Prepared t := by
  have hm := h.measures_step ht
  refine ⟨reached_step h.toReached ht, h.usable.measures hm, fun hwt => ?_, fun hwt => ?_, fun hwt => ?_⟩
  all_goals by_cases hw : Waiting w
  · rcases running_measures (h.measuring hw) hm with ⟨-, hn⟩ | ⟨hr, -⟩
    · exact absurd hwt hn
    · exact hr
  · obtain ⟨after, -, e, -, hp, rfl⟩ := begins_waiting h ht hw hwt
    exact (start_flags (w := w.pass after) h.usable hp e).1
  · exact (idles_step h hw ht hwt).auto.trans (h.auto hw)
  · obtain ⟨after, -, e, -, hp, rfl⟩ := begins_waiting h ht hw hwt
    exact (start_waits (w := w.pass after) hp e).2.1
  · obtain ⟨hgen, -, hsub⟩ := idles_step h hw ht hwt
    intro s hs gen hm
    rw [hgen]
    exact h.stale hw s (hsub hs) gen hm
  · obtain ⟨after, -, e, -, hp, rfl⟩ := begins_waiting h ht hw hwt
    obtain ⟨-, -, hgen, hsched⟩ := start_waits (w := w.pass after) hp e
    intro s hs gen hm
    rw [hsched] at hs
    rw [hgen]
    exact Nat.lt_succ_of_le (h.made s hs gen hm)

variable {s u : Observed}

/-- What is kept along guarded runs: only the user has cancelled the measurement that a
cascade waits for. -/
structure Fair (s : Observed) : Prop extends Prepared s.world where
  taken : s.byUser = true → s.world.win.speedTestRunning = true → s.world.win.speedTestCancel = true
  fair : Waiting s.world → s.world.win.speedTestCancel = true → s.byUser = true

theorem initial_fair : Fair {} where
  toReached := initial_reached
  usable := .inl rfl
  measuring hw := Bool.noConfusion hw.1
  auto hw := Bool.noConfusion hw.1
  stale hw := Bool.noConfusion hw.1
  taken h := Bool.noConfusion h
  fair hw := Bool.noConfusion hw.1

theorem step_eq {a : Action} (ht : step s a = some u) :
    MainWindow.step s.world a = some u.world ∧ u.byUser = cancelledByUser s a u.world := by
  obtain ⟨t, hstep, rfl⟩ := Option.map_eq_some_iff.mp ht
  exact ⟨hstep, rfl⟩

theorem cancelledByUser_running (hr : s.world.win.speedTestRunning = true) (a : Action) (t : World) :
    cancelledByUser s a t = (s.byUser || (presses a && !s.world.win.speedTestCancel)) := by
  simp only [cancelledByUser, hr, Bool.not_true, Bool.and_false, Bool.false_eq_true, if_false,
    Bool.and_true]

theorem Fair.taken_step (h : Fair s) {a : Action} (ht : step s a = some u) (hb : u.byUser = true)
    (hr : u.world.win.speedTestRunning = true) : u.world.win.speedTestCancel = true := by
  obtain ⟨hstep, hby⟩ := step_eq ht
  rw [hby] at hb
  cases hrs : s.world.win.speedTestRunning with
  | false => simp [cancelledByUser, hr, hrs] at hb
  | true =>
      rw [cancelledByUser_running hrs, Bool.or_eq_true, Bool.and_eq_true] at hb
      rcases running_measures hrs (h.measures_step hstep) with ⟨hn, -⟩ | ⟨-, hstays⟩
      · exact Bool.noConfusion (hr.symm.trans hn)
      · rcases hb with hb | ⟨hpress, -⟩
        · exact hstays (h.taken hb hrs)
        · cases a with
          | speedTestClick =>
              obtain hw := Option.some.inj hstep
              rw [← hw]
              exact (trigger_running hrs).2
          | backend | load | filter | select | autoReconnect | fastest | cancelCascade | connectClick | sortClick
          | speedTestDone | event | fire => cases hpress

/-- A cascade starts to wait for a new measurement only, and waits for it undisturbed. -/
theorem Fair.fair_step (h : Fair s) {a : Action} (hg : Undisturbed s.world a) (ht : step s a = some u)
    (hwu : Waiting u.world) (hc : u.world.win.speedTestCancel = true) : u.byUser = true := by
  obtain ⟨hstep, hby⟩ := step_eq ht
  by_cases hw : Waiting s.world
  · rw [hby, cancelledByUser_running (h.measuring hw)]
    cases hcs : s.world.win.speedTestCancel with
    | true => rw [h.fair hw hcs, Bool.true_or]
    | false =>
        by_cases hn : Touches s.world a
        · cases a with
          | fastest after cancelling e =>
              exact Bool.noConfusion ((busy_of_waiting hw).symm.trans hn.1)
          | speedTestClick => simp only [presses, Bool.not_false, Bool.and_self, Bool.or_true]
          | sortClick on =>
              obtain hsort := Option.some.inj hstep
              have hpress : ¬ (on && s.world.win.latencies.isEmpty) = true := by
                intro hp
                rw [Bool.and_eq_true] at hp
                exact Bool.false_ne_true (hcs.symm.trans (hg hw hp.1 hp.2))
              rw [← hsort, onSortToggled] at hc
              dsimp only at hc
              rw [if_neg hpress] at hc
              exact absurd (hcs.symm.trans hc) Bool.false_ne_true
          | speedTestDone => exact absurd hwu (h.done hstep).2.2
          | backend | load | filter | select | autoReconnect | cancelCascade | connectClick | event | fire =>
              exact hn.elim
        · have hkept := (keeps_step hn hstep).cancelled
          exact absurd (hcs.symm.trans (hkept.symm.trans hc)) Bool.false_ne_true
  · obtain ⟨after, cancelling, e, rfl, hp, hstart⟩ := begins_waiting h.toPrepared hstep hw hwu
    have hflags := (start_flags (w := s.world.pass after) h.usable hp e).2
    rw [← hstart] at hflags
    exact absurd (hflags.symm.trans hc) (Bool.eq_false_iff.mp (hg hp))

theorem fair_step (h : Fair s) {a : Action} (hg : Undisturbed s.world a) (ht : step s a = some u) :
    Fair u :=
  ⟨prepared_step h.toPrepared (step_eq ht).1, h.taken_step ht, h.fair_step hg ht⟩

theorem leaves_of_left (h : Prepared w) {a : Action} (hg : Undisturbed w a)
    (ht : MainWindow.step w a = some t) (hw : Waiting w) (hwt : ¬ Waiting t) : leaves a = true := by
  cases a with
  | fastest | cancelCascade | connectClick | speedTestDone | event => rfl
  | backend | load | filter | select | autoReconnect =>
      obtain rfl := Option.some.inj ht
      exact absurd hw hwt
  | speedTestClick =>
      obtain rfl := Option.some.inj ht
      rw [Waiting, (triggerSpeedTest_rest w).1] at hwt
      exact absurd hw hwt
  | sortClick on =>
      obtain rfl := Option.some.inj ht
      rw [Waiting, (onSortToggled_rest w on).1] at hwt
      exact absurd hw hwt
  | fire id after e =>
      obtain ⟨source, hs, rfl⟩ := Option.map_eq_some_iff.mp ht
      obtain ⟨hsource, -⟩ := of_due? hs
      have hr : ∀ lost, source.callback = .reconnect lost → Harmless (w.pass after) :=
        fun lost hc => hg hw source lost hs hc
      exact absurd (waiting_fire (w := w.pass after) hw (h.stale hw) hsource hr e).2 hwt

theorem Fair.continues (h : Fair s) (hw : Waiting s.world) (hb : s.byUser = false) : Continues s.world := by
  refine (continues_iff hw (h.measuring hw) (h.auto hw)).mpr ?_
  by_contra hc
  exact Bool.false_ne_true (hb.symm.trans (h.fair hw (Bool.not_eq_false _ ▸ hc)))

theorem faithful_of_undisturbed (h : Fair s) {a : Action} (ht : step s a = some u)
    (hg : Undisturbed s.world a) : Faithful s a u := by
  have hstep := (step_eq ht).1
  refine ⟨fun hw hwu hr => ?_, fun hw hwu => ?_, (fair_step h hg ht).continues,
    leaves_of_left h.toPrepared hg hstep⟩
  · obtain ⟨after, cancelling, e, rfl, hp, -⟩ := begins_waiting h.toPrepared hstep hw hwu
    exact absurd hr (Bool.eq_false_iff.mp (hg hp))
  · obtain ⟨after, cancelling, e, rfl, hp, hstart⟩ := begins_waiting h.toPrepared hstep hw hwu
    obtain ⟨hr, hc⟩ := start_flags (w := s.world.pass after) h.usable hp e
    rw [hstart]
    exact ⟨hr, hc.trans (hg hp)⟩

/-- Sort cancels the measurement behind the user's back. -/
theorem sort_breaks (h : Fair s) {on : Bool} (ht : step s (.sortClick on) = some u) (hw : Waiting s.world)
    (hon : on = true) (hl : s.world.win.latencies.isEmpty = true)
    (hc : s.world.win.speedTestCancel = false) :
    Waiting u.world ∧ u.byUser = false ∧ ¬ Continues u.world := by
  obtain ⟨hstep, hby⟩ := step_eq ht
  have hr := h.measuring hw
  have hsort := Option.some.inj hstep
  have hwu : Waiting u.world := by
    rw [← hsort, Waiting, (onSortToggled_rest s.world on).1]
    exact hw
  have hp := prepared_step h.toPrepared hstep
  refine ⟨hwu, ?_, fun hcontinues => ?_⟩
  · rw [hby, cancelledByUser_running hr]
    cases hb : s.byUser with
    | false => rfl
    | true => exact absurd (hc.symm.trans (h.taken hb hr)) Bool.false_ne_true
  · have hcu := (continues_iff hwu (hp.measuring hwu) (hp.auto hwu)).mp hcontinues
    rw [← hsort, sort_presses hon hl] at hcu
    let sorted := { s.world with win := { s.world.win with sortBySpeedActive := on } }
    exact absurd (hcu.symm.trans (trigger_running (w := sorted) hr).2) Bool.false_ne_true

theorem undisturbed_of_faithful (h : Fair s) {a : Action} (ht : step s a = some u) (hf : Faithful s a u) :
    Undisturbed s.world a := by
  have hstep := (step_eq ht).1
  cases a with
  | fastest after cancelling e =>
      intro hp
      have hstart := Option.some.inj hstep
      rw [toggle_prepares (w := s.world.pass after) hp] at hstart
      have hw : ¬ Waiting s.world :=
        fun hw => Bool.noConfusion ((busy_of_waiting hw).symm.trans hp.1)
      have hwu := (start_waits (w := s.world.pass after) hp e).1
      have hc := (start_flags (w := s.world.pass after) h.usable hp e).2
      rw [hstart] at hwu hc
      exact hc.symm.trans (hf.measuring hw hwu).2
  | sortClick on =>
      intro hw hon hl
      by_contra hc
      obtain ⟨hwu, hb, hn⟩ := sort_breaks h ht hw hon hl (Bool.not_eq_true _ ▸ hc)
      exact hn (hf.continued hwu hb)
  | fire id after e =>
      intro hw source lost hs hc
      by_contra hh
      obtain ⟨due, hdue, hfire⟩ := Option.map_eq_some_iff.mp hstep
      obtain rfl := Option.some.inj (hs.symm.trans hdue)
      have hwu := harmful_fire (w := s.world.pass after) hw hh hc e
      rw [hfire] at hwu
      exact absurd (hf.left hw hwu) Bool.false_ne_true
  | backend | load | filter | select | autoReconnect | cancelCascade | connectClick | speedTestClick
  | speedTestDone | event => trivial

/-- In every run, waiting for a measurement does what it is for exactly when the cascade
is started while none runs, and neither Sort nor a reconnect gets in the way. -/
theorem faithful_iff_undisturbed (actions : List Action) :
    AllSteps step (fun s a => ∀ u, step s a = some u → Faithful s a u) {} actions ↔
      AllSteps step (fun s a => Undisturbed s.world a) {} actions := by
  refine allSteps_iff_of_invariant (I := Fair) (fun s a u h ht hg => fair_step h hg ht) ?_ actions
    initial_fair
  intro s a u h ht
  constructor
  · exact fun hf => undisturbed_of_faithful h ht (hf u ht)
  · intro hg v hv
    exact faithful_of_undisturbed h hv hg

/-- The user tests the speed, and presses Fastest before the test has finished. -/
def duringTest : List Action := [.load ["a.ovpn"], .speedTestClick]

theorem start_cancels_measurement :
    ¬ ∀ actions, AllSteps step (fun s a => ∀ u, step s a = some u → Faithful s a u) {} actions := by
  intro h
  have hfaithful := (h (duringTest ++ [.fastest 0 {} {}])).next rfl rfl _ rfl
  exact absurd (hfaithful.spared (by decide) (by decide) (by decide)) (by decide)

end EovpnPro.PreparingPhase
