import EovpnPro.CascadeFrame

namespace EovpnPro.MeasurementFrame

open AutoConnect Events Sources AppState WindowEvents CascadeController MainWindow CascadeLedger CascadeMoves
open CascadeFrame

def Waiting (w : World) : Prop := w.ctl.active = true ∧ w.ctl.phase = .preparing

instance (w : World) : Decidable (Waiting w) := inferInstanceAs (Decidable (_ ∧ _))

def flags (w : World) : Bool × Bool × Bool :=
  (w.win.speedTestRunning, w.win.speedTestCancel, w.win.speedTestSensitive)

/-- What happens between two states leaves the measurement alone: none is started or
cancelled, the button is taken only for a cascade, and no cascade begins to wait. -/
structure Keeps (w t : World) : Prop where
  running : t.win.speedTestRunning = w.win.speedTestRunning
  cancelled : t.win.speedTestCancel = w.win.speedTestCancel
  usable : t.win.speedTestSensitive = true ∨ t.ctl.active = true ∨
    (t.win.speedTestSensitive = w.win.speedTestSensitive ∧ t.ctl.active = w.ctl.active)
  waiting : Waiting t → Waiting w

/-- Moreover no cascade is cancelled. -/
structure Spares (w t : World) : Prop extends Keeps w t where
  phase : t.ctl.phase = .cancelled → w.ctl.phase = .cancelled

variable {w u v t : World}

theorem Spares.refl (w : World) : Spares w w := ⟨⟨rfl, rfl, .inr (.inr ⟨rfl, rfl⟩), id⟩, id⟩

theorem Keeps.trans (h : Keeps w u) (hu : Keeps u t) : Keeps w t where
  running := hu.running.trans h.running
  cancelled := hu.cancelled.trans h.cancelled
  usable := by
    rcases hu.usable with hs | ha | ⟨hs, ha⟩
    · exact .inl hs
    · exact .inr (.inl ha)
    · rw [hs, ha]
      exact h.usable
  waiting hw := h.waiting (hu.waiting hw)

theorem Spares.trans (h : Spares w u) (hu : Spares u t) : Spares w t :=
  ⟨h.toKeeps.trans hu.toKeeps, fun hp => h.phase (hu.phase hp)⟩

theorem spares_of_same (hf : flags t = flags w) (ha : t.ctl.active = w.ctl.active)
    (hp : t.ctl.phase = w.ctl.phase) : Spares w t := by
  simp only [flags, Prod.mk.injEq] at hf
  obtain ⟨hr, hc, hs⟩ := hf
  refine ⟨⟨hr, hc, .inr (.inr ⟨hs, ha⟩), fun hw => ?_⟩, fun hc => hp ▸ hc⟩
  rwa [Waiting, ha, hp] at hw

theorem keeps_of_same (hf : flags t = flags w) (ha : t.ctl.active = w.ctl.active)
    (hp : t.ctl.phase = w.ctl.phase) : Keeps w t :=
  (spares_of_same hf ha hp).toKeeps

theorem spares_of_phase (hf : flags t = flags w) (ha : t.ctl.active = w.ctl.active)
    (hp : t.ctl.phase ≠ .preparing ∧ t.ctl.phase ≠ .cancelled) : Spares w t := by
  simp only [flags, Prod.mk.injEq] at hf
  obtain ⟨hr, hc, hs⟩ := hf
  exact ⟨⟨hr, hc, .inr (.inr ⟨hs, ha⟩), fun hw => absurd hw.2 hp.1⟩, fun hc => absurd hc hp.2⟩

theorem spares_frame : Frame Spares where
  trans := Spares.trans
  same h := by
    simp only [outline, Prod.mk.injEq] at h
    obtain ⟨-, ⟨ha, hp⟩, hflags⟩ := h
    exact spares_of_same (by simpa only [flags, Prod.mk.injEq] using hflags) ha hp
  phased w phase hp := by
    rcases hp with rfl | rfl
    · exact spares_of_phase rfl rfl ⟨CascadePhase.noConfusion, CascadePhase.noConfusion⟩
    · exact spares_of_phase rfl rfl ⟨CascadePhase.noConfusion, CascadePhase.noConfusion⟩
  reconnects w lost := spares_of_same rfl rfl rfl
  disarmed w := spares_of_same rfl rfl rfl
  armed w dt := spares_of_same rfl rfl rfl
  settles w := spares_of_same rfl rfl rfl
  ended w phase hp :=
    ⟨⟨rfl, rfl, .inl rfl, fun hw => Bool.noConfusion hw.1⟩, fun hc => absurd hc hp⟩

theorem keeps_frame : CancelFrame Keeps where
  trans := Keeps.trans
  same h := (spares_frame.same h).toKeeps
  phased w _ hp := (spares_frame.phased w hp).toKeeps
  reconnects w lost := (spares_frame.reconnects w lost).toKeeps
  disarmed w := (spares_frame.disarmed w).toKeeps
  armed w dt := (spares_frame.armed w dt).toKeeps
  settles w := (spares_frame.settles w).toKeeps
  ended w _ hp := (spares_frame.ended w hp).toKeeps
  cancelled _ := ⟨rfl, rfl, .inl rfl, fun hw => Bool.noConfusion hw.1⟩

theorem spares_forgetIf (late : Bool) (w : World) : Spares w (forgetIf late w) := by
  cases late <;> exact spares_of_same rfl rfl rfl

theorem spares_tryCurrentServer (w : World) (e : TryEnv) : Spares w (tryCurrentServer w e) :=
  (spares_forgetIf _ w).trans (spares_frame.tryCurrentServer w e)

theorem spares_onSettle (w : World) (gen : Nat) (e : TryEnv) : Spares w (onSettle w gen e) := by
  have hforget : Spares w { w with ctl := { w.ctl with settleId := none } } := spares_of_same rfl rfl rfl
  rw [onSettle]
  dsimp only
  split_ifs
  · exact hforget.trans (spares_tryCurrentServer _ e)
  · exact hforget

theorem spares_loadQueue (w : World) (queue : List String) : Spares w (loadQueue w queue) :=
  ⟨⟨rfl, rfl, .inr (.inl rfl), fun hw => CascadePhase.noConfusion hw.2⟩,
    fun hc => CascadePhase.noConfusion hc⟩

theorem spares_loaded (w : World) (queue : List String) (e : StartEnv) :
    Spares (loadQueue w queue) (begin w queue e) := by
  rw [begin]
  dsimp only
  generalize loadQueue w queue = loaded
  have hpoll := spares_frame.record loaded (.polled e.status)
  have hwait := hpoll.trans (spares_frame.awaitDisconnect _)
  have hcall := hwait.trans (spares_frame.callDisconnect _ e.disconnect)
  split_ifs
  · exact spares_tryCurrentServer loaded e.attempt
  · exact hpoll.trans (spares_tryCurrentServer _ e.attempt)
  · exact hwait.trans (spares_tryCurrentServer _ e.attempt)
  · exact hcall.trans (spares_tryCurrentServer _ e.attempt)
  · exact hcall.trans (spares_frame.settles _)

theorem spares_startFromVisibleList (w : World) (e : StartEnv) : Spares w (startFromVisibleList w e) := by
  rw [startFromVisibleList]
  split
  · split_ifs
    · exact spares_frame.finishExhausted w
    · exact .refl w
  · split_ifs
    · have hadopt : Spares w { w with ctl := { w.ctl with current := w.win.selected } } :=
        spares_of_same rfl rfl rfl
      exact hadopt.trans (spares_frame.finishSucceeded _)
    · exact .refl w
    · exact (spares_loadQueue w _).trans (spares_loaded w _ e)

theorem cancelled_of_busy (hb : busy w.ctl = true) (e : DropEnv) :
    (cancel w e).ctl.active = false ∧ (cancel w e).ctl.phase = .cancelled := by
  have hl := ledger_cancel w e
  rw [hb, if_pos rfl] at hl
  exact ⟨congrArg AttemptLedger.Ledger.active hl, congrArg AttemptLedger.Ledger.phase hl⟩

theorem spares_sched (w : World) (sched : Scheduler Callback) : Spares w { w with sched } :=
  spares_of_same rfl rfl rfl

theorem keeps_fire (w : World) (source : Source Callback) (e : FireEnv) : Keeps w (fire w source e) := by
  rw [fire]
  cases source.callback with
  | timeout gen =>
      have htimeout := (spares_forgetIf true w).trans (spares_frame.onTimeout w gen e.timeout)
      exact (htimeout.trans (spares_sched _ _)).toKeeps
  | tick gen =>
      have htick := (spares_forgetIf _ w).trans (spares_frame.onTick w gen e.tick)
      exact (htick.trans (spares_sched _ _)).toKeeps
  | settle gen => exact ((spares_onSettle w gen e.attempt).trans (spares_sched _ _)).toKeeps
  | reconnect lost => exact (keeps_frame.triggerReconnect w e.connect).trans (spares_sched _ _).toKeeps

theorem spares_startAfterTest (w : World) (e : StartEnv) : Spares w (startAfterTest w e) := by
  have hclear : Spares w { w with ctl := { w.ctl with autoCascadeAfterTest := false } } :=
    spares_of_same rfl rfl rfl
  rw [startAfterTest]
  dsimp only
  split_ifs
  · exact hclear.trans (spares_startFromVisibleList _ e)
  · exact hclear
  · exact .refl w

end EovpnPro.MeasurementFrame
