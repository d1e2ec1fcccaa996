import EovpnPro.CascadePaths

namespace EovpnPro.CascadeFrame

open AutoConnect Events Sources AppState WindowEvents CascadeController MainWindow CascadeLedger CascadeMoves

def outline (w : World) : (Scheduler Callback × Option Nat × Option Nat × Option Nat) ×
    (Bool × CascadePhase) × Bool × Bool × Bool :=
  ((w.sched, w.ctl.timeoutId, w.ctl.tickId, w.ctl.settleId), (w.ctl.active, w.ctl.phase),
    (w.win.speedTestRunning, w.win.speedTestCancel, w.win.speedTestSensitive))

/-- A relation that holds between what the controller starts from and what it ends in, if
it does on the outline. -/
structure Frame (R : World → World → Prop) : Prop where
  trans {u v w : World} : R u v → R v w → R u w
  same {w t : World} : outline t = outline w → R w t
  phased (w : World) {phase : CascadePhase} : phase = .settling ∨ phase = .connecting →
    R w { w with ctl := { w.ctl with phase } }
  reconnects (w : World) (lost : Option String) :
    R w { w with sched := add w.sched w.clock (3 * second) (.reconnect lost) }
  disarmed (w : World) : R w (disarmTimers w false)
  armed (w : World) (dt : Time) : R w (armTimeoutAndTicks w dt)
  settles (w : World) : R w (armSettle w)
  ended (w : World) {phase : CascadePhase} : phase ≠ .cancelled → R w (endRun w phase)

/-- The relation survives a cancel as well. -/
structure CancelFrame (R : World → World → Prop) : Prop extends Frame R where
  cancelled (w : World) : R w (endRun w .cancelled)

/-- What `_on_timeout` does before anything else. -/
def forgetTimeout (w : World) : World := { w with ctl := { w.ctl with timeoutId := none } }

def forgetIf (late : Bool) (w : World) : World := if late then forgetTimeout w else w

def buttonLate (w : World) (dt : Time) : Bool :=
  w.ctl.active && w.ctl.current.isSome && decide (w.ctl.deadline ≤ w.clock + dt)

def tickLate (w : World) (gen : Nat) (e : TickEnv) : Bool :=
  w.ctl.active && decide (gen = w.ctl.gen) && !e.busy &&
    (decide (w.ctl.deadline ≤ w.clock + e.now) || buttonLate (w.pass e.now) e.button)

def tryLate (w : World) (e : TryEnv) : Bool :=
  w.ctl.active && (w.ctl.queue[w.ctl.index]?).any fun filename =>
    decide (computeAttemptTimeout (w.win.latencies.lookup filename).join ≤ e.button)

theorem outline_forgetTimeout {w t : World} (h : outline t = outline w) :
    outline (forgetTimeout t) = outline (forgetTimeout w) :=
  congrArg (fun o => ((o.1.1, none, o.1.2.2), o.2)) h

theorem outline_selectServerByName (w : World) (filename : String) :
    outline (selectServerByName w filename) = outline w := by
  rw [selectServerByName]
  split <;> rfl

theorem outline_updateBanner (w : World) : outline (updateBanner w) = outline w := by
  rw [updateBanner]
  split
  · split
    · exact outline_selectServerByName w _
    · rfl
  · rfl

section

variable {R : World → World → Prop} (hR : Frame R) {w u t : World}

include hR

theorem Frame.refl (w : World) : R w w := hR.same rfl

theorem Frame.handleDisconnected (w : World) : R w (handleDisconnected w) := by
  rw [WindowEvents.handleDisconnected]
  dsimp only
  split
  · have hsource := hR.reconnects w (tunnelConfig w.trace)
    exact hR.trans hsource (hR.same rfl)
  · exact hR.same rfl

theorem Frame.onWindowEvent (w : World) (event : ConnectionEvent) : R w (onWindowEvent w event) := by
  rw [WindowEvents.onWindowEvent]
  split
  · exact hR.handleDisconnected w
  · exact hR.handleDisconnected w
  · exact hR.same rfl
  all_goals exact hR.refl w

theorem Frame.completeActiveAttempt (w : World) (result : AttemptResult) (code message : Option String) :
    R w (completeActiveAttempt w result code message) := by
  rw [completeActiveAttempt_eq]
  exact hR.same rfl

theorem Frame.finishSucceeded (w : World) : R w (finishSucceeded w) :=
  hR.trans (hR.trans (hR.ended w (by decide)) (hR.completeActiveAttempt _ _ _ _)) (hR.same rfl)

theorem Frame.finishExhausted (w : World) : R w (finishExhausted w) :=
  hR.trans (hR.trans (hR.ended w (by decide)) (hR.completeActiveAttempt _ _ _ _)) (hR.same rfl)

theorem Frame.terminalResponse {next : Advance} (hn : ∀ r c m, R w (next w r c m))
    (event : ConnectionEvent) : R w (terminalResponse next w event) := by
  rw [CascadeController.terminalResponse]
  split_ifs
  · exact hR.same rfl
  · have hmessage : R w { w with ctl := { w.ctl with pendingFailureMessage := event.error } } :=
      hR.same rfl
    exact hR.trans hmessage (hR.same (outline_updateBanner _))
  · exact hn _ _ _
  · exact hR.refl w

theorem Frame.onConnectionEvent {next : Advance} (hn : ∀ r c m, R w (next w r c m)) (result : Result)
    (error : Option String) : R w (onConnectionEvent next w result error) := by
  cases ha : w.ctl.active with
  | false =>
      rw [onConnectionEvent_inactive ha]
      exact hR.onWindowEvent w _
  | true =>
      by_cases hk : (normalizeConnectionEvent result error).kind = .connected
      · rw [onConnectionEvent_connected ha hk]
        have hquiet : R w { disarmTimers w false with
            ctl := { (disarmTimers w false).ctl with expectDisconnect := false } } :=
          hR.trans (hR.disarmed w) (hR.same rfl)
        exact hR.trans (hR.trans hquiet (hR.finishSucceeded _)) (hR.same rfl)
      · cases ht : terminal (normalizeConnectionEvent result error).kind with
        | false => rw [onConnectionEvent_other ha hk ht]; exact hR.refl w
        | true => rw [onConnectionEvent_terminal ha ht]; exact hR.terminalResponse hn _

theorem Frame.pass (w : World) (dt : Time) : R w (w.pass dt) := hR.same rfl

theorem Frame.record (w : World) (act : Act) : R w (w.record act) := hR.same rfl

theorem Frame.foldl {ε : Type} {deliver : World → ε → World} (hd : ∀ w event, R w (deliver w event))
    (events : List ε) (w : World) : R w (events.foldl deliver w) := by
  induction events generalizing w with
  | nil => exact hR.refl w
  | cons event events ih => exact hR.trans (hd w event) (ih _)

theorem Frame.deliverQuiet (w : World) (d : Delivery) : R w (deliverQuiet w d) :=
  hR.trans (hR.pass w d.after) (hR.onConnectionEvent (fun _ _ _ => hR.refl _) _ _)

theorem Frame.callDisconnect (w : World) (reply : Reply Delivery) : R w (callDisconnect w reply) :=
  hR.trans (hR.record w .disconnect) (hR.foldl hR.deliverQuiet reply.events _)

theorem Frame.leaveCandidate (w : World) (closing : Time) (reason : AttemptResult)
    (code message : Option String) : R w (leaveCandidate w closing reason code message) := by
  obtain ⟨clock, failures, attempts, heq, -⟩ := leaveCandidate_eq w closing reason code message
  rw [heq]
  have hsettling := hR.trans (hR.disarmed w) (hR.phased (disarmTimers w false) (.inl rfl))
  exact hR.trans hsettling (hR.same rfl)

theorem Frame.advance (e : DropEnv) (w : World) (reason : AttemptResult) (code message : Option String) :
    R w (advance e w reason code message) := by
  cases ha : w.ctl.active with
  | false => rw [advance_inactive ha]; exact hR.refl w
  | true =>
      have hleft := hR.leaveCandidate w e.closing reason code message
      have hi : (!w.ctl.active) = false := by rw [ha]; rfl
      simp only [CascadeController.advance, hi, Bool.false_eq_true, if_false]
      generalize CascadeController.leaveCandidate w e.closing reason code message = left at hleft ⊢
      have hpoll := hR.trans hleft (hR.record left (.polled e.status))
      split_ifs
      · exact hR.trans hleft (hR.settles left)
      · exact hR.trans (hR.trans hpoll (hR.callDisconnect _ _)) (hR.settles _)
      · exact hR.trans hpoll (hR.settles _)

theorem Frame.cancelOperation (w : World) : R w (cancelOperation w) := by
  rw [CascadeController.cancelOperation]
  split_ifs
  · exact hR.record w _
  · exact hR.refl w

theorem Frame.awaitDisconnect (w : World) : R w (awaitDisconnect w) :=
  hR.trans (hR.phased w (.inl rfl)) (hR.same rfl)

theorem Frame.retryDisconnect (w : World) (e : TryEnv) : R w (retryDisconnect w e) := by
  have hretries : R w (setDisconnectRetries w (w.ctl.disconnectRetries + 1)) := hR.same rfl
  have hcall := hR.trans (hR.trans hretries (hR.awaitDisconnect _)) (hR.callDisconnect _ e.disconnect)
  rw [CascadeController.retryDisconnect]
  dsimp only
  split_ifs
  · exact hR.trans hretries (hR.advance _ _ _ _ _)
  · split
    · exact hR.trans hcall (hR.advance _ _ _ _ _)
    · exact hR.trans hcall (hR.settles _)

theorem Frame.callConnect (w : World) (position : Nat) (filename : String)
    (reply : Reply (Delivery × DropEnv)) : R w (callConnect w position filename reply) := by
  refine hR.trans (hR.record w _) (hR.foldl (fun u d => ?_) reply.events _)
  exact hR.trans (hR.pass u d.1.after) (hR.onConnectionEvent (hR.advance d.2 _) _ _)

theorem Frame.connectCandidate (w : World) (position : Nat) (filename : String) (e : TryEnv) :
    R w (connectCandidate w position filename e) := by
  have hretries : R w (setDisconnectRetries w 0) := hR.same rfl
  have hcall := hR.trans hretries (hR.callConnect _ position filename e.connect)
  rw [CascadeController.connectCandidate]
  dsimp only
  split_ifs
  · exact hR.trans hretries (hR.advance _ _ _ _ _)
  · split
    · exact hR.trans hcall (hR.advance _ _ _ _ _)
    · exact hcall

theorem Frame.startCandidate (w : World) (position : Nat) (filename : String) (e : TryEnv) :
    R w (startCandidate w position filename e) := by
  rw [CascadeController.startCandidate]
  split
  · exact hR.advance _ _ _ _ _
  · dsimp only
    split
    · exact hR.trans (hR.record w _) (hR.advance _ _ _ _ _)
    · split_ifs
      · exact hR.trans (hR.record w _) (hR.retryDisconnect _ e)
      · exact hR.trans (hR.record w _) (hR.connectCandidate _ position filename e)

theorem Frame.onTimeout (w : World) (gen : Nat) (e : TimeoutEnv) :
    R (forgetTimeout w) (onTimeout w gen e) := by
  rw [CascadeController.onTimeout]
  dsimp only
  split_ifs
  · exact hR.refl _
  · have hextended : R (forgetTimeout w) { (forgetTimeout w).pass e.now with
        ctl := { (forgetTimeout w).ctl with deadline := ((forgetTimeout w).pass e.now).clock + 4 * second } } :=
      hR.same rfl
    exact hR.trans hextended (hR.armed _ e.arming)
  · exact hR.advance _ _ _ _ _

theorem Frame.forgetIf (h : outline t = outline w) (late : Bool) : R (forgetIf late w) (forgetIf late t) := by
  apply hR.same
  cases late with
  | false => exact h
  | true => exact outline_forgetTimeout h

theorem Frame.updateConnectButtonTimer (w : World) (dt : Time) (e : TimeoutEnv) :
    R (CascadeFrame.forgetIf (buttonLate w dt) w) (updateConnectButtonTimer w dt e) := by
  rw [CascadeController.updateConnectButtonTimer, buttonLate]
  cases w.ctl.active with
  | false => exact hR.refl w
  | true =>
      cases w.ctl.current with
      | none => exact hR.refl w
      | some current =>
          by_cases hdue : w.ctl.deadline ≤ w.clock + dt
          · have hpass : R (forgetTimeout w) (forgetTimeout (w.pass dt)) := hR.same rfl
            simpa [CascadeFrame.forgetIf, hdue] using hR.trans hpass (hR.onTimeout (w.pass dt) w.ctl.gen e)
          · simpa [CascadeFrame.forgetIf, hdue] using hR.pass w dt

theorem Frame.onTick (w : World) (gen : Nat) (e : TickEnv) :
    R (CascadeFrame.forgetIf (tickLate w gen e) w) (onTick w gen e).1 := by
  have hpass (late : Bool) : R (CascadeFrame.forgetIf late w) (CascadeFrame.forgetIf late (w.pass e.now)) :=
    hR.forgetIf (show outline (w.pass e.now) = outline w from rfl) late
  by_cases hrun : w.ctl.active = true ∧ gen = w.ctl.gen
  · obtain ⟨ha, rfl⟩ := hrun
    have hlate : tickLate w w.ctl.gen e = (!e.busy &&
        (decide (w.ctl.deadline ≤ w.clock + e.now) || buttonLate (w.pass e.now) e.button)) := by
      simp only [tickLate, ha, decide_true, Bool.true_and]
    have hfresh : ¬(!w.ctl.active || decide (w.ctl.gen ≠ w.ctl.gen)) = true := by
      simp only [ha, Bool.not_true, ne_eq, not_true_eq_false, decide_false, Bool.or_self, Bool.false_eq_true,
        not_false_eq_true]
    rw [hlate, CascadeController.onTick, if_neg hfresh]
    cases e.busy with
    | true => exact hR.same rfl
    | false =>
        by_cases hdue : w.ctl.deadline ≤ w.clock + e.now
        · simpa [hdue] using hR.trans (hpass true) (hR.onTimeout _ w.ctl.gen e.timeout)
        · have hbanner := hR.forgetIf (outline_updateBanner (w.pass e.now)) (buttonLate (w.pass e.now) e.button)
          have hbutton := hR.updateConnectButtonTimer (updateBanner (w.pass e.now)) e.button e.timeout
          simp only [buttonLate, updateBanner_ctl, updateBanner_clock] at hbutton hbanner
          simpa [hdue, buttonLate] using hR.trans (hR.trans (hpass _) hbanner) hbutton
  · have hlate : tickLate w gen e = false := by
      simp only [tickLate, Bool.and_eq_false_iff, decide_eq_false_iff_not]
      exact .inl (.inl (not_and_or.mp hrun |>.imp_left Bool.eq_false_iff.mpr))
    have hstale : (!w.ctl.active || decide (gen ≠ w.ctl.gen)) = true := by
      rw [Bool.or_eq_true, Bool.not_eq_true', decide_eq_true_iff]
      exact not_and_or.mp hrun |>.imp_left Bool.eq_false_iff.mpr
    rw [hlate, CascadeController.onTick, if_pos hstale]
    exact hR.refl w

theorem Frame.prepareCandidate (ha : w.ctl.active = true) (filename : String) (e : TryEnv) :
    R (CascadeFrame.forgetIf
        (decide (computeAttemptTimeout (w.win.latencies.lookup filename).join ≤ e.button)) w)
      (prepareCandidate w filename e) := by
  have hlate : buttonLate (openAttempt w filename e.now) e.button =
      decide (computeAttemptTimeout (w.win.latencies.lookup filename).join ≤ e.button) := by
    simp only [buttonLate, openAttempt, World.pass, World.record, ha, Option.isSome_some, Bool.and_self,
      Bool.true_and, Nat.add_le_add_iff_left]
  have hopen (late : Bool) : R (CascadeFrame.forgetIf late w)
      (CascadeFrame.forgetIf late (openAttempt w filename e.now)) := by
    cases late with
    | false => exact hR.trans (hR.phased w (.inr rfl)) (hR.same rfl)
    | true => exact hR.trans (hR.phased (forgetTimeout w) (.inr rfl)) (hR.same rfl)
  have hbutton := hR.updateConnectButtonTimer (openAttempt w filename e.now) e.button e.timeout
  rw [hlate] at hbutton
  have hopened := hR.trans (hopen _) hbutton
  rw [CascadeController.prepareCandidate]
  dsimp only
  generalize CascadeController.updateConnectButtonTimer _ e.button e.timeout = opened at hopened ⊢
  have hexpect : R opened { opened with
      ctl := { opened.ctl with expectDisconnect := false }
      win := { opened.win with manualDisconnect := false } } := hR.same rfl
  have hselect := hR.trans (hR.trans hopened hexpect) (hR.same (outline_selectServerByName _ filename))
  exact hR.trans (hR.trans hselect (hR.same (outline_updateBanner _))) (hR.armed _ e.arming)

theorem Frame.tryCurrentServer (w : World) (e : TryEnv) :
    R (CascadeFrame.forgetIf (tryLate w e) w) (tryCurrentServer w e) := by
  rw [CascadeController.tryCurrentServer, tryLate]
  cases ha : w.ctl.active with
  | false => exact hR.refl w
  | true =>
      cases w.ctl.queue[w.ctl.index]? with
      | none => exact hR.finishExhausted w
      | some filename =>
          have hprepare := hR.prepareCandidate ha filename e
          simp only [Bool.not_true, Bool.false_eq_true, if_false, Option.any_some, Bool.true_and]
          split_ifs
          · exact hR.trans hprepare (hR.finishExhausted _)
          · exact hR.trans hprepare (hR.startCandidate _ _ filename e)

end

section

variable {R : World → World → Prop} (hR : CancelFrame R) {w : World}

include hR

theorem CancelFrame.finishCancelled (w : World) (restoreConnectUi : Bool) (e : DropEnv) :
    R w (finishCancelled w restoreConnectUi e) := by
  have hclosed : R w (closeCancelled w e.closing) :=
    hR.trans (hR.trans (hR.cancelled w) (hR.pass _ e.closing)) (hR.completeActiveAttempt _ _ _ _)
  rw [CascadeController.finishCancelled]
  dsimp only
  rw [← closeCancelled]
  generalize closeCancelled w e.closing = closed at hclosed ⊢
  have hpoll := hR.record closed (.polled e.status)
  have hended : ∀ u, R closed u → R w (u.record (.ended .cancelled)) :=
    fun u hu => hR.trans hclosed (hR.trans hu (hR.record u _))
  apply hended
  split_ifs
  · have hmanual : R (closed.record (.polled e.status))
        { closed.record (.polled e.status) with win := { closed.win with manualDisconnect := true } } :=
      hR.same rfl
    exact hR.trans (hR.trans hpoll hmanual) (hR.callDisconnect _ _)
  · exact hpoll
  · exact hR.refl closed

theorem CancelFrame.cancel (w : World) (e : DropEnv) : R w (cancel w e) := by
  rw [CascadeController.cancel]
  split_ifs
  · exact hR.refl w
  · dsimp only
    have hoperation := hR.cancelOperation w
    generalize CascadeController.cancelOperation w = asked at hoperation ⊢
    have hnext : R asked { asked with
        ctl := { asked.ctl with autoCascadeAfterTest := false, gen := asked.ctl.gen + 1 } } := hR.same rfl
    exact hR.trans (hR.trans hoperation hnext) (hR.finishCancelled _ true e)

theorem CancelFrame.signalsConnect (w : World) (e : ConnectEnv) : R w (signalsConnect w e) := by
  rw [MainWindow.signalsConnect]
  dsimp only
  split_ifs
  · exact hR.refl w
  · exact hR.cancel w e.cancel
  · have hmanual : R w { w with win := { w.win with manualDisconnect := true } } := hR.same rfl
    have hasked := hR.trans hmanual (hR.cancelOperation _)
    generalize CascadeController.cancelOperation _ = asked at hasked ⊢
    have hclear : R asked { asked with win := { asked.win with connectionAttemptActive := false } } :=
      hR.same rfl
    exact hR.trans (hR.trans hasked hclear) (hR.handleDisconnected _)
  · exact hR.refl w
  · have hmanual : R w { w with win := { w.win with manualDisconnect := true } } := hR.same rfl
    exact hR.trans hmanual (hR.callDisconnect _ _)
  · have hmanual : R w { w with win := { w.win with manualDisconnect := false } } := hR.same rfl
    split
    · exact hmanual
    · next config _ =>
        split_ifs
        · exact hmanual
        · have hattempt : R w { w with
              win := { w.win with manualDisconnect := false, connectionAttemptActive := true } } :=
            hR.same rfl
          have hconnect := hR.trans hattempt (hR.record _ (.connect none config))
          exact hR.trans hconnect (hR.foldl hR.deliverQuiet _ _)

theorem CancelFrame.triggerReconnect (w : World) (e : ConnectEnv) : R w (triggerReconnect w e) := by
  rw [MainWindow.triggerReconnect]
  split
  · exact hR.refl w
  · split_ifs
    · exact hR.refl w
    · exact hR.signalsConnect w e

end

end EovpnPro.CascadeFrame
