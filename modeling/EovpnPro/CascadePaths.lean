import EovpnPro.CascadeMoves

namespace EovpnPro.CascadePaths

open AutoConnect Events Sources AppState WindowEvents CascadeController MainWindow CascadeLedger CascadeMoves
open Relation

variable {P : Controller → Prop} {Q : Controller → Time → Prop} {w t : World}

section

theorem calm_window (hc : t.ctl = w.ctl) (hs : t.sched = w.sched) (hk : t.clock = w.clock)
    (ht : t.trace = w.trace) : ReflTransGen (Calm Q) w t := by
  obtain ⟨ctl, win, sched, clock, trace⟩ := t
  obtain rfl := hc
  obtain rfl := hs
  obtain rfl := hk
  obtain rfl := ht
  exact .single (.window w win)

theorem calm_note (act : Act) (h : aside act = true) (w : World) : ReflTransGen (Calm Q) w (w.record act) :=
  .single (.note w act h)

theorem calm_pass (w : World) (dt : Time) : ReflTransGen (Calm Q) w (w.pass dt) := .single (.pass w dt)

theorem calm_updateBanner (w : World) : ReflTransGen (Calm Q) w (updateBanner w) := by
  refine calm_window (updateBanner_ctl w) ?_ (updateBanner_clock w) (updateBanner_trace w)
  simp only [updateBanner, selectServerByName]
  split
  · split
    · split <;> rfl
    · rfl
  · rfl

theorem calm_handleDisconnected (w : World) : ReflTransGen (Calm Q) w (handleDisconnected w) := by
  simp only [handleDisconnected]
  split
  · have hsource : ReflTransGen (Calm Q) w
        { w.record .scheduled with
          sched := add w.sched w.clock (3 * second) (.reconnect (tunnelConfig w.trace)) } :=
      (calm_note .scheduled rfl w).tail (.reconnect (w.record .scheduled) (tunnelConfig w.trace))
    exact hsource.trans (calm_window rfl rfl rfl rfl)
  · exact calm_window rfl rfl rfl rfl

theorem calm_handleConnected (w : World) : ReflTransGen (Calm Q) w (handleConnected w) :=
  (calm_note .up rfl w).trans (calm_window rfl rfl rfl rfl)

theorem calm_onWindowEvent (w : World) (event : ConnectionEvent) :
    ReflTransGen (Calm Q) w (onWindowEvent w event) := by
  simp only [onWindowEvent]
  split
  · exact calm_handleDisconnected w
  · exact calm_handleDisconnected w
  · exact calm_handleConnected w
  all_goals exact .refl

theorem failing_failureReason (event : ConnectionEvent) :
    failing (failureReason event) = true ∧ failureReason event ≠ .timeout := by
  simp only [failureReason]
  split
  · exact ⟨rfl, AttemptResult.noConfusion⟩
  · split
    · exact ⟨rfl, AttemptResult.noConfusion⟩
    · exact ⟨rfl, AttemptResult.noConfusion⟩

/-- `advance`, where `next` leads calmly from wherever a candidate is left. -/
theorem calm_onConnectionEvent (next : Advance)
    (hnext : ∀ w reason code message, failing reason = true → reason ≠ .timeout →
      ReflTransGen (Calm Q) w (next w reason code message))
    (w : World) (result : Result) (error : Option String) :
    ReflTransGen (Calm Q) w (onConnectionEvent next w result error) := by
  cases ha : w.ctl.active with
  | false =>
      rw [onConnectionEvent_inactive ha]
      exact calm_onWindowEvent w _
  | true =>
      by_cases hk : (normalizeConnectionEvent result error).kind = .connected
      · rw [onConnectionEvent_connected ha hk]
        have hflags : ReflTransGen (Calm Q) w
            { disarmTimers w false with
              ctl := { (disarmTimers w false).ctl with expectDisconnect := false } } :=
          (ReflTransGen.single (.disarm w)).tail (.flags _ false w.ctl.pendingFailureMessage
            w.ctl.autoCascadeAfterTest)
        exact (hflags.tail (.succeed _ ha)).trans (calm_handleConnected _)
      · cases ht : terminal (normalizeConnectionEvent result error).kind with
        | false =>
            rw [onConnectionEvent_other ha hk ht]
        | true =>
            rw [onConnectionEvent_terminal ha ht]
            simp only [terminalResponse]
            split
            · exact .head (.flags w false w.ctl.pendingFailureMessage w.ctl.autoCascadeAfterTest)
                (calm_window rfl rfl rfl rfl)
            · split
              · split
                · exact .head (.flags w w.ctl.expectDisconnect
                    (normalizeConnectionEvent result error).error w.ctl.autoCascadeAfterTest)
                    (calm_updateBanner _)
                · obtain ⟨hp, htime⟩ := failing_failureReason (normalizeConnectionEvent result error)
                  exact hnext w _ _ _ hp htime
              · exact .refl

theorem calm_deliverQuiet (w : World) (d : Delivery) : ReflTransGen (Calm Q) w (deliverQuiet w d) :=
  (calm_pass w d.after).trans (calm_onConnectionEvent _ (fun _ _ _ _ _ _ => .refl) _ _ _)

theorem calm_foldl {ε : Type} {deliver : World → ε → World}
    (hd : ∀ w event, ReflTransGen (Calm Q) w (deliver w event)) (events : List ε) (w : World) :
    ReflTransGen (Calm Q) w (events.foldl deliver w) := by
  induction events generalizing w with
  | nil => exact .refl
  | cons event events ih => exact (hd w event).trans (ih _)

theorem calm_callDisconnect (hp : w.ctl.active = true → w.ctl.phase = .settling) (reply : Reply Delivery) :
    ReflTransGen (Calm Q) w (callDisconnect w reply) :=
  .head (.down w hp) (calm_foldl calm_deliverQuiet reply.events _)

theorem settling_callDisconnect (hp : w.ctl.active = true → w.ctl.phase = .settling)
    (reply : Reply Delivery)
    (ha : (callDisconnect w reply).ctl.active = true) : (callDisconnect w reply).ctl.phase = .settling := by
  cases hw : w.ctl.active with
  | false =>
      have hi := congrArg AttemptLedger.Ledger.active (ledger_callDisconnect_inactive hw reply)
      exact Bool.noConfusion (ha.symm.trans (hi.trans hw))
  | true =>
      have hs := hp hw
      have hl := ledger_callDisconnect_settling hw (by rw [hs]; decide) reply
      split_ifs at hl
      · exact Bool.noConfusion (ha.symm.trans (congrArg AttemptLedger.Ledger.active hl))
      · exact (congrArg AttemptLedger.Ledger.phase hl).trans hs

theorem calm_left (e : DropEnv) (ha : w.ctl.active = true) (reason : AttemptResult)
    (code message : Option String) :
    ReflTransGen (Calm Q) (leaveCandidate w e.closing reason code message)
      (advance e w reason code message) := by
  have hphase : (leaveCandidate w e.closing reason code message).ctl.phase = .settling := rfl
  generalize hl : leaveCandidate w e.closing reason code message = left at hphase
  have hsettle : ReflTransGen (Calm Q) left (armSettle left) := .single (.settle left fun _ => hphase)
  have hnote : ReflTransGen (Calm Q) left (left.record (.polled e.status)) := calm_note _ rfl left
  simp only [advance, ha, hl, Bool.not_true, Bool.false_eq_true, if_false]
  split
  · exact hsettle
  · split
    · have hcall := calm_callDisconnect (Q := Q) (w := left.record (.polled e.status)) (fun _ => hphase)
        e.disconnect
      refine (hnote.trans hcall).tail (.settle _ fun hactive => ?_)
      exact settling_callDisconnect (w := left.record _) (fun _ => hphase) e.disconnect hactive
    · exact hnote.tail (.settle _ fun _ => hphase)

theorem calm_advance (e : DropEnv) (w : World) {reason : AttemptResult} (code message : Option String)
    (hp : failing reason = true) (ht : w.ctl.active = true → reason = .timeout →
      w.ctl.deadline ≤ w.clock ∨ Q w.ctl (w.clock + e.closing)) :
    ReflTransGen (Calm Q) w (advance e w reason code message) := by
  cases ha : w.ctl.active with
  | false =>
      rw [advance_inactive ha]
  | true => exact .head (.leave w e.closing reason code message ha hp (ht ha)) (calm_left e ha reason code message)

theorem calm_advance_event (e : DropEnv) (w : World) (reason : AttemptResult) (code message : Option String)
    (hp : failing reason = true) (ht : reason ≠ .timeout) :
    ReflTransGen (Calm Q) w (advance e w reason code message) :=
  calm_advance e w code message hp fun _ htime => absurd htime ht

theorem calm_cancelOperation (w : World) : ReflTransGen (Calm Q) w (cancelOperation w) := by
  simp only [cancelOperation]
  split
  · exact calm_note _ rfl w
  · exact .refl

/-- The rest of `finish` for a cancelled run: the tunnel that is still up goes. -/
theorem calm_finishCancelled (w : World) (restoreConnectUi : Bool) (e : DropEnv) :
    ReflTransGen (Calm Q) (closeCancelled w e.closing) (finishCancelled w restoreConnectUi e) := by
  have hinactive : (closeCancelled w e.closing).ctl.active = false := by
    rw [closeCancelled, completeActiveAttempt_eq]
    rfl
  have hnote : ReflTransGen (Calm Q) (closeCancelled w e.closing)
      ((closeCancelled w e.closing).record (.polled e.status)) := calm_note _ rfl _
  simp only [finishCancelled]
  rw [← closeCancelled]
  generalize closeCancelled w e.closing = closed at hinactive hnote ⊢
  split
  · split
    · let quiet := { closed.record (.polled e.status) with
        win := { closed.win with manualDisconnect := true } }
      have hquiet : ReflTransGen (Calm Q) closed quiet := hnote.trans (calm_window rfl rfl rfl rfl)
      have hend : (callDisconnect quiet e.disconnect).ctl.active = false :=
        (congrArg AttemptLedger.Ledger.active
          (ledger_callDisconnect_inactive (w := quiet) hinactive e.disconnect)).trans hinactive
      have hcall := calm_callDisconnect (Q := Q) (w := quiet)
        (fun ha => Bool.noConfusion (hinactive.symm.trans ha)) e.disconnect
      exact (hquiet.trans hcall).tail (.ended _ hend)
    · exact hnote.tail (.ended _ hinactive)
  · exact .single (.ended _ hinactive)

theorem calm_cancel (w : World) (e : DropEnv) : ReflTransGen (Calm Q) w (cancel w e) := by
  simp only [cancel]
  split
  · exact .refl
  · have hoperation := calm_cancelOperation (Q := Q) w
    exact (hoperation.tail (.cancelled (cancelOperation w) e.closing)).trans (calm_finishCancelled _ true e)

def MayTimeOut (Q : Controller → Time → Prop) (w : World) (gen : Nat) (e : TimeoutEnv) : Prop :=
  w.ctl.active = true → gen = w.ctl.gen → e.busy = false →
    w.ctl.deadline ≤ w.clock ∨ Q { w.ctl with timeoutId := none } (w.clock + e.drop.closing)

theorem calm_onTimeout {gen : Nat} {e : TimeoutEnv} (hq : MayTimeOut Q w gen e) :
    ReflTransGen (Calm Q) w (onTimeout w gen e) := by
  simp only [onTimeout]
  refine .head (.forgetTimeout w) ?_
  split
  · exact .refl
  · rename_i hrun
    simp only [Bool.or_eq_true, Bool.not_eq_true', decide_eq_true_eq, not_or, Bool.not_eq_false,
      not_not, ne_eq] at hrun
    split
    · exact ((calm_pass _ e.now).tail (.extend _ rfl)).tail (.arm _ e.arming)
    · rename_i hbusy
      exact calm_advance e.drop _ _ _ rfl fun ha _ => hq ha hrun.2 (Bool.eq_false_iff.mpr hbusy)

theorem calm_updateConnectButtonTimer (w : World) (dt : Time) (e : TimeoutEnv) :
    ReflTransGen (Calm Q) w (updateConnectButtonTimer w dt e) := by
  simp only [updateConnectButtonTimer]
  split
  · exact .refl
  · split
    · rename_i hdue
      exact (calm_pass w dt).trans (calm_onTimeout fun _ _ _ => .inl hdue)
    · exact calm_pass w dt

theorem calm_onTick (w : World) (gen : Nat) (e : TickEnv) : ReflTransGen (Calm Q) w (onTick w gen e).1 := by
  simp only [onTick]
  split
  · exact .refl
  · split
    · exact .single (.freeze w)
    · split
      · rename_i hdue
        exact (calm_pass w e.now).trans (calm_onTimeout fun _ _ _ => .inl hdue)
      · exact ((calm_pass w e.now).trans (calm_updateBanner _)).trans (calm_updateConnectButtonTimer _ _ _)

theorem calm_triggerSpeedTest (w : World) : ReflTransGen (Calm Q) w (triggerSpeedTest w) := by
  simp only [triggerSpeedTest]
  split
  · exact calm_window rfl rfl rfl rfl
  · split
    · exact calm_window rfl rfl rfl rfl
    · exact .refl

theorem calm_onSortToggled (w : World) (on : Bool) : ReflTransGen (Calm Q) w (onSortToggled w on) := by
  have hsort : ReflTransGen (Calm Q) w { w with win := { w.win with sortBySpeedActive := on } } :=
    calm_window rfl rfl rfl rfl
  simp only [onSortToggled]
  split
  · exact hsort.trans (calm_triggerSpeedTest _)
  · exact hsort

theorem calm_activateSort (w : World) : ReflTransGen (Calm Q) w (activateSort w) := by
  simp only [activateSort]
  split
  · exact .refl
  · exact calm_onSortToggled w true

theorem calm_signalsConnect (w : World) (e : ConnectEnv) :
    ReflTransGen (Calm Q) w (signalsConnect w e) := by
  simp only [signalsConnect]
  split
  · exact .refl
  · split
    · exact calm_cancel w e.cancel
    · rename_i hinactive
      split
      · have hquiet : ReflTransGen (Calm Q) w { w with win := { w.win with manualDisconnect := true } } :=
          calm_window rfl rfl rfl rfl
        refine (hquiet.trans (calm_cancelOperation _)).trans (.trans ?_ (calm_handleDisconnected _))
        exact calm_window rfl rfl rfl rfl
      · split
        · exact .refl
        · split
          · let quiet := { w with win := { w.win with manualDisconnect := true } }
            have hquiet : ReflTransGen (Calm Q) w quiet := calm_window rfl rfl rfl rfl
            exact hquiet.trans (calm_callDisconnect (w := quiet) (fun ha => absurd ha hinactive)
              e.disconnect)
          · split
            · exact calm_window rfl rfl rfl rfl
            · rename_i config _
              split
              · exact calm_window rfl rfl rfl rfl
              · refine .trans ?_ (calm_foldl calm_deliverQuiet e.connect.events _)
                refine .trans ?_ (calm_note (.connect none config) rfl _)
                exact calm_window rfl rfl rfl rfl

theorem calm_triggerReconnect (w : World) (e : ConnectEnv) :
    ReflTransGen (Calm Q) w (triggerReconnect w e) := by
  simp only [triggerReconnect]
  split
  · exact .refl
  · split
    · exact .refl
    · exact calm_signalsConnect w e

theorem calm_prepareCandidate (w : World) (filename : String) (e : TryEnv) :
    ∃ u, ReflTransGen (Calm Q) (openAttempt w filename e.now) u ∧
      prepareCandidate w filename e = armTimeoutAndTicks u e.arming := by
  refine ⟨_, ?_, rfl⟩
  have hbutton := calm_updateConnectButtonTimer (Q := Q) (openAttempt w filename e.now) e.button e.timeout
  generalize updateConnectButtonTimer (openAttempt w filename e.now) e.button e.timeout = u at hbutton ⊢
  let shown := { u with
    ctl := { u.ctl with expectDisconnect := false }
    win := { u.win with manualDisconnect := false } }
  have hshown : ReflTransGen (Calm Q) u shown :=
    .head (.flags u false u.ctl.pendingFailureMessage u.ctl.autoCascadeAfterTest)
      (calm_window rfl rfl rfl rfl)
  have hselect : ReflTransGen (Calm Q) shown (selectServerByName shown filename) := by
    refine calm_window (selectServerByName_ctl shown filename) ?_ (selectServerByName_clock shown filename)
      (selectServerByName_trace shown filename)
    simp only [selectServerByName]
    split <;> rfl
  exact ((hbutton.trans hshown).trans hselect).trans (calm_updateBanner _)

end

section

theorem moves_of_calm (h : ReflTransGen (Calm Q) w t) : ReflTransGen (Move P Q) w t :=
  ReflTransGen.mono (fun _ _ => Move.calm) w t h

theorem turns_of_moves (h : ReflTransGen (Move P Q) w t) : ReflTransGen (Turn P Q) w t :=
  ReflTransGen.mono (fun _ _ => Turn.move) w t h

theorem turns_of_calm (h : ReflTransGen (Calm Q) w t) : ReflTransGen (Turn P Q) w t :=
  turns_of_moves (moves_of_calm h)

theorem moves_callConnect {position : Nat} {filename : String} (hu : untried w.trace = some position)
    (hq : w.ctl.queue[position]? = some filename) (hc : Connecting w) (reply : Reply (Delivery × DropEnv)) :
    ReflTransGen (Move P Q) w (callConnect (setDisconnectRetries w 0) position filename reply) := by
  refine .head (.connect w position filename hu hq fun ho => (hc ho).1) (moves_of_calm ?_)
  refine calm_foldl (fun u d => ?_) reply.events _
  refine (calm_pass u d.1.after).trans (calm_onConnectionEvent _ ?_ _ _ _)
  exact fun v reason code message hp ht => calm_advance_event d.2 v reason code message hp ht

theorem moves_connectCandidate {position : Nat} {filename : String} (hu : untried w.trace = some position)
    (hq : w.ctl.queue[position]? = some filename) (hc : Connecting w) (e : TryEnv) :
    ReflTransGen (Move P Q) w (connectCandidate w position filename e) := by
  simp only [connectCandidate]
  split
  · cases ha : w.ctl.active with
    | false =>
        rw [advance_inactive (w := setDisconnectRetries w 0) ha]
        exact .single (.calm (.reset w ha))
    | true =>
        exact .head (.calm (.missing w e.drop.closing _ _ ha))
          (moves_of_calm (calm_left (w := setDisconnectRetries w 0) e.drop ha _ _ _))
  · have hcall := moves_callConnect (P := P) (Q := Q) hu hq hc e.connect
    split
    · exact hcall.trans
        (moves_of_calm (calm_advance_event e.drop _ .error _ _ rfl AttemptResult.noConfusion))
    · exact hcall

theorem moves_retryDisconnect (hu : untried w.trace ≠ none) (e : TryEnv) :
    ReflTransGen (Move P Q) w (retryDisconnect w e) := by
  simp only [retryDisconnect]
  split
  · rename_i hretries
    have hretried : Calm Q w (setDisconnectRetries w (w.ctl.disconnectRetries + 1)) := .retried w hretries
    exact moves_of_calm
      (.head hretried (calm_advance_event e.drop _ .disconnect none none rfl AttemptResult.noConfusion))
  · rename_i hretries
    let waiting := awaitDisconnect (setDisconnectRetries w (w.ctl.disconnectRetries + 1))
    have hwait : Move P Q w waiting := .retry w hu (Nat.le_of_not_lt hretries)
    have hcall : ReflTransGen (Move P Q) w (callDisconnect waiting e.disconnect) :=
      .head hwait (moves_of_calm (calm_callDisconnect (w := waiting) (fun _ => rfl) e.disconnect))
    split
    · exact hcall.trans
        (moves_of_calm (calm_advance_event e.drop _ .error _ _ rfl AttemptResult.noConfusion))
    · refine hcall.tail (.calm (.settle _ fun ha => ?_))
      exact settling_callDisconnect (w := waiting) (fun _ => rfl) e.disconnect ha

theorem moves_startCandidate {position : Nat} {filename : String} (hu : untried w.trace = some position)
    (hq : w.ctl.queue[position]? = some filename) (hc : Connecting w) (e : TryEnv) :
    ReflTransGen (Move P Q) w (startCandidate w position filename e) := by
  have hfail : ∀ (u : World) (message : String),
      ReflTransGen (Move P Q) u (advance e.drop u .error (some "backend_error") (some message)) :=
    fun u message => moves_of_calm (calm_advance_event e.drop u .error _ _ rfl AttemptResult.noConfusion)
  have hpoll : ReflTransGen (Move P Q) w (w.record (.polled e.status)) := moves_of_calm (calm_note _ rfl w)
  have hsome : untried (w.record (.polled e.status)).trace ≠ none := hu ▸ Option.some_ne_none position
  simp only [startCandidate]
  split
  · exact hfail w _
  · split
    · exact hpoll.trans (hfail _ _)
    · split
      · exact hpoll.trans (moves_retryDisconnect hsome e)
      · exact hpoll.trans (moves_connectCandidate (w := w.record (.polled e.status)) hu hq hc e)

theorem moves_opened (ha : w.ctl.active = true) {filename : String}
    (hq : w.ctl.queue[w.ctl.index]? = some filename) (hn : filename ≠ "") (e : TryEnv) :
    ∃ u, ReflTransGen (Calm Q) (openAttempt w filename e.now) u ∧
      ReflTransGen (Move P Q) (armTimeoutAndTicks u e.arming) (tryCurrentServer w e) := by
  obtain ⟨u, hopen, hready⟩ := calm_prepareCandidate (Q := Q) w filename e
  have harm : ReflTransGen (Calm Q) (openAttempt w filename e.now) (armTimeoutAndTicks u e.arming) :=
    hopen.tail (.arm u e.arming)
  obtain ⟨hu, hqueue⟩ := untried_calm harm
  have hc := connecting_calm harm (connecting_openAttempt w hn e.now)
  refine ⟨u, hopen, ?_⟩
  simp only [tryCurrentServer, ha, hq, hready, Bool.not_true, Bool.false_eq_true, if_false]
  split
  · exact .single (.calm (.exhaust _))
  · refine moves_startCandidate (hu.trans rfl) ?_ hc e
    rw [hqueue]
    exact hq

theorem moves_tryCurrentServer (hn : "" ∉ w.ctl.queue)
    (hp : w.ctl.active = true → attemptOpen w.ctl = true → P w.ctl) (e : TryEnv) :
    ReflTransGen (Move P Q) w (tryCurrentServer w e) := by
  cases ha : w.ctl.active with
  | false =>
      simp only [tryCurrentServer, ha, Bool.not_false, if_true]
      exact .refl
  | true =>
      cases hq : w.ctl.queue[w.ctl.index]? with
      | none =>
          simp only [tryCurrentServer, ha, hq, Bool.not_true, Bool.false_eq_true, if_false]
          exact .single (.calm (.exhaust w))
      | some filename =>
          have hname : filename ≠ "" := fun he => hn (he ▸ List.mem_of_getElem? hq)
          obtain ⟨u, hopen, hrest⟩ := moves_opened (P := P) (Q := Q) ha hq hname e
          exact .head (.attempt w u filename e.now e.arming ha hq (hp ha) hopen) hrest

theorem moves_onSettle (hn : "" ∉ w.ctl.queue) {gen : Nat} (hp : w.ctl.active = true → gen = w.ctl.gen →
    attemptOpen w.ctl = true → P { w.ctl with settleId := none }) (e : TryEnv) :
    ReflTransGen (Move P Q) { w with ctl := { w.ctl with settleId := none } } (onSettle w gen e) := by
  simp only [onSettle]
  split
  · rename_i hrun
    obtain ⟨ha, hgen⟩ := Bool.and_eq_true_iff.mp hrun
    exact moves_tryCurrentServer (w := { w with ctl := { w.ctl with settleId := none } }) hn
      (fun _ => hp ha (of_decide_eq_true hgen)) e
  · exact .refl

theorem attempts_of_recorded {u v : World} (h : (ledger v).recorded = (ledger u).recorded)
    (hu : u.ctl.attempts = []) : v.ctl.attempts = [] := by
  have hl : v.ctl.attempts.map ConnectionAttempt.configId =
    u.ctl.attempts.map ConnectionAttempt.configId := h
  rw [hu] at hl
  exact List.map_eq_nil_iff.mp hl

theorem unopened {u : World} (hu : u.ctl.attempts = []) (ho : attemptOpen u.ctl = true) : P u.ctl :=
  Bool.noConfusion ((attemptOpen_nil hu).symm.trans ho)

theorem moves_disconnectFirst (ha : w.ctl.active = true) (hw : w.ctl.attempts = []) (hn : "" ∉ w.ctl.queue)
    (e : StartEnv) :
    ReflTransGen (Move P Q) w
      (let w := awaitDisconnect w
      if e.startWatch.isSome then tryCurrentServer w e.attempt
      else
        let w := callDisconnect w e.disconnect
        if e.disconnect.raises.isSome then tryCurrentServer w e.attempt else armSettle w) := by
  have hwait : ReflTransGen (Move P Q) w (awaitDisconnect w) := .single (.calm (.await w hw))
  simp only
  split
  · exact hwait.trans (moves_tryCurrentServer (w := awaitDisconnect w) hn (fun _ => unopened hw) e.attempt)
  · have hcalm := calm_callDisconnect (Q := Q) (w := awaitDisconnect w) (fun _ => rfl) e.disconnect
    have hcall := hwait.trans (moves_of_calm hcalm)
    have hnamed : "" ∉ (callDisconnect (awaitDisconnect w) e.disconnect).ctl.queue :=
      (untried_calm hcalm).2 ▸ hn
    have hempty : (callDisconnect (awaitDisconnect w) e.disconnect).ctl.attempts = [] := by
      refine attempts_of_recorded (u := awaitDisconnect w) ?_ hw
      rw [ledger_callDisconnect_settling (w := awaitDisconnect w) ha
        (fun hc => CascadePhase.noConfusion hc)]
      split <;> rfl
    split
    · exact hcall.trans (moves_tryCurrentServer hnamed (fun _ => unopened hempty) e.attempt)
    · refine hcall.tail (.calm (.settle _ fun hactive => ?_))
      exact settling_callDisconnect (w := awaitDisconnect w) (fun _ => rfl) e.disconnect hactive

theorem turns_begin {queue : List String} (hq : queue ≠ []) (hn : "" ∉ queue)
    (hp : w.ctl.active = true → w.ctl.phase = .preparing) (e : StartEnv) :
    ReflTransGen (Turn P Q) w (begin w queue e) := by
  have hload : ReflTransGen (Turn P Q) w (loadQueue w queue) := .single (.load w queue hq hn hp)
  have hempty : (loadQueue w queue).ctl.attempts = [] := rfl
  have hactive : (loadQueue w queue).ctl.active = true := rfl
  have hnamed : "" ∉ (loadQueue w queue).ctl.queue := hn
  refine hload.trans (turns_of_moves ?_)
  simp only [begin]
  generalize loadQueue w queue = loaded at hempty hactive hnamed ⊢
  have hpoll : ReflTransGen (Move P Q) loaded (loaded.record (.polled e.status)) :=
    moves_of_calm (calm_note _ rfl loaded)
  split
  · exact moves_tryCurrentServer hnamed (fun _ => unopened hempty) e.attempt
  · split
    · exact hpoll.trans (moves_tryCurrentServer (w := loaded.record (.polled e.status)) hnamed
        (fun _ => unopened (u := loaded) hempty) e.attempt)
    · exact hpoll.trans (moves_disconnectFirst (w := loaded.record (.polled e.status)) hactive hempty
        hnamed e)

theorem turns_startFromVisibleList (hp : w.ctl.active = true → w.ctl.phase = .preparing) (e : StartEnv) :
    ReflTransGen (Turn P Q) w (startFromVisibleList w e) := by
  simp only [startFromVisibleList]
  split
  · split
    · exact .single (.move (.calm (.exhaust w)))
    · exact .refl
  · rename_i first rest hqueue
    split
    · split
      · rename_i ha
        exact turns_of_calm (.head (.adopt w w.win.selected (hp ha)) (.single (.succeed _ ha)))
      · exact .refl
    · refine turns_begin (List.cons_ne_nil first rest) (fun hm => ?_) hp e
      exact (mem_buildCascadeQueue (hqueue ▸ hm)).2 rfl

theorem turns_start (w : World) (e : StartEnv) : ReflTransGen (Turn P Q) w (start w e) := by
  simp only [start]
  split
  · exact .refl
  · rename_i ha
    have ha : w.ctl.active = false := by simpa using ha
    split
    · exact .refl
    · split
      · let marked := { w with ctl := { w.ctl with autoCascadeAfterTest := true } }
        have hmark : ReflTransGen (Turn P Q) w marked :=
          turns_of_calm (.single (.flags w w.ctl.expectDisconnect w.ctl.pendingFailureMessage true))
        have hprepare : ReflTransGen (Turn P Q) w (showPreparing marked) := hmark.tail (.prepare marked ha)
        split
        · exact hprepare.trans (turns_of_calm (calm_triggerSpeedTest _))
        · exact hprepare.trans (turns_of_calm (calm_activateSort _))
      · exact turns_startFromVisibleList (fun hactive => Bool.noConfusion (ha.symm.trans hactive)) e

theorem turns_toggle (w : World) (cancelling : DropEnv) (e : StartEnv) :
    ReflTransGen (Turn P Q) w (toggle w cancelling e) := by
  simp only [toggle]
  split
  · exact turns_of_calm (calm_cancel w cancelling)
  · exact turns_start w e

theorem turns_startAfterTest (w : World) (e : StartEnv) :
    ReflTransGen (Turn P Q) w (startAfterTest w e) := by
  simp only [startAfterTest]
  split
  · have hflags : ReflTransGen (Turn P Q) w
        { w with ctl := { w.ctl with autoCascadeAfterTest := false } } :=
      turns_of_calm (.single (.flags w w.ctl.expectDisconnect w.ctl.pendingFailureMessage false))
    split
    · rename_i hrun
      refine hflags.trans (turns_startFromVisibleList (fun _ => ?_) e)
      exact of_decide_eq_true (Bool.and_eq_true_iff.mp hrun).2
    · exact hflags
  · exact .refl

theorem turns_onSpeedTestComplete (w : World) (latencies : Latencies) (cancelling : DropEnv)
    (e : StartEnv) : ReflTransGen (Turn P Q) w (onSpeedTestComplete w latencies cancelling e) := by
  simp only [onSpeedTestComplete]
  refine .trans ?_ (turns_startAfterTest _ e)
  split
  · exact turns_of_calm (calm_window rfl rfl rfl rfl)
  · have hdone : ReflTransGen (Calm Q) w { w with win := { w.win with speedTestRunning := false } } :=
      calm_window rfl rfl rfl rfl
    split
    · refine turns_of_calm ((hdone.trans (calm_cancel _ cancelling)).trans ?_)
      exact calm_window rfl rfl rfl rfl
    · exact turns_of_calm (calm_window rfl rfl rfl rfl)

/-- The conditions under which a dispatched source does no more than `P` and `Q`
allow. -/
def Allowed (P : Controller → Prop) (Q : Controller → Time → Prop) (w : World) (e : FireEnv) :
    Callback → Prop
  | .timeout gen => MayTimeOut Q w gen e.timeout
  | .settle gen => w.ctl.active = true → gen = w.ctl.gen → attemptOpen w.ctl = true →
      P { w.ctl with settleId := none }
  | .tick _ | .reconnect _ => True

def unregister (w : World) : Callback → World
  | .settle _ => { w with ctl := { w.ctl with settleId := none } }
  | .timeout _ | .tick _ | .reconnect _ => w

theorem moves_fire (hn : "" ∉ w.ctl.queue) (source : Source Callback) {e : FireEnv}
    (h : Allowed P Q w e source.callback) :
    ReflTransGen (Move P Q) (unregister w source.callback) (fire w source e) := by
  simp only [fire]
  cases hc : source.callback with
  | timeout gen =>
      rw [hc] at h
      exact (moves_of_calm (calm_onTimeout h)).tail (.calm (.drop _ source.id))
  | tick gen =>
      have htick := calm_onTick (Q := Q) w gen e.tick
      simp only
      split
      · exact (moves_of_calm htick).tail (.calm (.rearm _ source.id w.clock))
      · exact (moves_of_calm htick).tail (.calm (.drop _ source.id))
  | settle gen =>
      rw [hc] at h
      exact (moves_onSettle hn h e.attempt).tail (.calm (.drop _ source.id))
  | reconnect lost =>
      exact (moves_of_calm (calm_triggerReconnect w e.connect)).tail (.calm (.drop _ source.id))

def StepAllowed (P : Controller → Prop) (Q : Controller → Time → Prop) (w : World) : Action → Prop
  | .fire id after e => ∀ source, due? w.sched id (w.clock + after) = some source →
      Allowed P Q (w.pass after) e source.callback
  | _ => True

theorem stepAllowed_of_settle (hQ : ∀ c now, Q c now) {a : Action}
    (hs : ∀ id after e source gen, a = .fire id after e → due? w.sched id (w.clock + after) = some source →
      source.callback = .settle gen → w.ctl.active = true → gen = w.ctl.gen → attemptOpen w.ctl = true →
        P { w.ctl with settleId := none }) : StepAllowed P Q w a := by
  cases a with
  | fire id after e =>
      intro source hsource
      cases hc : source.callback with
      | timeout gen => exact fun _ _ _ => .inr (hQ _ _)
      | settle gen => exact hs id after e source gen rfl hsource hc
      | tick gen => trivial
      | reconnect lost => trivial
  | backend | load | filter | select | autoReconnect | fastest | cancelCascade | connectClick
  | speedTestClick | sortClick | speedTestDone | event => trivial

theorem stepAllowed_free (w : World) (a : Action) :
    StepAllowed (fun _ => True) (fun _ _ => True) w a :=
  stepAllowed_of_settle (fun _ _ => trivial) fun _ _ _ _ _ _ _ _ _ _ _ => trivial

def dispatched (w : World) : Action → World
  | .fire id after _ => (due? w.sched id (w.clock + after)).elim w fun source => unregister w source.callback
  | _ => w

theorem pass_unregister (w : World) (dt : Time) (callback : Callback) :
    (unregister w callback).pass dt = unregister (w.pass dt) callback := by
  cases callback <;> rfl

theorem steady_unregister (h : Steady w) (callback : Callback) : Steady (unregister w callback) := by
  cases callback with
  | settle gen => exact ⟨h.named, h.newest, h.opened, h.preparing⟩
  | timeout | tick | reconnect => exact h

theorem dispatched_cases (w : World) (a : Action) :
    dispatched w a = w ∨ ∃ callback, dispatched w a = unregister w callback := by
  cases a with
  | fire id after e =>
      simp only [dispatched]
      cases due? w.sched id (w.clock + after) with
      | none => exact .inl rfl
      | some source => exact .inr ⟨source.callback, rfl⟩
  | backend | load | filter | select | autoReconnect | fastest | cancelCascade | connectClick
  | speedTestClick | sortClick | speedTestDone | event => exact .inl rfl

theorem turns_of_step (hn : "" ∉ w.ctl.queue) {a : Action} (ht : step w a = some t)
    (h : StepAllowed P Q w a) : ReflTransGen (Turn P Q) (dispatched w a) t := by
  cases a with
  | backend | load | filter | select | autoReconnect =>
      obtain rfl := Option.some.inj ht
      exact turns_of_calm (calm_window rfl rfl rfl rfl)
  | fastest after cancelling e =>
      obtain rfl := Option.some.inj ht
      exact (turns_of_calm (calm_pass w after)).trans (turns_toggle _ cancelling e)
  | cancelCascade after e =>
      obtain rfl := Option.some.inj ht
      exact turns_of_calm ((calm_pass w after).trans (calm_cancel _ e))
  | connectClick after e =>
      obtain rfl := Option.some.inj ht
      exact turns_of_calm ((calm_pass w after).trans (calm_signalsConnect _ e))
  | speedTestClick =>
      obtain rfl := Option.some.inj ht
      exact turns_of_calm (calm_triggerSpeedTest w)
  | sortClick on =>
      obtain rfl := Option.some.inj ht
      exact turns_of_calm (calm_onSortToggled w on)
  | speedTestDone after latencies cancelling e =>
      simp only [step] at ht
      split at ht
      · obtain rfl := Option.some.inj ht
        exact (turns_of_calm (calm_pass w after)).trans (turns_onSpeedTestComplete _ latencies cancelling e)
      · cases ht
  | event after result error e =>
      obtain rfl := Option.some.inj ht
      refine turns_of_calm ((calm_pass w after).trans (calm_onConnectionEvent _ ?_ _ _ _))
      exact fun u reason code message hp hr => calm_advance_event e u reason code message hp hr
  | fire id after e =>
      obtain ⟨source, hs, rfl⟩ := Option.map_eq_some_iff.mp ht
      have hpass := moves_of_calm (P := P) (calm_pass (Q := Q) (unregister w source.callback) after)
      rw [pass_unregister] at hpass
      simp only [dispatched, hs, Option.elim_some]
      exact turns_of_moves (hpass.trans (moves_fire (w := w.pass after) hn source (h source hs)))

theorem turns_keep {I : World → Prop} (hturn : ∀ u v, I u → Turn P Q u v → I v)
    (h : ReflTransGen (Turn P Q) w t) (hw : I w) : I t := by
  induction h with
  | refl => exact hw
  | tail _ hstep ih => exact hturn _ _ ih hstep

theorem step_keeps {I : World → Prop} (hturn : ∀ u v, I u → Turn P Q u v → I v)
    (hunregister : ∀ u callback, I u → I (unregister u callback)) (hnamed : ∀ u, I u → "" ∉ u.ctl.queue)
    {a : Action} (ht : step w a = some t) (h : StepAllowed P Q w a) (hw : I w) : I t := by
  have hstart : I (dispatched w a) := by
    rcases dispatched_cases w a with heq | ⟨callback, heq⟩ <;> rw [heq]
    · exact hw
    · exact hunregister w callback hw
  exact turns_keep hturn (turns_of_step (hnamed w hw) ht h) hstart

theorem steady_step {a : Action} (hw : Steady w) (ht : step w a = some t) : Steady t :=
  step_keeps (fun _ _ hu h => h.steady hu) (fun _ callback hu => steady_unregister hu callback)
    (fun _ hu => hu.named) ht (stepAllowed_free w a) hw

end

end EovpnPro.CascadePaths
