import EovpnPro.CascadeLedger
import EovpnPro.Runs
import EovpnPro.Traces

namespace EovpnPro.ManualDisconnect

open AutoConnect Events Sources AppState WindowEvents CascadeController MainWindow CascadeLedger Runs Traces

variable {w v : World} {q : Bool}

def deliberate (older : List Act) : Act → Bool
  | .scheduled => askedSinceUp older
  | _ => false

def OnlyLost : List Act → Prop := Always fun older act => deliberate older act = false

instance (trace : List Act) : Decidable (OnlyLost trace) := inferInstanceAs (Decidable (Always _ trace))

def Forgotten (w : World) : Prop := shouldReconnect w = true ∧ askedSinceUp w.trace = true

def losesFirst : List Delivery → Bool
  | [] => false
  | d :: events =>
      let kind := (normalizeConnectionEvent d.result d.error).kind
      terminal kind || (decide (kind ≠ .connected) && losesFirst events)

/-- The window takes no terminal event while it has forgotten that the
disconnect was asked for. With `q` the manual flag counts as remembering. -/
def Remembers (q : Bool) (w : World) : Prop :=
  w.ctl.active = true ∨ askedSinceUp w.trace = false ∨ w.win.wasConnected = false ∨
    w.win.autoReconnect = false ∨ (q = true ∧ w.win.manualDisconnect = true)

structure Kept (q : Bool) (w : World) : Prop where
  only : OnlyLost w.trace
  remembers : Remembers q w

theorem Kept.weaken (h : Kept false w) : Kept true w := by
  refine ⟨h.only, ?_⟩
  rcases h.remembers with h | h | h | h | h
  · exact .inl h
  · exact .inr (.inl h)
  · exact .inr (.inr (.inl h))
  · exact .inr (.inr (.inr (.inl h)))
  · exact Bool.noConfusion h.1

theorem forgotten_iff (w : World) : Forgotten w ↔ ¬ Remembers true w := by
  simp only [Forgotten, Remembers, shouldReconnect, Bool.and_eq_true, Bool.not_eq_true', not_or, true_and,
    Bool.not_eq_true, Bool.not_eq_false]
  tauto

theorem not_forgotten (h : Kept q w) : ¬ Forgotten w := by
  rw [forgotten_iff, not_not]
  cases q with
  | true => exact h.remembers
  | false => exact h.weaken.remembers

theorem handleDisconnected_only (h : OnlyLost w.trace) (hf : ¬ Forgotten w) :
    OnlyLost (handleDisconnected w).trace := by
  rw [handleDisconnected_trace]
  split_ifs with hs
  · exact ⟨Bool.eq_false_iff.mpr fun ha => hf ⟨hs, ha⟩, h⟩
  · exact h

theorem handleDisconnected_wasConnected (w : World) : (handleDisconnected w).win.wasConnected = false := by
  simp only [handleDisconnected]
  split_ifs <;> rfl

theorem Kept.handleDisconnected (h : Kept q w) : Kept q (handleDisconnected w) :=
  ⟨handleDisconnected_only h.only (not_forgotten h), .inr (.inr (.inl (handleDisconnected_wasConnected w)))⟩

theorem Kept.handleConnected (h : OnlyLost w.trace) : Kept q (handleConnected w) :=
  ⟨⟨rfl, h⟩, .inr (.inl rfl)⟩

theorem Kept.onWindowEvent (h : Kept q w) (event : ConnectionEvent) : Kept q (onWindowEvent w event) := by
  simp only [WindowEvents.onWindowEvent]
  split
  · exact h.handleDisconnected
  · exact h.handleDisconnected
  · exact Kept.handleConnected h.only
  all_goals exact h

theorem Kept.of_active (h : OnlyLost w.trace) (ha : w.ctl.active = true) : Kept q w := ⟨h, .inl ha⟩

theorem Kept.frame (h : Kept q w) (ht : v.trace = w.trace) (ha : v.ctl.active = w.ctl.active)
    (hw : v.win.wasConnected = w.win.wasConnected) (hr : v.win.autoReconnect = w.win.autoReconnect)
    (hm : v.win.manualDisconnect = w.win.manualDisconnect) : Kept q v := by
  refine ⟨ht ▸ h.only, ?_⟩
  simp only [Remembers, ht, ha, hw, hr, hm]
  exact h.remembers

@[simp] theorem selectServerByName_wasConnected (w : World) (filename : String) :
    (selectServerByName w filename).win.wasConnected = w.win.wasConnected := by
  simp only [selectServerByName]
  split <;> rfl

@[simp] theorem selectServerByName_autoReconnect (w : World) (filename : String) :
    (selectServerByName w filename).win.autoReconnect = w.win.autoReconnect := by
  simp only [selectServerByName]
  split <;> rfl

@[simp] theorem selectServerByName_manualDisconnect (w : World) (filename : String) :
    (selectServerByName w filename).win.manualDisconnect = w.win.manualDisconnect := by
  simp only [selectServerByName]
  split <;> rfl

@[simp] theorem updateBanner_wasConnected (w : World) :
    (updateBanner w).win.wasConnected = w.win.wasConnected := by
  simp only [updateBanner]
  split
  · split <;> simp
  · rfl

@[simp] theorem updateBanner_autoReconnect (w : World) :
    (updateBanner w).win.autoReconnect = w.win.autoReconnect := by
  simp only [updateBanner]
  split
  · split <;> simp
  · rfl

@[simp] theorem updateBanner_manualDisconnect (w : World) :
    (updateBanner w).win.manualDisconnect = w.win.manualDisconnect := by
  simp only [updateBanner]
  split
  · split <;> simp
  · rfl

theorem Kept.updateBanner (h : Kept q w) : Kept q (updateBanner w) :=
  h.frame (updateBanner_trace w) (congrArg Controller.active (updateBanner_ctl w))
    (updateBanner_wasConnected w)
    (updateBanner_autoReconnect w) (updateBanner_manualDisconnect w)

theorem Kept.terminalResponse (h : Kept q w) (ha : w.ctl.active = true) {next : Advance}
    (hn : ∀ r c m, Kept q (next w r c m)) (event : ConnectionEvent) :
    Kept q (terminalResponse next w event) := by
  simp only [CascadeController.terminalResponse]
  split_ifs
  · exact .of_active h.only ha
  · exact Kept.updateBanner (.of_active h.only ha)
  · exact hn _ _ _
  · exact h

theorem Kept.onConnectionEvent (h : Kept q w) {next : Advance} (hn : ∀ r c m, Kept q (next w r c m))
    (result : Result) (error : Option String) : Kept q (onConnectionEvent next w result error) := by
  cases ha : w.ctl.active with
  | false =>
      rw [onConnectionEvent_inactive ha]
      exact h.onWindowEvent _
  | true =>
      by_cases hk : (normalizeConnectionEvent result error).kind = .connected
      · rw [onConnectionEvent_connected ha hk]
        apply Kept.handleConnected
        rw [finishSucceeded_trace]
        exact ⟨rfl, h.only⟩
      · cases ht : terminal (normalizeConnectionEvent result error).kind with
        | false => rw [onConnectionEvent_other ha hk ht]; exact h
        | true => rw [onConnectionEvent_terminal ha ht]; exact h.terminalResponse ha hn _

theorem Kept.deliveries (h : Kept q w) (events : List Delivery) : Kept q (events.foldl deliverQuiet w) := by
  induction events generalizing w with
  | nil => exact h
  | cons d events ih =>
      have hp : Kept q (w.pass d.after) := ⟨h.only, h.remembers⟩
      exact ih (hp.onConnectionEvent (fun _ _ _ => hp) d.result d.error)

theorem Kept.callDisconnect (h : OnlyLost w.trace)
    (ha : w.ctl.active = true ∨ (q = true ∧ w.win.manualDisconnect = true)) (reply : Reply Delivery) :
    Kept q (callDisconnect w reply) := by
  have hw : Kept q (w.record .disconnect) := by
    refine ⟨⟨rfl, h⟩, ?_⟩
    rcases ha with ha | ha
    · exact .inl ha
    · exact .inr (.inr (.inr (.inr ha)))
  exact hw.deliveries reply.events

theorem Kept.advance (h : Kept q w) (e : DropEnv) (reason : AttemptResult) (code message : Option String) :
    Kept q (advance e w reason code message) := by
  cases ha : w.ctl.active with
  | false => rw [advance_inactive ha]; exact h
  | true =>
      have hl := congrArg AttemptLedger.Ledger.active (ledger_leaveCandidate w e.closing reason code message)
      have hv : OnlyLost (leaveCandidate w e.closing reason code message).trace :=
        ⟨rfl, (failCurrent_trace w e.closing reason code message).symm ▸ h.only⟩
      have hi : (!w.ctl.active) = false := by rw [ha]; rfl
      have hl : (leaveCandidate w e.closing reason code message).ctl.active = true := hl.trans ha
      simp only [CascadeController.advance, hi, Bool.false_eq_true, if_false]
      generalize leaveCandidate w e.closing reason code message = u at hl hv
      split_ifs
      · exact .of_active hv hl
      · have hd : Kept q (CascadeController.callDisconnect (u.record (.polled e.status)) e.disconnect) :=
          Kept.callDisconnect (w := u.record (.polled e.status)) ⟨rfl, hv⟩ (.inl hl) e.disconnect
        exact ⟨hd.only, hd.remembers⟩
      · exact .of_active ⟨rfl, hv⟩ hl

theorem Kept.callConnect (h : Kept q w) (position : Nat) (filename : String)
    (reply : Reply (Delivery × DropEnv)) : Kept q (callConnect w position filename reply) := by
  have hv : Kept q (w.record (.connect (some position) filename)) := ⟨⟨rfl, h.only⟩, h.remembers⟩
  simp only [CascadeController.callConnect]
  generalize w.record (.connect (some position) filename) = u at hv
  induction reply.events generalizing u with
  | nil => exact hv
  | cons d events ih =>
      have hp : Kept q (u.pass d.1.after) := ⟨hv.only, hv.remembers⟩
      exact ih _ (hp.onConnectionEvent (fun r c m => hp.advance d.2 r c m) d.1.result d.1.error)

theorem Kept.onTimeout (h : Kept q w) (gen : Nat) (e : TimeoutEnv) : Kept q (onTimeout w gen e) := by
  have hv : Kept q { w with ctl := { w.ctl with timeoutId := none } } := ⟨h.only, h.remembers⟩
  simp only [CascadeController.onTimeout]
  split_ifs
  · exact hv
  · exact ⟨h.only, h.remembers⟩
  · exact hv.advance _ _ _ _

theorem Kept.updateConnectButtonTimer (h : Kept q w) (dt : Time) (e : TimeoutEnv) :
    Kept q (updateConnectButtonTimer w dt e) := by
  have hp : Kept q (w.pass dt) := ⟨h.only, h.remembers⟩
  simp only [CascadeController.updateConnectButtonTimer]
  split_ifs
  · exact h
  · exact hp.onTimeout _ e
  · exact hp

theorem Kept.onTick (h : Kept q w) (gen : Nat) (e : TickEnv) : Kept q (onTick w gen e).1 := by
  have hp : Kept q (w.pass e.now) := ⟨h.only, h.remembers⟩
  simp only [CascadeController.onTick]
  split_ifs
  · exact h
  · exact ⟨h.only, h.remembers⟩
  · exact hp.onTimeout gen e.timeout
  · exact hp.updateBanner.updateConnectButtonTimer e.button e.timeout

theorem Kept.armTimeoutAndTicks (h : Kept q w) (dt : Time) : Kept q (armTimeoutAndTicks w dt) :=
  ⟨h.only, h.remembers⟩

theorem Kept.prepareCandidate (h : Kept false w) (ha : w.ctl.active = true) (filename : String) (e : TryEnv) :
    Kept false (prepareCandidate w filename e) := by
  have ho : Kept false (openAttempt w filename e.now) := .of_active ⟨rfl, h.only⟩ ha
  have hu := ho.updateConnectButtonTimer e.button e.timeout
  simp only [CascadeController.prepareCandidate]
  generalize CascadeController.updateConnectButtonTimer (openAttempt w filename e.now) e.button
    e.timeout = u at hu
  have hm : Kept false { u with
      ctl := { u.ctl with expectDisconnect := false }
      win := { u.win with manualDisconnect := false } } := by
    refine ⟨hu.only, ?_⟩
    rcases hu.remembers with hr | hr | hr | hr | hr
    · exact .inl hr
    · exact .inr (.inl hr)
    · exact .inr (.inr (.inl hr))
    · exact .inr (.inr (.inr (.inl hr)))
    · exact Bool.noConfusion hr.1
  have hs := hm.frame (v := selectServerByName _ filename) (selectServerByName_trace _ _)
    (congrArg Controller.active (selectServerByName_ctl _ _)) (selectServerByName_wasConnected _ _)
    (selectServerByName_autoReconnect _ _) (selectServerByName_manualDisconnect _ _)
  exact hs.updateBanner.armTimeoutAndTicks e.arming

theorem Kept.retryDisconnect (h : Kept true w) (e : TryEnv) : Kept true (retryDisconnect w e) := by
  have hr : Kept true (setDisconnectRetries w (w.ctl.disconnectRetries + 1)) := ⟨h.only, h.remembers⟩
  simp only [CascadeController.retryDisconnect]
  generalize setDisconnectRetries w (w.ctl.disconnectRetries + 1) = u at hr
  have hd : Kept true (CascadeController.callDisconnect (awaitDisconnect u) e.disconnect) :=
    Kept.callDisconnect (w := awaitDisconnect u) hr.only (.inr ⟨rfl, rfl⟩) e.disconnect
  split_ifs
  · exact hr.advance _ _ _ _
  · split
    · exact hd.advance _ _ _ _
    · exact ⟨hd.only, hd.remembers⟩

theorem Kept.connectCandidate (h : Kept q w) (position : Nat) (filename : String) (e : TryEnv) :
    Kept q (connectCandidate w position filename e) := by
  have hr : Kept q (setDisconnectRetries w 0) := ⟨h.only, h.remembers⟩
  have hc := hr.callConnect position filename e.connect
  simp only [CascadeController.connectCandidate]
  split_ifs
  · exact hr.advance _ _ _ _
  · split
    · exact hc.advance _ _ _ _
    · exact hc

theorem Kept.startCandidate (h : Kept true w) (position : Nat) (filename : String) (e : TryEnv) :
    Kept true (startCandidate w position filename e) := by
  have hp : Kept true (w.record (.polled e.status)) := ⟨⟨rfl, h.only⟩, h.remembers⟩
  simp only [CascadeController.startCandidate]
  split
  · exact h.advance _ _ _ _
  · split
    · exact hp.advance _ _ _ _
    · split_ifs
      · exact hp.retryDisconnect e
      · exact hp.connectCandidate position filename e

theorem tryCurrentServer_only (h : Kept false w) (e : TryEnv) : OnlyLost (tryCurrentServer w e).trace := by
  simp only [tryCurrentServer]
  split_ifs with ha
  · exact h.only
  · split
    · rw [finishExhausted_trace]
      exact ⟨rfl, h.only⟩
    · next filename _ =>
        have hp := h.prepareCandidate (by simpa using ha) filename e
        split_ifs
        · rw [finishExhausted_trace]
          exact ⟨rfl, hp.only⟩
        · exact (hp.weaken.startCandidate _ filename e).only

theorem begin_only (h : OnlyLost w.trace) (queue : List String) (e : StartEnv) :
    OnlyLost (begin w queue e).trace := by
  have hq : Kept false (loadQueue w queue) := .of_active ⟨rfl, h⟩ rfl
  have hp : Kept false ((loadQueue w queue).record (.polled e.status)) := .of_active ⟨rfl, hq.only⟩ rfl
  have ha : Kept false (awaitDisconnect ((loadQueue w queue).record (.polled e.status))) :=
    .of_active hp.only rfl
  have hd := Kept.callDisconnect (q := false) ha.only (.inl rfl) e.disconnect
  simp only [begin]
  split_ifs
  · exact tryCurrentServer_only hq e.attempt
  · exact tryCurrentServer_only hp e.attempt
  · exact tryCurrentServer_only ha e.attempt
  · exact tryCurrentServer_only hd e.attempt
  · exact hd.only

theorem startFromVisibleList_only (h : OnlyLost w.trace) (e : StartEnv) :
    OnlyLost (startFromVisibleList w e).trace := by
  simp only [startFromVisibleList]
  split
  · split_ifs
    · rw [finishExhausted_trace]
      exact ⟨rfl, h⟩
    · exact h
  · split_ifs
    · rw [finishSucceeded_trace]
      exact ⟨rfl, h⟩
    · exact h
    · exact begin_only h _ e

theorem start_only (h : OnlyLost w.trace) (e : StartEnv) : OnlyLost (start w e).trace := by
  simp only [start]
  split_ifs
  · exact h
  · exact h
  · rw [triggerSpeedTest_trace]; exact h
  · rw [activateSort_trace]; exact h
  · exact startFromVisibleList_only h e

theorem finishCancelled_only (h : OnlyLost w.trace) (restore : Bool) (e : DropEnv) :
    OnlyLost (finishCancelled w restore e).trace := by
  have ht := completeActiveAttempt_trace ((endRun w .cancelled).pass e.closing) .cancelled
    (some "cancelled") (some "Auto-connect cancelled by the user.")
  simp only [finishCancelled]
  generalize completeActiveAttempt _ _ _ _ = u at ht ⊢
  have hu : OnlyLost u.trace := ht.symm ▸ h
  split_ifs
  · have hd := Kept.callDisconnect (q := true) (w := { u.record (.polled e.status) with
      win := { u.win with manualDisconnect := true } }) ⟨rfl, hu⟩ (.inr ⟨rfl, rfl⟩) e.disconnect
    exact ⟨rfl, hd.only⟩
  · exact ⟨rfl, rfl, hu⟩
  · exact ⟨rfl, hu⟩

theorem cancelOperation_only (h : OnlyLost w.trace) : OnlyLost (cancelOperation w).trace := by
  simp only [cancelOperation]
  split_ifs
  · exact ⟨rfl, h⟩
  · exact h

theorem cancel_only (h : OnlyLost w.trace) (e : DropEnv) : OnlyLost (cancel w e).trace := by
  have ho := cancelOperation_only h
  simp only [cancel]
  split_ifs
  · exact h
  · generalize cancelOperation w = u at ho ⊢
    exact finishCancelled_only
      (w := { u with ctl := { u.ctl with autoCascadeAfterTest := false, gen := u.ctl.gen + 1 } }) ho true e

theorem startAfterTest_only (h : OnlyLost w.trace) (e : StartEnv) : OnlyLost (startAfterTest w e).trace := by
  simp only [startAfterTest]
  split_ifs
  · exact startFromVisibleList_only (w := { w with ctl := { w.ctl with autoCascadeAfterTest := false } }) h e
  · exact h
  · exact h

theorem onSpeedTestComplete_only (h : OnlyLost w.trace) (latencies : Latencies) (cancelling : DropEnv)
    (e : StartEnv) : OnlyLost (onSpeedTestComplete w latencies cancelling e).trace := by
  simp only [onSpeedTestComplete]
  apply startAfterTest_only
  split_ifs
  · exact h
  · exact cancel_only (w := { w with win := { w.win with speedTestRunning := false } }) h cancelling
  · exact h

theorem handleDisconnected_iff (h : OnlyLost w.trace) :
    OnlyLost (handleDisconnected w).trace ↔ ¬ Forgotten w := by
  refine ⟨fun ht hf => ?_, handleDisconnected_only h⟩
  rw [handleDisconnected_trace, if_pos hf.1] at ht
  exact absurd (hf.2.symm.trans ht.1) Bool.noConfusion

theorem onWindowEvent_iff (h : OnlyLost w.trace) (event : ConnectionEvent) :
    OnlyLost (onWindowEvent w event).trace ↔ (terminal event.kind = true → ¬ Forgotten w) := by
  simp only [onWindowEvent]
  cases event.kind with
  | failed | disconnected => simpa [terminal] using handleDisconnected_iff h
  | connected => exact iff_of_true ⟨rfl, h⟩ fun ht => Bool.noConfusion ht
  | progress | paused | resumed => exact iff_of_true h fun ht => Bool.noConfusion ht

theorem deliverQuiet_inactive (ha : w.ctl.active = false) (d : Delivery) :
    deliverQuiet w d = onWindowEvent (w.pass d.after) (normalizeConnectionEvent d.result d.error) :=
  onConnectionEvent_inactive (w := w.pass d.after) ha _ _ _

theorem deliveries_reflect (ha : w.ctl.active = false) (events : List Delivery)
    (h : OnlyLost (events.foldl deliverQuiet w).trace) : OnlyLost w.trace := by
  induction events generalizing w with
  | nil => exact h
  | cons d events ih =>
      have hd := deliverQuiet_inactive ha d
      have hd' : (deliverQuiet w d).ctl.active = false := by rw [hd, onWindowEvent_ctl]; exact ha
      have ht := ih hd' h
      rw [hd] at ht
      rcases onWindowEvent_trace (w.pass d.after)
        (normalizeConnectionEvent d.result d.error) with hw | hw | hw
      · rw [hw] at ht; exact ht
      · rw [hw] at ht; exact ht.2
      · rw [hw] at ht; exact ht.2

theorem deliveries_iff (h : OnlyLost w.trace) (ha : w.ctl.active = false) (events : List Delivery) :
    OnlyLost (events.foldl deliverQuiet w).trace ↔ (losesFirst events = true → ¬ Forgotten w) := by
  by_cases hf : Forgotten w
  · induction events generalizing w with
    | nil => exact iff_of_true h fun hl => Bool.noConfusion hl
    | cons d events ih =>
        have hd := deliverQuiet_inactive ha d
        have hw := onWindowEvent_iff (w := w.pass d.after) h (normalizeConnectionEvent d.result d.error)
        rw [← hd] at hw
        simp only [List.foldl_cons, losesFirst]
        cases hk : (normalizeConnectionEvent d.result d.error).kind with
        | failed | disconnected =>
            refine iff_of_false (fun hl => ?_) fun hl => hl rfl hf
            have hi : (deliverQuiet w d).ctl.active = false := by rw [hd, onWindowEvent_ctl]; exact ha
            exact hw.mp (deliveries_reflect hi events hl) (by rw [hk]; rfl) hf
        | connected =>
            refine iff_of_true ?_ fun hl => Bool.noConfusion hl
            rw [hd, show onWindowEvent (w.pass d.after) _ = handleConnected (w.pass d.after) by
              simp only [onWindowEvent, hk]]
            exact (Kept.deliveries (q := true) (Kept.handleConnected (w := w.pass d.after) h) events).only
        | progress | paused | resumed =>
            have hs : deliverQuiet w d = w.pass d.after := by rw [hd]; simp only [onWindowEvent, hk]
            rw [hs]
            exact ih (w := w.pass d.after) h ha hf
  · have hk : Kept true w := ⟨h, not_not.mp fun hr => hf ((forgotten_iff w).mpr hr)⟩
    exact iff_of_true (hk.deliveries events).only fun _ => hf

/-- The connect branch of the toggle clears the manual flag. When the tunnel
that was up has been asked to go, the first decisive event that connecting
delivers is not a terminal one. -/
def ConnectRemembers (w : World) (e : ConnectEnv) : Prop :=
  w.win.manager.isNone = false → w.ctl.active = false → w.win.connectionAttemptActive = false →
    (e.startWatch.isSome || e.status.error.isSome) = false → e.status.up = false →
      (∃ config, w.win.selected = some config ∧ config ≠ "") →
        losesFirst e.connect.events = true →
          ¬ (w.win.wasConnected = true ∧ w.win.autoReconnect = true ∧ askedSinceUp w.trace = true)

theorem signalsConnect_iff (h : OnlyLost w.trace) (e : ConnectEnv) :
    OnlyLost (signalsConnect w e).trace ↔ ConnectRemembers w e := by
  simp only [signalsConnect, ConnectRemembers]
  split_ifs with hm ha hc hr hu
  · exact iff_of_true h fun hn => absurd (hn.symm.trans hm) Bool.false_ne_true
  · exact iff_of_true (cancel_only h e.cancel) fun _ hn => absurd (hn.symm.trans ha) Bool.false_ne_true
  · refine iff_of_true ?_ fun _ _ hn => absurd (hn.symm.trans hc) Bool.false_ne_true
    have ho := cancelOperation_only (w := { w with win := { w.win with manualDisconnect := true } }) h
    have hw := cancelOperation_win { w with win := { w.win with manualDisconnect := true } }
    generalize cancelOperation _ = u at ho hw ⊢
    have hk : Kept true { u with win := { u.win with connectionAttemptActive := false } } :=
      ⟨ho, .inr (.inr (.inr (.inr ⟨rfl, congrArg Window.manualDisconnect hw⟩)))⟩
    exact hk.handleDisconnected.only
  · exact iff_of_true h fun _ _ _ hn => absurd (hn.symm.trans hr) Bool.false_ne_true
  · have hd := Kept.callDisconnect (q := true)
      (w := { w with win := { w.win with manualDisconnect := true } }) h
      (.inr ⟨rfl, rfl⟩) e.disconnect
    exact iff_of_true hd.only fun _ _ _ _ hn => absurd (hn.symm.trans hu) Bool.false_ne_true
  · have ha : w.ctl.active = false := by simpa using ha
    split
    · next hn =>
        refine iff_of_true h fun _ _ _ _ _ hs => ?_
        obtain ⟨config, hs, -⟩ := hs
        exact absurd (hn.symm.trans hs) (Option.some_ne_none _).symm
    · next config hs =>
        split_ifs with hne
        · refine iff_of_true h fun _ _ _ _ _ hs' => ?_
          obtain ⟨other, ho, hne'⟩ := hs'
          exact absurd (hne ▸ Option.some.inj (ho.symm.trans hs)) hne'
        · have hd := deliveries_iff (w := { w with
            win := { w.win with manualDisconnect := false, connectionAttemptActive := true } }.record
              (.connect none config)) (show OnlyLost (.connect none config :: w.trace) from ⟨rfl, h⟩) ha
            e.connect.events
          refine hd.trans ⟨fun hl _ _ _ _ _ _ hf hw => hl hf ?_, fun hl hf hw => ?_⟩
          · simpa [Forgotten, shouldReconnect, askedSinceUp, ha, and_assoc] using hw
          · refine hl (Bool.eq_false_iff.mpr hm) ha (by simpa using hc) (by simpa using hr)
              (by simpa using hu)
              ⟨config, hs, hne⟩ hf ?_
            simpa [Forgotten, shouldReconnect, askedSinceUp, ha, and_assoc] using hw

theorem triggerReconnect_only_iff (h : OnlyLost w.trace) (e : ConnectEnv) :
    OnlyLost (triggerReconnect w e).trace ↔ ConnectRemembers w e := by
  simp only [triggerReconnect]
  split
  · next hn =>
      refine iff_of_true h fun _ _ _ _ _ hs => ?_
      obtain ⟨config, hs, -⟩ := hs
      exact absurd (hn.symm.trans hs) (Option.some_ne_none _).symm
  · next config hs =>
      split_ifs with hne
      · refine iff_of_true h fun _ _ _ _ _ hs' => ?_
        obtain ⟨other, ho, hne'⟩ := hs'
        exact absurd (hne ▸ Option.some.inj (ho.symm.trans hs)) hne'
      · exact signalsConnect_iff h e

/-- The condition of one step. A terminal event finds a window that has not
forgotten that the disconnect was asked for. -/
def StepRemembers (w : World) : Action → Prop
  | .event _ result error _ => w.ctl.active = false →
      terminal (normalizeConnectionEvent result error).kind = true → ¬ Forgotten w
  | .connectClick _ e => ConnectRemembers w e
  | .fire id after e => ∀ source lost, due? w.sched id (w.clock + after) = some source →
      source.callback = .reconnect lost → ConnectRemembers w e.connect
  | _ => True

theorem fire_only_iff (h : OnlyLost w.trace) (source : Source Callback) (e : FireEnv) :
    OnlyLost (fire w source e).trace ↔ ∀ lost, source.callback = .reconnect lost →
      ConnectRemembers w e.connect := by
  have hk : w.ctl.active = true → Kept false w := fun ha => .of_active h ha
  simp only [fire]
  cases source.callback with
  | timeout gen =>
      refine iff_of_true ?_ fun _ hc => Callback.noConfusion hc
      cases ha : w.ctl.active with
      | true => exact ((hk ha).onTimeout gen e.timeout).only
      | false => simpa [onTimeout, ha] using h
  | tick gen =>
      refine iff_of_true ?_ fun _ hc => Callback.noConfusion hc
      cases ha : w.ctl.active with
      | true => exact ((hk ha).onTick gen e.tick).only
      | false => simpa [onTick, ha] using h
  | settle gen =>
      refine iff_of_true ?_ fun _ hc => Callback.noConfusion hc
      cases ha : w.ctl.active with
      | true =>
          have hs : Kept false { w with ctl := { w.ctl with settleId := none } } := .of_active h ha
          simp only [onSettle]
          split_ifs
          · exact tryCurrentServer_only hs e.attempt
          · exact h
      | false => simpa [onSettle, ha] using h
  | reconnect lost => exact (triggerReconnect_only_iff h e.connect).trans (by simp)

theorem step_only_iff {t : World} (h : OnlyLost w.trace) {a : Action} (ht : step w a = some t) :
    OnlyLost t.trace ↔ StepRemembers w a := by
  cases a with
  | backend | load | filter | select | autoReconnect =>
      obtain rfl := Option.some.inj ht
      exact iff_of_true h trivial
  | fastest after cancelling e =>
      obtain rfl := Option.some.inj ht
      refine iff_of_true ?_ trivial
      simp only [toggle]
      split_ifs
      · exact cancel_only (w := w.pass after) h cancelling
      · exact start_only (w := w.pass after) h e
  | cancelCascade after e =>
      obtain rfl := Option.some.inj ht
      exact iff_of_true (cancel_only (w := w.pass after) h e) trivial
  | connectClick after e =>
      obtain rfl := Option.some.inj ht
      exact signalsConnect_iff (w := w.pass after) h e
  | speedTestClick =>
      obtain rfl := Option.some.inj ht
      exact iff_of_true ((triggerSpeedTest_trace w).symm ▸ h) trivial
  | sortClick on =>
      obtain rfl := Option.some.inj ht
      exact iff_of_true ((onSortToggled_trace w on).symm ▸ h) trivial
  | speedTestDone after latencies cancelling e =>
      simp only [step] at ht
      split_ifs at ht
      obtain rfl := Option.some.inj ht
      exact iff_of_true (onSpeedTestComplete_only (w := w.pass after) h latencies cancelling e) trivial
  | event after result error e =>
      obtain rfl := Option.some.inj ht
      cases ha : w.ctl.active with
      | true =>
          have hk : Kept false (w.pass after) := .of_active h ha
          exact iff_of_true (hk.onConnectionEvent (fun r c m => hk.advance e r c m) result error).only
            fun hi => absurd (hi.symm.trans ha) Bool.false_ne_true
      | false =>
          rw [onConnectionEvent_inactive (w := w.pass after) ha]
          exact (onWindowEvent_iff (w := w.pass after) h _).trans ⟨fun hq _ => hq, fun hq => hq ha⟩
  | fire id after e =>
      obtain ⟨source, hs, rfl⟩ := Option.map_eq_some_iff.mp ht
      refine (fire_only_iff (w := w.pass after) h source e).trans
        ⟨fun hq s lost hs' hl => ?_, fun hq lost hl => ?_⟩
      · obtain rfl := Option.some.inj (hs.symm.trans hs')
        exact hq lost hl
      · exact hq source lost hs hl

/-- In every run, reconnects are scheduled for lost tunnels only exactly when
every terminal event finds the asked disconnect remembered. -/
theorem only_lost_iff (actions : List Action) :
    AllStates step (fun w => OnlyLost w.trace) initial actions ↔
      AllSteps step StepRemembers initial actions :=
  allStates_iff_allSteps (I := fun w => OnlyLost w.trace) (fun _ h => h)
    (fun _ _ _ h ht => (step_only_iff h ht).mpr) (fun _ _ _ h ht => (step_only_iff h ht).mp) actions
    (show OnlyLost [] from trivial)

def lateNotification : List Action :=
  [.backend (some .networkManager), .load ["a.ovpn"], .select (some "a.ovpn"), .autoReconnect true,
    .connectClick 0 {}, .event 0 (.bool true) none {}, .connectClick 0 { status := .answers true },
    .connectClick second {}, .event 0 (.bool false) none {}]

theorem lateNotification_scheduled :
    (run step initial lateNotification).map (fun t => decide (OnlyLost t.trace)) = some false := by
  decide

theorem deliberate_disconnect_reconnects :
    ¬ ∀ actions, AllStates step (fun w => OnlyLost w.trace) initial actions := by
  intro h
  obtain ⟨t, ht, he⟩ := Option.map_eq_some_iff.mp lateNotification_scheduled
  exact of_decide_eq_false he ((h lateNotification).last ht)

end EovpnPro.ManualDisconnect
