import EovpnPro.WindowEvents

namespace EovpnPro.CascadeController

open AutoConnect Events Sources AppState WindowEvents

def attemptOpen (c : Controller) : Bool :=
  (c.activeAttempt.bind (fun k => c.attempts[k]?)).any (fun a => a.finishedAt.isNone)

/-- Python's `text or default`. -/
def orElse (text : Option String) (default : String) : String :=
  match text with
  | some t => if t = "" then default else t
  | none => default

def busy (c : Controller) : Bool := c.active || c.autoCascadeAfterTest

def closeAttempt (now deadline : Time) (result : AttemptResult) (code message : Option String)
    (a : ConnectionAttempt) : ConnectionAttempt :=
  if a.finishedAt.isSome then a
  else { a with
    finishedAt := some now
    elapsedSeconds := now + a.timeoutSeconds - deadline
    result, errorCode := code, errorMessage := message }

def completeActiveAttempt (w : World) (result : AttemptResult) (code message : Option String) : World :=
  match w.ctl.activeAttempt with
  | none => w
  | some k =>
      let attempts := w.ctl.attempts.modify k (closeAttempt w.clock w.ctl.deadline result code message)
      { w with ctl := { w.ctl with attempts } }

@[simp] theorem completeActiveAttempt_trace (w : World) (result : AttemptResult)
    (code message : Option String) :
    (completeActiveAttempt w result code message).trace = w.trace := by
  simp only [completeActiveAttempt]
  split <;> rfl

def setControlsLocked (w : World) (locked : Bool) : World :=
  { w with win := { w.win with speedTestSensitive := !locked } }

def removeSource (s : Scheduler Callback) (id : Option Nat) : Scheduler Callback :=
  match id with
  | none => s
  | some id => remove s id

def disarmTimers (w : World) (keepSettle : Bool) : World :=
  let sched := removeSource (removeSource w.sched w.ctl.timeoutId) w.ctl.tickId
  { w with
    sched := if keepSettle then sched else removeSource sched w.ctl.settleId
    ctl := { w.ctl with
      timeoutId := none
      tickId := none
      settleId := if keepSettle then w.ctl.settleId else none } }

def armTimeoutAndTicks (w : World) (dt : Time) : World :=
  let w := (disarmTimers w false).pass dt
  let remainingMs := max 250 ((w.ctl.deadline - w.clock) / millisecond)
  let armed := add w.sched w.clock (remainingMs * millisecond) (.timeout w.ctl.gen)
  { w with
    sched := add armed w.clock (progressTickMs * millisecond) (.tick w.ctl.gen)
    ctl := { w.ctl with timeoutId := some w.sched.fresh, tickId := some armed.fresh } }

/-- `_arm_settle(self._try_current_server)`. -/
def armSettle (w : World) : World :=
  let sched := removeSource w.sched w.ctl.settleId
  { w with
    sched := add sched w.clock (disconnectSettleMs * millisecond) (.settle w.ctl.gen)
    ctl := { w.ctl with settleId := some sched.fresh } }

/-- The selection part of `_update_banner`. -/
def updateBanner (w : World) : World :=
  match w.ctl.current with
  | some name => if name ≠ "" ∧ w.win.selected ≠ some name then selectServerByName w name else w
  | none => w

@[simp] theorem updateBanner_ctl (w : World) : (updateBanner w).ctl = w.ctl := by
  simp only [updateBanner]
  split
  · split <;> simp
  · rfl

@[simp] theorem updateBanner_clock (w : World) : (updateBanner w).clock = w.clock := by
  simp only [updateBanner]
  split
  · split <;> simp
  · rfl

@[simp] theorem updateBanner_trace (w : World) : (updateBanner w).trace = w.trace := by
  simp only [updateBanner]
  split
  · split <;> simp
  · rfl

/-- What `finish` does for every phase. -/
def endRun (w : World) (phase : CascadePhase) : World :=
  let w := disarmTimers w false
  let ctl := { w.ctl with
    active := false, phase, expectDisconnect := false, autoCascadeAfterTest := false }
  setControlsLocked { w with ctl } false

def finishSucceeded (w : World) : World :=
  (completeActiveAttempt (endRun w .succeeded) .success none none).record (.ended .succeeded)

def finishExhausted (w : World) : World :=
  (completeActiveAttempt (endRun w .exhausted) .backendError (some "no_usable_candidate")
    (some "No usable backend or candidate remained.")).record (.ended .exhausted)

@[simp] theorem finishSucceeded_trace (w : World) :
    (finishSucceeded w).trace = .ended .succeeded :: w.trace :=
  congrArg (Act.ended .succeeded :: ·) (completeActiveAttempt_trace _ _ _ _)

@[simp] theorem finishExhausted_trace (w : World) :
    (finishExhausted w).trace = .ended .exhausted :: w.trace :=
  congrArg (Act.ended .exhausted :: ·) (completeActiveAttempt_trace _ _ _ _)

def failureMarkers : List String :=
  ["auth_failed", "authentication failed", "tls handshake failed", "certificate",
    "permission denied", "invalid configuration", "configuration file", "unsupported",
    "no such file", "backend unavailable"]

def isDefinitiveBackendFailure (errorText : List Char) : Bool :=
  failureMarkers.any (fun marker => PyText.occursIn marker errorText)

def errorText (event : ConnectionEvent) : List Char := PyText.lower (event.error.getD "").toList

def failureReason (event : ConnectionEvent) : AttemptResult :=
  if PyText.occursIn "auth" (errorText event) then .auth
  else if event.error.any (fun e => e ≠ "") then .error
  else .disconnect

def isGenericFailure (event : ConnectionEvent) : Bool :=
  decide (failureReason event = .error) && !isDefinitiveBackendFailure (errorText event)

/-- How `advance` is called: reason, error code and error message. -/
abbrev Advance := World → AttemptResult → Option String → Option String → World

/-- `CascadeController.on_connection_event`, with the `advance` it calls. The
flag tells whether the event is consumed. -/
def onCascadeEvent (advance : Advance) (w : World) (event : ConnectionEvent) : World × Bool :=
  if !w.ctl.active then (w, false)
  else match event.kind with
    | .connected =>
        let w := disarmTimers w false
        (finishSucceeded { w with ctl := { w.ctl with expectDisconnect := false } }, false)
    | .progress => (w, true)
    | .paused | .resumed => (w, false)
    | .failed | .disconnected =>
        if w.ctl.phase = .settling ∧ w.ctl.expectDisconnect then
          ({ w with
            ctl := { w.ctl with expectDisconnect := false }
            win := { w.win with manualDisconnect := true } }, true)
        else if w.ctl.phase = .connecting then
          if isGenericFailure event then
            (updateBanner { w with ctl := { w.ctl with pendingFailureMessage := event.error } }, true)
          else
            let reason := failureReason event
            (advance w reason (some reason.text) event.error, true)
        else (w, true)

def onConnectionEvent (advance : Advance) (w : World) (result : Result) (error : Option String) : World :=
  let event := normalizeConnectionEvent result error
  let (w, consumed) := onCascadeEvent advance w event
  if consumed then w else onWindowEvent w event

def terminal : ConnectionEventKind → Bool
  | .failed | .disconnected => true
  | .connected | .progress | .paused | .resumed => false

theorem onConnectionEvent_inactive {w : World} (hw : w.ctl.active = false) (advance : Advance)
    (result : Result) (error : Option String) :
    onConnectionEvent advance w result error = onWindowEvent w (normalizeConnectionEvent result error) := by
  simp [onConnectionEvent, onCascadeEvent, hw]

theorem onConnectionEvent_connected {w : World} (hw : w.ctl.active = true) {result : Result}
    {error : Option String} (hk : (normalizeConnectionEvent result error).kind = .connected)
    (advance : Advance) :
    onConnectionEvent advance w result error =
      handleConnected (finishSucceeded
        { disarmTimers w false with
          ctl := { (disarmTimers w false).ctl with expectDisconnect := false } }) := by
  simp [onConnectionEvent, onCascadeEvent, onWindowEvent, hw, hk]

theorem onConnectionEvent_other {w : World} (hw : w.ctl.active = true) {result : Result}
    {error : Option String} (hk : (normalizeConnectionEvent result error).kind ≠ .connected)
    (ht : terminal (normalizeConnectionEvent result error).kind = false) (advance : Advance) :
    onConnectionEvent advance w result error = w := by
  revert hk ht
  simp only [onConnectionEvent, onCascadeEvent, onWindowEvent, hw]
  cases (normalizeConnectionEvent result error).kind <;> simp [terminal]

def terminalResponse (advance : Advance) (w : World) (event : ConnectionEvent) : World :=
  if w.ctl.phase = .settling ∧ w.ctl.expectDisconnect then
    { w with
      ctl := { w.ctl with expectDisconnect := false }
      win := { w.win with manualDisconnect := true } }
  else if w.ctl.phase = .connecting then
    if isGenericFailure event then
      updateBanner { w with ctl := { w.ctl with pendingFailureMessage := event.error } }
    else advance w (failureReason event) (some (failureReason event).text) event.error
  else w

theorem onCascadeEvent_terminal {w : World} (hw : w.ctl.active = true) {event : ConnectionEvent}
    (ht : terminal event.kind = true) (advance : Advance) :
    onCascadeEvent advance w event = (terminalResponse advance w event, true) := by
  have hn : (!w.ctl.active) = false := by rw [hw]; rfl
  obtain ⟨kind, text, detail⟩ := event
  simp only [onCascadeEvent, terminalResponse]
  cases kind with
  | failed | disconnected =>
      simp only [hn, Bool.false_eq_true, if_false]
      split_ifs <;> rfl
  | connected | progress | paused | resumed => exact Bool.noConfusion ht

theorem onConnectionEvent_terminal {w : World} (hw : w.ctl.active = true) {result : Result}
    {error : Option String} (ht : terminal (normalizeConnectionEvent result error).kind = true)
    (advance : Advance) :
    onConnectionEvent advance w result error =
      terminalResponse advance w (normalizeConnectionEvent result error) := by
  simp only [onConnectionEvent, onCascadeEvent_terminal hw ht, if_true]

/-- An event that arrives while the controller is inactive or settling. It never
leads to `advance`, whichever that is. -/
def deliverQuiet (w : World) (d : Delivery) : World :=
  onConnectionEvent (fun w _ _ _ => w) (w.pass d.after) d.result d.error

def callDisconnect (w : World) (reply : Reply Delivery) : World :=
  reply.events.foldl deliverQuiet (w.record .disconnect)

def failCurrent (w : World) (closing : Time) (reason : AttemptResult)
    (code message : Option String) : World :=
  match w.ctl.current with
  | none => w
  | some current =>
      if current = "" then w
      else
        let w := { w with ctl := { w.ctl with failures := w.ctl.failures ++ [(current, reason)] } }
        completeActiveAttempt (w.pass closing) reason (some (orElse code reason.text))
          (some (orElse message reason.text))

@[simp] theorem failCurrent_trace (w : World) (closing : Time) (reason : AttemptResult)
    (code message : Option String) : (failCurrent w closing reason code message).trace = w.trace := by
  simp only [failCurrent]
  split
  · rfl
  · split
    · rfl
    · exact completeActiveAttempt_trace _ _ _ _

def leaveCandidate (w : World) (closing : Time) (reason : AttemptResult)
    (code message : Option String) : World :=
  let w := disarmTimers (failCurrent w closing reason code message) false
  let w := w.record (.advance w.ctl.index)
  { w with
    ctl := { w.ctl with index := w.ctl.index + 1, phase := .settling, expectDisconnect := true }
    win := { w.win with manualDisconnect := true } }

def advance (e : DropEnv) : Advance := fun w reason code message =>
  if !w.ctl.active then w
  else
    let w := leaveCandidate w e.closing reason code message
    if w.win.manager.isNone then armSettle w
    else
      let w := w.record (.polled e.status)
      if e.status.up then armSettle (callDisconnect w e.disconnect) else armSettle w

def finishCancelled (w : World) (restoreConnectUi : Bool) (e : DropEnv) : World :=
  let wasPreparing := decide (w.ctl.phase = .preparing)
  let w := completeActiveAttempt ((endRun w .cancelled).pass e.closing) .cancelled
    (some "cancelled") (some "Auto-connect cancelled by the user.")
  let w :=
    if restoreConnectUi && !wasPreparing && w.win.manager.isSome then
      let w := w.record (.polled e.status)
      if e.status.up then
        callDisconnect { w with win := { w.win with manualDisconnect := true } } e.disconnect
      else w
    else w
  w.record (.ended .cancelled)

/-- `manager.cancel_current_operation()`, which only one backend has. -/
def cancelOperation (w : World) : World :=
  if w.win.manager = some .networkManager then w.record .cancelOperation else w

@[simp] theorem cancelOperation_win (w : World) : (cancelOperation w).win = w.win := by
  simp only [cancelOperation]
  split_ifs <;> rfl

def cancel (w : World) (e : DropEnv) : World :=
  if !busy w.ctl then w
  else
    let w := cancelOperation w
    let ctl := { w.ctl with autoCascadeAfterTest := false, gen := w.ctl.gen + 1 }
    finishCancelled { w with ctl } true e

def onTimeout (w : World) (gen : Nat) (e : TimeoutEnv) : World :=
  let w := { w with ctl := { w.ctl with timeoutId := none } }
  if !w.ctl.active || gen ≠ w.ctl.gen then w
  else if e.busy then
    let w := w.pass e.now
    armTimeoutAndTicks { w with ctl := { w.ctl with deadline := w.clock + 4 * second } } e.arming
  else
    advance e.drop w .timeout (some "timeout")
      (some (orElse w.ctl.pendingFailureMessage "Handshake timeout expired."))

def updateConnectButtonTimer (w : World) (dt : Time) (e : TimeoutEnv) : World :=
  if !w.ctl.active || w.ctl.current.isNone then w
  else
    let w := w.pass dt
    if w.ctl.deadline ≤ w.clock then onTimeout w w.ctl.gen e else w

def onTick (w : World) (gen : Nat) (e : TickEnv) : World × Bool :=
  if !w.ctl.active || gen ≠ w.ctl.gen then (w, false)
  else if e.busy then
    ({ w with ctl := { w.ctl with deadline := w.ctl.deadline + progressTickMs * millisecond } }, true)
  else
    let w := w.pass e.now
    if w.ctl.deadline ≤ w.clock then (onTimeout w gen e.timeout, false)
    else (updateConnectButtonTimer (updateBanner w) e.button e.timeout, true)

def openAttempt (w : World) (filename : String) (dt : Time) : World :=
  let timeout := computeAttemptTimeout (w.win.latencies.lookup filename).join
  let w := (w.record (.attempt w.ctl.index)).pass dt
  let attempt : ConnectionAttempt :=
    { configId := filename, startedAt := w.clock, timeoutSeconds := timeout }
  { w with
    ctl := { w.ctl with
      current := some filename
      phase := .connecting
      deadline := w.clock + timeout
      activeAttempt := some w.ctl.attempts.length
      attempts := w.ctl.attempts ++ [attempt]
      pendingFailureMessage := none } }

def setDisconnectRetries (w : World) (retries : Nat) : World :=
  { w with ctl := { w.ctl with disconnectRetries := retries } }

def awaitDisconnect (w : World) : World :=
  { w with
    ctl := { w.ctl with expectDisconnect := true, phase := .settling }
    win := { w.win with manualDisconnect := true } }

/-- The tunnel of an earlier candidate is still up: disconnect it and try the
same candidate again after the settle time, three times at most. -/
def retryDisconnect (w : World) (e : TryEnv) : World :=
  let w := setDisconnectRetries w (w.ctl.disconnectRetries + 1)
  if w.ctl.disconnectRetries > 3 then advance e.drop w .disconnect none none
  else
    let w := callDisconnect (awaitDisconnect w) e.disconnect
    match e.disconnect.raises with
    | some message => advance e.drop w .error (some "backend_error") (some message)
    | none => armSettle w

/-- `manager.connect(path)`, whose events may make the controller advance. -/
def callConnect (w : World) (position : Nat) (filename : String)
    (reply : Reply (Delivery × DropEnv)) : World :=
  reply.events.foldl
    (fun w d => onConnectionEvent (advance d.2) (w.pass d.1.after) d.1.result d.1.error)
    (w.record (.connect (some position) filename))

def connectCandidate (w : World) (position : Nat) (filename : String) (e : TryEnv) : World :=
  let w := setDisconnectRetries w 0
  if !e.isFile then
    advance e.drop w .missing (some "config_missing")
      (some ("Configuration file is missing: " ++ filename))
  else
    let w := callConnect w position filename e.connect
    match e.connect.raises with
    | some message => advance e.drop w .error (some "backend_error") (some message)
    | none => w

def startCandidate (w : World) (position : Nat) (filename : String) (e : TryEnv) : World :=
  match e.startWatch with
  | some message => advance e.drop w .error (some "backend_error") (some message)
  | none =>
      let w := w.record (.polled e.status)
      match e.status.error with
      | some message => advance e.drop w .error (some "backend_error") (some message)
      | none => if e.status.up then retryDisconnect w e else connectCandidate w position filename e

def prepareCandidate (w : World) (filename : String) (e : TryEnv) : World :=
  let w := updateConnectButtonTimer (openAttempt w filename e.now) e.button e.timeout
  let w := { w with
    ctl := { w.ctl with expectDisconnect := false }
    win := { w.win with manualDisconnect := false } }
  armTimeoutAndTicks (updateBanner (selectServerByName w filename)) e.arming

def tryCurrentServer (w : World) (e : TryEnv) : World :=
  if !w.ctl.active then w
  else match w.ctl.queue[w.ctl.index]? with
    | none => finishExhausted w
    | some filename =>
        let position := w.ctl.index
        let w := prepareCandidate w filename e
        if w.win.manager.isNone then finishExhausted w else startCandidate w position filename e

def onSettle (w : World) (gen : Nat) (e : TryEnv) : World :=
  let w := { w with ctl := { w.ctl with settleId := none } }
  if w.ctl.active && gen = w.ctl.gen then tryCurrentServer w e else w

def showPreparing (w : World) : World :=
  { w with
    ctl := { w.ctl with
      active := true
      gen := w.ctl.gen + 1
      phase := .preparing
      queue := []
      index := 0
      current := none } }

def loadQueue (w : World) (queue : List String) : World :=
  setControlsLocked
    { w.record .begin with
      ctl := { w.ctl with
        gen := w.ctl.gen + 1
        active := true
        queue
        index := 0
        failures := []
        attempts := []
        activeAttempt := none
        expectDisconnect := false
        disconnectRetries := 0
        phase := .connecting
        current := none }
      win := { w.win with manualDisconnect := false } } true

def begin (w : World) (queue : List String) (e : StartEnv) : World :=
  let w := loadQueue w queue
  if w.win.manager.isNone then tryCurrentServer w e.attempt
  else
    let w := w.record (.polled e.status)
    if !e.status.up then tryCurrentServer w e.attempt
    else
      let w := awaitDisconnect w
      if e.startWatch.isSome then tryCurrentServer w e.attempt
      else
        let w := callDisconnect w e.disconnect
        if e.disconnect.raises.isSome then tryCurrentServer w e.attempt else armSettle w

def candidateScope (w : World) : List String := w.win.configs.filter (fun name => name ≠ "")

def startFromVisibleList (w : World) (e : StartEnv) : World :=
  match buildCascadeQueue (candidateScope w) w.win.latencies true maxCascadeCandidates with
  | [] => if w.ctl.active then finishExhausted w else w
  | first :: rest =>
      if (w.win.manager.isSome && e.already.up) && w.win.selected = some first then
        if w.ctl.active then finishSucceeded { w with ctl := { w.ctl with current := w.win.selected } }
        else w
      else begin w (first :: rest) e

def start (w : World) (e : StartEnv) : World :=
  if w.ctl.active then w
  else if (candidateScope w).isEmpty then w
  else if w.win.latencies.isEmpty then
    let w := showPreparing { w with ctl := { w.ctl with autoCascadeAfterTest := true } }
    if w.win.sortBySpeedActive then triggerSpeedTest w else activateSort w
  else startFromVisibleList w e

def toggle (w : World) (cancelling : DropEnv) (e : StartEnv) : World :=
  if busy w.ctl then cancel w cancelling else start w e

end EovpnPro.CascadeController
