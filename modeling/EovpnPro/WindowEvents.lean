import EovpnPro.AppState

namespace EovpnPro.WindowEvents

open AutoConnect Events Sources AppState

/-- The configuration of the tunnel that came up last: the one the latest
connect call before it was for. -/
def tunnelConfig : List Act → Option String
  | [] => none
  | .up :: older => older.findSome? fun
      | .connect _ config => some config
      | _ => none
  | _ :: older => tunnelConfig older

/-- The backend has been asked to disconnect since the last tunnel came up. -/
def askedSinceUp : List Act → Bool
  | [] => false
  | .up :: _ => false
  | .disconnect :: _ => true
  | _ :: older => askedSinceUp older

def selectServerByName (w : World) (filename : String) : World :=
  if filename ∈ w.win.rows then { w with win := { w.win with selected := some filename } } else w

@[simp] theorem selectServerByName_ctl (w : World) (filename : String) :
    (selectServerByName w filename).ctl = w.ctl := by
  simp only [selectServerByName]
  split <;> rfl

@[simp] theorem selectServerByName_clock (w : World) (filename : String) :
    (selectServerByName w filename).clock = w.clock := by
  simp only [selectServerByName]
  split <;> rfl

@[simp] theorem selectServerByName_trace (w : World) (filename : String) :
    (selectServerByName w filename).trace = w.trace := by
  simp only [selectServerByName]
  split <;> rfl

def triggerSpeedTest (w : World) : World :=
  if w.win.speedTestRunning then
    { w with win := { w.win with speedTestCancel := true, speedTestSensitive := false } }
  else if w.win.speedTestSensitive then
    { w with win := { w.win with speedTestCancel := false, speedTestRunning := true } }
  else w

def onSortToggled (w : World) (active : Bool) : World :=
  let w := { w with win := { w.win with sortBySpeedActive := active } }
  if active && w.win.latencies.isEmpty then triggerSpeedTest w else w

/-- `sort_btn.set_active(True)`: the button emits only when its state changes. -/
def activateSort (w : World) : World :=
  if w.win.sortBySpeedActive then w else onSortToggled w true

@[simp] theorem triggerSpeedTest_trace (w : World) : (triggerSpeedTest w).trace = w.trace := by
  simp only [triggerSpeedTest]
  split
  · rfl
  · split <;> rfl

@[simp] theorem onSortToggled_trace (w : World) (active : Bool) :
    (onSortToggled w active).trace = w.trace := by
  simp only [onSortToggled]
  split
  · exact triggerSpeedTest_trace _
  · rfl

@[simp] theorem activateSort_trace (w : World) : (activateSort w).trace = w.trace := by
  simp only [activateSort]
  split
  · rfl
  · exact onSortToggled_trace w true

theorem triggerSpeedTest_rest (w : World) :
    (triggerSpeedTest w).ctl = w.ctl ∧ (triggerSpeedTest w).sched = w.sched := by
  rw [triggerSpeedTest]
  split_ifs <;> exact ⟨rfl, rfl⟩

theorem onSortToggled_rest (w : World) (on : Bool) :
    (onSortToggled w on).ctl = w.ctl ∧ (onSortToggled w on).sched = w.sched := by
  rw [onSortToggled]
  dsimp only
  split_ifs
  · exact triggerSpeedTest_rest { w with win := { w.win with sortBySpeedActive := on } }
  · exact ⟨rfl, rfl⟩

theorem trigger_running (hr : w.win.speedTestRunning = true) :
    (triggerSpeedTest w).win.speedTestRunning = true ∧ (triggerSpeedTest w).win.speedTestCancel = true := by
  rw [triggerSpeedTest, if_pos hr]
  exact ⟨hr, rfl⟩

theorem trigger_idle (hr : w.win.speedTestRunning = false) (hs : w.win.speedTestSensitive = true) :
    (triggerSpeedTest w).win.speedTestRunning = true ∧
      (triggerSpeedTest w).win.speedTestCancel = false := by
  rw [triggerSpeedTest, if_neg (Bool.eq_false_iff.mp hr), if_pos hs]
  exact ⟨rfl, rfl⟩

def handleConnected (w : World) : World :=
  { w.record .up with
    win := { w.win with
      connectionAttemptActive := false
      wasConnected := true
      lastConnected := w.win.selected } }

def shouldReconnect (w : World) : Bool :=
  w.win.wasConnected && w.win.autoReconnect && !w.win.manualDisconnect && !w.ctl.active

def handleDisconnected (w : World) : World :=
  let win := { w.win with
    wasConnected := false, connectionAttemptActive := false, manualDisconnect := false }
  if shouldReconnect w then
    { w.record .scheduled with
      win
      sched := add w.sched w.clock (3 * second) (.reconnect (tunnelConfig w.trace)) }
  else { w with win }

@[simp] theorem handleDisconnected_ctl (w : World) : (handleDisconnected w).ctl = w.ctl := by
  simp only [handleDisconnected]
  split <;> rfl

theorem handleDisconnected_attempt (w : World) :
    (handleDisconnected w).win.connectionAttemptActive = false := by
  simp only [handleDisconnected]
  split_ifs <;> rfl

theorem handleDisconnected_trace (w : World) :
    (handleDisconnected w).trace = if shouldReconnect w then .scheduled :: w.trace else w.trace := by
  simp only [handleDisconnected]
  split <;> rfl

/-- The regular transitions of `MainWindow.on_connection_event`. -/
def onWindowEvent (w : World) (event : ConnectionEvent) : World :=
  match event.kind with
  | .failed | .disconnected => handleDisconnected w
  | .connected => handleConnected w
  | .progress | .paused | .resumed => w

@[simp] theorem onWindowEvent_ctl (w : World) (event : ConnectionEvent) :
    (onWindowEvent w event).ctl = w.ctl := by
  simp only [onWindowEvent]
  split
  · exact handleDisconnected_ctl w
  · exact handleDisconnected_ctl w
  all_goals rfl

theorem onWindowEvent_trace (w : World) (event : ConnectionEvent) :
    (onWindowEvent w event).trace = w.trace ∨ (onWindowEvent w event).trace = .up :: w.trace ∨
      (onWindowEvent w event).trace = .scheduled :: w.trace := by
  have hd := handleDisconnected_trace w
  simp only [onWindowEvent]
  split
  · split_ifs at hd
    · exact .inr (.inr hd)
    · exact .inl hd
  · split_ifs at hd
    · exact .inr (.inr hd)
    · exact .inl hd
  · exact .inr (.inl rfl)
  all_goals exact .inl rfl

end EovpnPro.WindowEvents
