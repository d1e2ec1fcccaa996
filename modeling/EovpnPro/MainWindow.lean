import EovpnPro.CascadeController

namespace EovpnPro.MainWindow

open AutoConnect Events Sources AppState WindowEvents CascadeController

/-- `MainWindowSignals.connect`, a toggle. An exception of the backend leaves the
handler where it is raised. -/
def signalsConnect (w : World) (e : ConnectEnv) : World :=
  if w.win.manager.isNone then w
  else if w.ctl.active then cancel w e.cancel
  else if w.win.connectionAttemptActive then
    let w := cancelOperation { w with win := { w.win with manualDisconnect := true } }
    handleDisconnected { w with win := { w.win with connectionAttemptActive := false } }
  else if e.startWatch.isSome || e.status.error.isSome then w
  else if e.status.up then
    callDisconnect { w with win := { w.win with manualDisconnect := true } } e.disconnect
  else
    let w := { w with win := { w.win with manualDisconnect := false } }
    match w.win.selected with
    | none => w
    | some config =>
        if config = "" then w
        else
          let w := { w with win := { w.win with connectionAttemptActive := true } }
          e.connect.events.foldl deliverQuiet (w.record (.connect none config))

def triggerReconnect (w : World) (e : ConnectEnv) : World :=
  match w.win.selected with
  | none => w
  | some selected => if selected = "" then w else signalsConnect w e

def startAfterTest (w : World) (e : StartEnv) : World :=
  if w.ctl.autoCascadeAfterTest then
    let w := { w with ctl := { w.ctl with autoCascadeAfterTest := false } }
    if w.ctl.active && w.ctl.phase = .preparing then startFromVisibleList w e else w
  else w

def onSpeedTestComplete (w : World) (latencies : Latencies) (cancelling : DropEnv) (e : StartEnv) : World :=
  let cancelled := w.win.speedTestCancel
  let w := { w with win := { w.win with speedTestRunning := false } }
  let w :=
    if !cancelled then { w with win := { w.win with latencies } }
    else if w.ctl.autoCascadeAfterTest then cancel w cancelling
    else w
  startAfterTest { w with win := { w.win with speedTestSensitive := true } } e

structure FireEnv where
  timeout : TimeoutEnv := {}
  tick : TickEnv := {}
  attempt : TryEnv := {}
  connect : ConnectEnv := {}

inductive Action
  | backend (manager : Option Backend)
  | load (configs : List String)
  | filter (rows : List String)
  | select (name : Option String)
  | autoReconnect (on : Bool)
  | fastest (after : Time) (cancelling : DropEnv) (e : StartEnv)
  | cancelCascade (after : Time) (e : DropEnv)
  | connectClick (after : Time) (e : ConnectEnv)
  | speedTestClick
  | sortClick (on : Bool)
  | speedTestDone (after : Time) (latencies : Latencies) (cancelling : DropEnv) (e : StartEnv)
  | event (after : Time) (result : Result) (error : Option String) (e : DropEnv)
  | fire (id : Nat) (after : Time) (e : FireEnv)

/-- Dispatch a source that is due. The callback's answer decides whether the
source waits for another interval. -/
def fire (w : World) (source : Source Callback) (e : FireEnv) : World :=
  match source.callback with
  | .timeout gen =>
      let w := onTimeout w gen e.timeout
      { w with sched := remove w.sched source.id }
  | .tick gen =>
      let now := w.clock
      let (w, again) := onTick w gen e.tick
      { w with sched := if again then rearm w.sched source.id now else remove w.sched source.id }
  | .settle gen =>
      let w := onSettle w gen e.attempt
      { w with sched := remove w.sched source.id }
  | .reconnect _ =>
      let w := triggerReconnect w e.connect
      { w with sched := remove w.sched source.id }

/-- One dispatch of the main loop: a click, an event, a timer source. -/
def step (w : World) : Action → Option World
  | .backend manager => some { w with win := { w.win with manager } }
  | .load configs => some { w with win := { w.win with configs, rows := configs } }
  | .filter rows => some { w with win := { w.win with rows } }
  | .select selected => some { w with win := { w.win with selected } }
  | .autoReconnect autoReconnect => some { w with win := { w.win with autoReconnect } }
  | .fastest after cancelling e => some (toggle (w.pass after) cancelling e)
  | .cancelCascade after e => some (cancel (w.pass after) e)
  | .connectClick after e => some (signalsConnect (w.pass after) e)
  | .speedTestClick => some (triggerSpeedTest w)
  | .sortClick on => some (onSortToggled w on)
  | .speedTestDone after latencies cancelling e =>
      if w.win.speedTestRunning then
        some (onSpeedTestComplete (w.pass after) latencies cancelling e)
      else none
  | .event after result error e => some (onConnectionEvent (advance e) (w.pass after) result error)
  | .fire id after e =>
      (due? w.sched id (w.clock + after)).map (fun source => fire (w.pass after) source e)

def initial : World := {}

end EovpnPro.MainWindow
