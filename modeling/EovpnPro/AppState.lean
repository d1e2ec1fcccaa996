import EovpnPro.AutoConnect
import EovpnPro.Events
import EovpnPro.OpenVpn3Status
import EovpnPro.Sources

namespace EovpnPro.AppState

open AutoConnect Events Sources

/-- The results an attempt can be closed with; the failing ones are also the
reasons that `advance` is called with. -/
inductive AttemptResult
  | pending
  | timeout
  | auth
  | error
  | disconnect
  | missing
  | backendError
  | cancelled
  | success
  deriving DecidableEq, Repr

def AttemptResult.text : AttemptResult → String
  | pending => "pending"
  | timeout => "timeout"
  | auth => "auth"
  | error => "error"
  | disconnect => "disconnect"
  | missing => "missing"
  | backendError => "backend_error"
  | cancelled => "cancelled"
  | success => "success"

structure ConnectionAttempt where
  configId : String
  startedAt : Time
  timeoutSeconds : Time
  finishedAt : Option Time := none
  elapsedSeconds : Time := 0
  result : AttemptResult := .pending
  errorCode : Option String := none
  errorMessage : Option String := none
  deriving DecidableEq, Repr

/-- The fields of `CascadeController`. The active attempt is a position in
`attempts`, since both refer to the same record. -/
structure Controller where
  active : Bool := false
  autoCascadeAfterTest : Bool := false
  phase : CascadePhase := .idle
  gen : Nat := 0
  queue : List String := []
  index : Nat := 0
  deadline : Time := 0
  current : Option String := none
  failures : List (String × AttemptResult) := []
  attempts : List ConnectionAttempt := []
  activeAttempt : Option Nat := none
  expectDisconnect : Bool := false
  disconnectRetries : Nat := 0
  pendingFailureMessage : Option String := none
  timeoutId : Option Nat := none
  tickId : Option Nat := none
  settleId : Option Nat := none
  deriving DecidableEq, Repr

inductive Backend
  | networkManager
  | openVpn3
  deriving DecidableEq, Repr

/-- The fields of `MainWindow` that connecting reads or writes, with the
settings and the backend record that it looks up. -/
structure Window where
  manager : Option Backend := none
  configs : List String := []
  rows : List String := []
  latencies : Latencies := []
  selected : Option String := none
  manualDisconnect : Bool := false
  connectionAttemptActive : Bool := false
  wasConnected : Bool := false
  autoReconnect : Bool := false
  lastConnected : Option String := none
  sortBySpeedActive : Bool := false
  speedTestRunning : Bool := false
  speedTestCancel : Bool := false
  speedTestSensitive : Bool := true
  deriving DecidableEq, Repr

/-- What a timer source calls. The cascade's closures keep the generation they
were made in. A reconnect source carries, for the statements only, the
configuration whose tunnel was lost when it was armed. -/
inductive Callback
  | timeout (gen : Nat)
  | tick (gen : Nat)
  | settle (gen : Nat)
  | reconnect (lost : Option String)
  deriving DecidableEq, Repr

/-- What `manager.status()` answers: any backend's answer, the answer of the
OpenVPN 3 service, or an exception. -/
inductive Poll
  | answers (up : Bool)
  | openVpn3 (fetches : List OpenVpn3Status.Fetch)
  | raises (message : String)

def Poll.up : Poll → Bool
  | answers up => up
  | openVpn3 fetches => OpenVpn3Status.status fetches
  | raises _ => false

def Poll.error : Poll → Option String
  | raises message => some message
  | _ => none

/-- One thing worth telling about a run, newest first in a trace. The manager
calls are recorded before the events they deliver. -/
inductive Act
  | begin
  | attempt (position : Nat)
  | advance (position : Nat)
  | polled (answer : Poll)
  | connect (position : Option Nat) (config : String)
  | disconnect
  | cancelOperation
  | up
  | scheduled
  | ended (phase : CascadePhase)

structure World where
  ctl : Controller := {}
  win : Window := {}
  sched : Scheduler Callback := {}
  clock : Time := 0
  trace : List Act := []

def World.pass (w : World) (dt : Time) : World := { w with clock := w.clock + dt }

def World.record (w : World) (act : Act) : World := { w with trace := act :: w.trace }

section

variable (w : World) (dt : Time) (act : Act)

@[simp] theorem World.pass_ctl : (w.pass dt).ctl = w.ctl := rfl

@[simp] theorem World.pass_clock : (w.pass dt).clock = w.clock + dt := rfl

@[simp] theorem World.pass_trace : (w.pass dt).trace = w.trace := rfl

@[simp] theorem World.record_ctl : (w.record act).ctl = w.ctl := rfl

@[simp] theorem World.record_win : (w.record act).win = w.win := rfl

@[simp] theorem World.record_trace : (w.record act).trace = act :: w.trace := rfl

end

/-- An event that a backend call hands to the callback before it returns. -/
structure Delivery where
  after : Time := 0
  result : Result := .none
  error : Option String := none

/-- How a backend call ends, and the events it delivers before that. -/
structure Reply (ε : Type) where
  events : List ε := []
  raises : Option String := none

structure DropEnv where
  closing : Time := 0
  status : Poll := .answers false
  disconnect : Reply Delivery := {}

structure TimeoutEnv where
  busy : Bool := false
  now : Time := 0
  arming : Time := 0
  drop : DropEnv := {}

/-- `busy` is asked by the tick; the timeout handler that the tick may hand over
to asks again. -/
structure TickEnv where
  busy : Bool := false
  now : Time := 0
  button : Time := 0
  timeout : TimeoutEnv := {}

structure TryEnv where
  now : Time := 0
  button : Time := 0
  timeout : TimeoutEnv := {}
  arming : Time := 0
  startWatch : Option String := none
  status : Poll := .answers false
  disconnect : Reply Delivery := {}
  isFile : Bool := true
  connect : Reply (Delivery × DropEnv) := {}
  drop : DropEnv := {}

structure StartEnv where
  already : Poll := .answers false
  status : Poll := .answers false
  startWatch : Option String := none
  disconnect : Reply Delivery := {}
  attempt : TryEnv := {}

structure ConnectEnv where
  cancel : DropEnv := {}
  startWatch : Option String := none
  status : Poll := .answers false
  disconnect : Reply Delivery := {}
  connect : Reply Delivery := {}

end EovpnPro.AppState
