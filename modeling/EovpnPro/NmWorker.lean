import EovpnPro.Events
import EovpnPro.ProfileAudit
import EovpnPro.Runs
import EovpnPro.Traces

namespace EovpnPro.NmWorker

open Events ProfileAudit Runs

/-- A queued operation. `connect` has what a read of the profile yields. -/
inductive Op
  | connect (config : Option (List Char))
  | disconnect
  deriving DecidableEq, Repr

structure Job where
  id : Nat
  op : Op
  deriving DecidableEq, Repr

/-- How an operation left its body: normally, with `OperationCancelled`, or with
another exception. -/
inductive Outcome
  | done
  | cancelled
  | failed (message : String)
  deriving DecidableEq, Repr

structure PrivateCopy where
  config : Option (List Char)
  ca : CaSetting
  document : List Char
  written : copied config ca = some document
  deriving DecidableEq, Repr

def privateCopy (config : Option (List Char)) (ca : CaSetting) : Option PrivateCopy :=
  match h : copied config ca with
  | some document => some ⟨config, ca, document, h⟩
  | none => none

structure Import where
  copy : PrivateCopy
  username : Option String
  password : Option String
  deriving DecidableEq, Repr

/-- Where the runner is inside an operation. The stages after the import carry
`self.uuid`, which only the runner assigns. -/
inductive Stage
  | enter (config : Option (List Char))
  | copy (config : Option (List Char))
  | beforeImport (i : Import)
  | importing (i : Import)
  | beforeActivation (uuid : String)
  | activating (uuid : String)
  | afterActivation (uuid : String)
  | withdrawing (uuid : String)
  | deleting (uuid : String)
  | saving (uuid : String)
  | cleaningUp (outcome : Outcome)
  | disconnecting
  | ended (outcome : Outcome)
  deriving DecidableEq, Repr

inductive Worker
  | looping
  | busy (job : Job) (stage : Stage)
  deriving DecidableEq, Repr

/-- How far the GTK thread is in `cancel_current_operation`. -/
inductive Caller
  | idle
  | flagged
  | suppressed
  deriving DecidableEq, Repr

/-- What `GLib.idle_add` has queued: a guarded callback, or a `notify_failure`, which
reads the variable `message` of the runner that queued it. -/
inductive Idle
  | guarded (result : Result) (error : Option String)
  | failure (runner : Nat)
  deriving DecidableEq, Repr

inductive Event
  | dispatched (id : Nat)
  | cancelCalled
  | started (id : Nat)
  | addConnection (id : Nat) (i : Import) (uuid : Option String)
  | activateConnection (id : Nat) (uuid : String) (activated : Bool)
  | disconnect (id : Nat) (uuid : String)
  | deleteConnection (id : Nat) (uuid : String)
  | ended (id : Nat) (outcome : Outcome)
  | callback (result : Result) (error : Option String)
  deriving DecidableEq, Repr

/-- `NetworkManager`, its worker thread and its caller. `worker` is `none` while
no runner is alive, and `runner` counts those that were started. `messages` has what
each of them assigned to its variable `message`, newest first. `trace` is everything
that happened, newest first. -/
structure NetworkManager where
  dbus : Bool := true
  uuid : Option String := none
  tempConfigPath : Option Nat := none
  tempFiles : List Nat := []
  queue : List Job := []
  cancel : Bool := false
  suppress : Bool := false
  worker : Option Worker := none
  runner : Nat := 0
  messages : List (Nat × String) := []
  caller : Caller := .idle
  watch : Bool := false
  nmActiveUuid : Option String := none
  idle : List Idle := []
  nextId : Nat := 0
  trace : List Event := []
  deriving DecidableEq, Repr

/-- What the runner meets in one step: settings and the secret service (whose
lookup is `none` when it raises), files, and the answers of the native module.
`raised` is the text of an exception out of a native call. -/
structure Answers where
  username : Option String := none
  secret : Option (Option String) := some none
  sessionPassword : Option String := none
  ca : CaSetting := .unset
  created : Bool := true
  written : Bool := true
  removed : Bool := true
  raised : Option String := none
  uuid : Option String := none
  activated : Bool := true
  lastError : Option String := none
  found : Bool := true
  activeUuids : List String := []

variable {b : NetworkManager}

def log (b : NetworkManager) (event : Event) : NetworkManager := { b with trace := event :: b.trace }

def toStage (b : NetworkManager) (job : Job) (stage : Stage) : NetworkManager :=
  { b with worker := some (.busy job stage) }

def nativeError (last : Option String) (fallback : String) : String :=
  match last with
  | some message => if message = "" then fallback else message
  | none => fallback

/-- The keyring is asked only for a known user, and the session password stands
in when it cannot answer. -/
def password (e : Answers) : Option String := e.username.bind fun _ => e.secret.getD e.sessionPassword

def firstStage : Op → Stage
  | .connect config => .enter config
  | .disconnect => .disconnecting

/-- The locked block of `_operation_runner`: the thread ends on an empty queue,
and taking an operation clears both events. -/
def takeOperation (b : NetworkManager) : NetworkManager :=
  match b.queue with
  | [] => { b with worker := none }
  | job :: rest =>
      log (toStage { b with queue := rest, cancel := false, suppress := false } job
        (firstStage job.op)) (.started job.id)

/-- `_raise_if_cancelled` in front of a stage. -/
def unlessCancelled (b : NetworkManager) (job : Job) (stage stopped : Stage) : NetworkManager :=
  toStage b job (if b.cancel then stopped else stage)

/-- The private copy. Once the file exists, an exception removes it again. -/
def copyProfile (b : NetworkManager) (job : Job) (config : Option (List Char)) (e : Answers) :
    NetworkManager :=
  let failed := Stage.ended (.failed (e.raised.getD ""))
  if !e.created then toStage b job failed
  else match (if e.written then privateCopy config e.ca else none) with
    | some copy =>
        toStage { b with tempFiles := job.id :: b.tempFiles, tempConfigPath := some job.id } job
          (.beforeImport { copy, username := e.username, password := password e })
    | none =>
        if e.removed then toStage { b with tempConfigPath := none } job failed
        else toStage { b with tempFiles := job.id :: b.tempFiles, tempConfigPath := some job.id } job failed

def addConnection (b : NetworkManager) (job : Job) (i : Import) (e : Answers) : NetworkManager :=
  match e.raised with
  | some message => log (toStage b job (.cleaningUp (.failed message))) (.addConnection job.id i none)
  | none =>
      let refused := Stage.cleaningUp
        (.failed (nativeError e.lastError "NetworkManager could not import the VPN profile."))
      let stage := match e.uuid with
        | some uuid => if uuid = "" then refused else .beforeActivation uuid
        | none => refused
      log (toStage { b with uuid := e.uuid } job stage) (.addConnection job.id i e.uuid)

def activateConnection (b : NetworkManager) (job : Job) (uuid : String) (e : Answers) : NetworkManager :=
  let stage := match e.raised with
    | some message => Stage.cleaningUp (.failed message)
    | none =>
        if e.activated then .afterActivation uuid
        else .cleaningUp (.failed (nativeError e.lastError
          "NetworkManager rejected activation of the VPN profile."))
  log (toStage b job stage) (.activateConnection job.id uuid (e.raised.isNone && e.activated))

/-- The `finally` block around the native calls. -/
def cleanUp (b : NetworkManager) (job : Job) (outcome : Outcome) (e : Answers) : NetworkManager :=
  match b.tempConfigPath with
  | some path =>
      if path ∈ b.tempFiles then
        toStage { b with
          tempFiles := if e.removed then b.tempFiles.filter (· ≠ path) else b.tempFiles
          tempConfigPath := none } job (.ended outcome)
      else toStage b job (.ended outcome)
  | none => toStage b job (.ended outcome)

/-- `_disconnect_blocking`. Without a profile of its own the backend takes down at
most three tunnels that the native module names as its own. -/
def disconnectBlocking (b : NetworkManager) (job : Job) (e : Answers) : NetworkManager :=
  match b.uuid with
  | none =>
      toStage ((e.activeUuids.take 3).foldl (fun b uuid => log b (.disconnect job.id uuid)) b) job
        (.ended .done)
  | some uuid =>
      if e.found then
        toStage (log (log { b with uuid := none, nmActiveUuid := none } (.disconnect job.id uuid))
          (.deleteConnection job.id uuid)) job (.ended .done)
      else toStage b job (.ended .done)

def failureText (message : String) : String :=
  if message = "" then "NetworkManager operation failed." else message

/-- The variable `message` of a runner, as it is now. -/
def messageOf (messages : List (Nat × String)) (runner : Nat) : String := (messages.lookup runner).getD ""

/-- The `except` blocks of `_operation_runner`. All `notify_failure`s of one runner
close over the same variable. -/
def finish (b : NetworkManager) (job : Job) (outcome : Outcome) : NetworkManager :=
  let b := log { b with worker := some .looping } (.ended job.id outcome)
  match outcome with
  | .failed message =>
      if b.cancel then b
      else { b with
        messages := (b.runner, failureText message) :: b.messages
        idle := b.idle ++ [.failure b.runner] }
  | _ => b

def stepStage (b : NetworkManager) (job : Job) (e : Answers) : Stage → NetworkManager
  | .enter config => unlessCancelled b job (.copy config) (.ended .cancelled)
  | .copy config => copyProfile b job config e
  | .beforeImport i => unlessCancelled b job (.importing i) (.cleaningUp .cancelled)
  | .importing i => addConnection b job i e
  | .beforeActivation uuid => unlessCancelled b job (.activating uuid) (.cleaningUp .cancelled)
  | .activating uuid => activateConnection b job uuid e
  | .afterActivation uuid => unlessCancelled b job (.saving uuid) (.withdrawing uuid)
  | .withdrawing uuid => log (toStage b job (.deleting uuid)) (.disconnect job.id uuid)
  | .deleting uuid =>
      log (toStage { b with uuid := none } job (.cleaningUp .cancelled)) (.deleteConnection job.id uuid)
  | .saving uuid => toStage { b with nmActiveUuid := some uuid } job (.cleaningUp .done)
  | .cleaningUp outcome => cleanUp b job outcome e
  | .disconnecting => disconnectBlocking b job e
  | .ended outcome => finish b job outcome

/-- The locked block of `_dispatch_off_ui_thread`. -/
def dispatchOffUiThread (b : NetworkManager) (op : Op) : NetworkManager :=
  log { b with
    queue := b.queue ++ [⟨b.nextId, op⟩]
    worker := some (b.worker.getD .looping)
    runner := if b.worker.isSome then b.runner else b.runner + 1
    nextId := b.nextId + 1 } (.dispatched b.nextId)

def connect (b : NetworkManager) (config : Option (List Char)) : NetworkManager :=
  let suspicious := auditOvpnContent config
  if suspicious ≠ [] then { b with idle := b.idle ++ [.guarded (.bool false) (some (refusal suspicious))] }
  else dispatchOffUiThread b (.connect config)

def guardedCallback (b : NetworkManager) (result : Result) (error : Option String) : NetworkManager :=
  if b.suppress then b else log b (.callback result error)

def startWatch (b : NetworkManager) : NetworkManager :=
  { b with suppress := false, watch := b.watch || b.dbus }

def stopWatch (b : NetworkManager) : NetworkManager :=
  if b.watch && b.dbus then { b with watch := false } else b

inductive Action
  | connect (config : Option (List Char))
  | disconnect
  | cancelFlag
  | cancelSuppress
  | cancelClear
  | startWatch
  | stopWatch
  | signal (result : Result) (error : Option String)
  | idleCallback
  | worker (e : Answers)

/-- The GTK thread makes one call at a time. `cancel_current_operation` is three
atomic steps of it, and the runner's steps come between any two steps. -/
def step (b : NetworkManager) : Action → Option NetworkManager
  | .connect config => if b.caller = .idle then some (connect b config) else none
  | .disconnect => if b.caller = .idle then some (dispatchOffUiThread b .disconnect) else none
  | .cancelFlag =>
      if b.caller = .idle then some (log { b with caller := .flagged, cancel := true } .cancelCalled)
      else none
  | .cancelSuppress =>
      if b.caller = .flagged then some { b with caller := .suppressed, suppress := true } else none
  | .cancelClear => if b.caller = .suppressed then some { b with caller := .idle, queue := [] } else none
  | .startWatch => if b.caller = .idle then some (startWatch b) else none
  | .stopWatch => if b.caller = .idle then some (stopWatch b) else none
  | .signal result error =>
      if b.caller = .idle ∧ b.watch = true then some (guardedCallback b result error) else none
  | .idleCallback =>
      if b.caller = .idle then
        match b.idle with
        | [] => none
        | .guarded result error :: rest => some (guardedCallback { b with idle := rest } result error)
        | .failure runner :: rest => some (log { b with idle := rest }
          (.callback (.bool false) (some (messageOf b.messages runner))))
      else none
  | .worker e =>
      match b.worker with
      | none => none
      | some .looping => some (takeOperation b)
      | some (.busy job stage) => some (stepStage b job e stage)

end EovpnPro.NmWorker
