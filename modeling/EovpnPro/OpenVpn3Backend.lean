import EovpnPro.Events
import EovpnPro.OpenVpn3Status
import EovpnPro.ProfileAudit
import EovpnPro.Runs
import EovpnPro.Subscriptions

namespace EovpnPro.OpenVpn3Backend

open Events OpenVpn3Status ProfileAudit Subscriptions Runs

inductive Topic
  | attentionRequired (sessionPath : Option String)
  | statusChange (sessionPath : String)
  deriving DecidableEq, Repr

def Topic.isStatus : Topic → Bool
  | attentionRequired _ => false
  | statusChange _ => true

/-- What the backend does to the outside: native calls, the callback into the
window, and an exception that reaches the caller. -/
inductive Call
  | importConfig (name : String) (document : List Char)
  | prepareTunnel (configPath : String)
  | connectVpn (sessionPath : String)
  | disconnectVpn (sessionPath : String)
  | callback (result : Result) (error : Option String)
  | raised
  deriving DecidableEq, Repr

/-- `OpenVPN3` and its `OVPN3Dbus`. `constants` is false when the Python
constants of the service are not installed. -/
structure OpenVpn3 where
  constants : Bool := true
  bus : Bus Topic := {}
  module : Bool := false
  subscriptions : List Nat := []
  attentionSubscription : Option Nat := none
  watch : Bool := false
  configPath : Option String := none
  sessionPath : Option String := none
  calls : List Call := []

variable {b : OpenVpn3}

def record (b : OpenVpn3) (call : Call) : OpenVpn3 := { b with calls := call :: b.calls }

def subscribeForAttention (b : OpenVpn3) (sessionPath : Option String) : OpenVpn3 :=
  if b.attentionSubscription.isSome then b
  else { b with
    attentionSubscription := some b.bus.fresh
    bus := subscribe b.bus (.attentionRequired sessionPath) }

def subscribeForEvents (b : OpenVpn3) (sessionPath : String) : OpenVpn3 :=
  { b with
    bus := subscribe b.bus (.statusChange sessionPath)
    subscriptions := b.subscriptions ++ [b.bus.fresh] }

def unsubscribeAll (b : OpenVpn3) : OpenVpn3 :=
  { b with
    bus := (b.attentionSubscription.toList ++ b.subscriptions).foldl unsubscribe b.bus
    attentionSubscription := none
    subscriptions := [] }

def startWatch (b : OpenVpn3) : OpenVpn3 :=
  if b.watch then b else { subscribeForAttention { b with module := true } none with watch := true }

def stopWatch (b : OpenVpn3) : OpenVpn3 :=
  if b.watch then { unsubscribeAll b with watch := false } else b

def disconnectAgain (b : OpenVpn3) : OpenVpn3 :=
  match b.sessionPath with
  | some path => { record b (.disconnectVpn path) with sessionPath := none }
  | none => record b (.callback (.bool false) none)

/-- `self.callback(result, error)`, in which the window asks `again` times for a
disconnect before it returns. -/
def callBack (b : OpenVpn3) (result : Result) (error : Option String) (again : Nat) : OpenVpn3 :=
  disconnectAgain^[again] (record b (.callback result error))

def disconnect (b : OpenVpn3) (again : Nat) : OpenVpn3 :=
  match b.sessionPath with
  | some path => { record b (.disconnectVpn path) with sessionPath := none }
  | none => { callBack b (.bool false) none again with sessionPath := none }

/-- What `connect` meets: the profile and what a read of it yields, the
certificate setting, and the answers of the native module, absent when it fails. -/
structure ConnectEnv where
  name : String := ""
  config : Option (List Char) := some []
  ca : CaSetting := .unset
  importConfig : Option String := none
  prepareTunnel : Option String := none
  again : Nat := 0

def connect (b : OpenVpn3) (e : ConnectEnv) : OpenVpn3 :=
  let suspicious := auditOvpnContent e.config
  if suspicious ≠ [] then callBack b (.bool false) (some (refusal suspicious)) e.again
  else match configContent e.config e.ca with
    | none => record b .raised
    | some document =>
        let b := { record b (.importConfig e.name document) with configPath := e.importConfig }
        match e.importConfig with
        | none => b
        | some path =>
            if path = "" then b
            else { record b (.prepareTunnel path) with sessionPath := e.prepareTunnel }

/-- `try_to_connect`, where `ready` is what `is_ready` answers. -/
def tryToConnect (b : OpenVpn3) (ready : Bool) : OpenVpn3 :=
  match b.sessionPath with
  | none => b
  | some path => if b.module && ready then record (subscribeForEvents b path) (.connectVpn path) else b

/-- `sub_attention_signal`. Without the constants, without a session, and when a
call to the service fails, it ends in an exception. -/
def subAttentionSignal (b : OpenVpn3) (answered ready : Bool) : OpenVpn3 :=
  if b.constants && b.module && answered then tryToConnect b ready else b

def ends (status : SessionStatus) : Bool :=
  decide (status.major = .connection) &&
    (decide (status.minor = .connAuthFailed) || decide (status.minor = .connDisconnected))

def subStatusSignal (b : OpenVpn3) (status : SessionStatus) (reason : String) (again : Nat) : OpenVpn3 :=
  if !b.constants then b
  else match status.major, status.minor with
    | .connection, .connAuthFailed =>
        let b := unsubscribeAll (callBack b (.bool false) (some reason) again)
        if b.module then disconnect b again else b
    | .connection, .connConnecting => callBack b (.list []) none again
    | .connection, .connConnected => callBack b (.bool true) none again
    | .connection, .connDisconnected => callBack (unsubscribeAll b) (.bool false) none again
    | .connection, .connPaused => callBack b (.list [.str "pause"]) none again
    | .connection, .connResuming => callBack b (.list [.str "resume"]) none again
    | _, _ => b

inductive Action
  | startWatch
  | stopWatch
  | connect (e : ConnectEnv)
  | disconnect (again : Nat)
  | attentionRequired (id : Nat) (answered ready : Bool)
  | otp (answered ready : Bool)
  | statusChange (id : Nat) (status : SessionStatus) (reason : String) (again : Nat)

/-- A call into the backend, or a signal that a live subscription receives. -/
def step (b : OpenVpn3) : Action → Option OpenVpn3
  | .startWatch => some (startWatch b)
  | .stopWatch => some (stopWatch b)
  | .connect e => some (connect b e)
  | .disconnect again => some (disconnect b again)
  | .attentionRequired id answered ready =>
      if b.bus.live.any (fun s => decide (s.1 = id) && !s.2.isStatus) then
        some (subAttentionSignal b answered ready)
      else none
  | .otp answered ready => if b.constants && answered then some (tryToConnect b ready) else some b
  | .statusChange id status reason again =>
      if b.bus.live.any (fun s => decide (s.1 = id) && s.2.isStatus) then
        some (subStatusSignal b status reason again)
      else none

end EovpnPro.OpenVpn3Backend
