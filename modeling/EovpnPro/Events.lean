import EovpnPro.PyText

namespace EovpnPro.Events

inductive ConnectionEventKind
  | connected
  | disconnected
  | failed
  | progress
  | paused
  | resumed
  deriving DecidableEq, Repr

structure ConnectionEvent where
  kind : ConnectionEventKind
  error : Option String := none
  detail : Option Int := none
  deriving DecidableEq, Repr

inductive Item
  | int (n : Int)
  | str (s : String)
  deriving DecidableEq, Repr

/-- The shapes the backends hand to the callback as `result`. -/
inductive Result
  | bool (b : Bool)
  | list (items : List Item)
  | none
  | other
  deriving DecidableEq, Repr

def detail : List Item → Option Int
  | .int n :: _ => some n
  | _ => none

def normalizeConnectionEvent (result : Result) (error : Option String) : ConnectionEvent :=
  match error with
  | some e => { kind := .failed, error := some e }
  | none => match result with
    | .bool true => { kind := .connected }
    | .bool false => { kind := .disconnected }
    | .list [.str s] =>
        let status := PyText.lower s.toList
        if status = "pause".toList then { kind := .paused }
        else if status = "resume".toList then { kind := .resumed }
        else { kind := .progress }
    | .list items => { kind := .progress, detail := detail items }
    | .none => { kind := .disconnected }
    | .other => { kind := .progress }

end EovpnPro.Events
