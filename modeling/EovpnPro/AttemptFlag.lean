import EovpnPro.MainWindow

namespace EovpnPro.AttemptFlag

open Events AppState WindowEvents CascadeController MainWindow

/-- The events after which the window has put `connection_attempt_active` back. -/
def settles (result : Result) (error : Option String) : Bool :=
  match (normalizeConnectionEvent result error).kind with
  | .failed | .disconnected | .connected => true
  | .progress | .paused | .resumed => false

def heed (attempt : Bool) (event : Result × Option String) : Bool := attempt && !settles event.1 event.2

theorem heed_false_of_settles {event : Result × Option String} (h : settles event.1 event.2 = true)
    (attempt : Bool) : heed attempt event = false := by
  rw [heed, h, Bool.not_true, Bool.and_false]

theorem foldl_heed_false (events : List (Result × Option String)) : events.foldl heed false = false := by
  induction events with
  | nil => rfl
  | cons event events ih => exact ih

/-- The flag after a click of the connect button: `chosen` says whether a
configuration is selected, `events` is what the backend tells before it returns. -/
def clicked (attempt up chosen : Bool) (events : List (Result × Option String)) : Bool :=
  if attempt || up || !chosen then false else events.foldl heed true

variable {w : World}

theorem attempt_onWindowEvent (w : World) (result : Result) (error : Option String) :
    (onWindowEvent w (normalizeConnectionEvent result error)).win.connectionAttemptActive =
      heed w.win.connectionAttemptActive (result, error) := by
  simp only [onWindowEvent, heed, settles]
  cases (normalizeConnectionEvent result error).kind with
  | failed | disconnected => rw [handleDisconnected_attempt, Bool.not_true, Bool.and_false]
  | connected => rw [Bool.not_true, Bool.and_false]; rfl
  | progress | paused | resumed => rw [Bool.not_false, Bool.and_true]

theorem attempt_deliver (hw : w.ctl.active = false) (events : List Delivery) :
    (events.foldl deliverQuiet w).win.connectionAttemptActive =
      (events.map fun d => (d.result, d.error)).foldl heed w.win.connectionAttemptActive := by
  induction events generalizing w with
  | nil => rfl
  | cons d events ih =>
      have hd : deliverQuiet w d = onWindowEvent (w.pass d.after)
        (normalizeConnectionEvent d.result d.error) :=
        onConnectionEvent_inactive (w := w.pass d.after) hw _ _ _
      have hc : (deliverQuiet w d).ctl = w.ctl := by rw [hd, onWindowEvent_ctl, World.pass_ctl]
      rw [List.foldl_cons, ih (by rw [hc, hw]), hd, attempt_onWindowEvent]
      rfl

theorem attempt_deliver_false (hw : w.ctl.active = false) (ha : w.win.connectionAttemptActive = false)
    (events : List Delivery) : (events.foldl deliverQuiet w).win.connectionAttemptActive = false := by
  rw [attempt_deliver hw, ha, foldl_heed_false]

theorem attempt_signalsConnect (hm : w.win.manager.isSome = true) (hw : w.ctl.active = false)
    (e : ConnectEnv) (hs : e.startWatch = none) (hp : e.status.error = none) :
    (signalsConnect w e).win.connectionAttemptActive =
      clicked w.win.connectionAttemptActive e.status.up (w.win.selected.any (· ≠ ""))
        (e.connect.events.map fun d => (d.result, d.error)) := by
  have hn : w.win.manager.isNone = false := by rw [← Option.not_isSome, hm]; rfl
  simp only [signalsConnect, hn, hw, hs, hp, Bool.false_eq_true, if_false, Option.isSome_none, Bool.or_self]
  cases ha : w.win.connectionAttemptActive with
  | true => exact handleDisconnected_attempt _
  | false =>
      simp only [Bool.false_eq_true, if_false]
      cases hup : e.status.up with
      | true =>
          simp only [if_true, callDisconnect]
          refine attempt_deliver_false ?_ ?_ _
          · exact hw
          · rfl
      | false =>
          simp only [Bool.false_eq_true, if_false, clicked, Bool.or_self, Bool.false_or]
          cases hsel : w.win.selected with
          | none => simp
          | some config =>
              by_cases hc : config = ""
              · simp [hc]
              · have hx : (some config).any (· ≠ "") = true := by simp [hc]
                simp only [hc, if_false, hx, Bool.not_true, Bool.false_eq_true]
                refine attempt_deliver ?_ _
                exact hw

end EovpnPro.AttemptFlag
