import EovpnPro.AttemptLedger

namespace EovpnPro.CascadeLedger

open AutoConnect Events Sources AppState WindowEvents CascadeController MainWindow AttemptLedger

variable {w : World}

def milestone : Act → Option Milestone
  | .begin => some .begin
  | .attempt k => some (.attempt k)
  | .advance k => some (.advance k)
  | .ended _ => some .ended
  | _ => none

def ledger (w : World) : Ledger where
  manager := w.win.manager
  latencies := w.win.latencies
  disconnectRetries := w.ctl.disconnectRetries
  active := w.ctl.active
  phase := w.ctl.phase
  queue := w.ctl.queue
  index := w.ctl.index
  current := w.ctl.current
  failed := w.ctl.failures.map Prod.fst
  recorded := w.ctl.attempts.map ConnectionAttempt.configId
  attempting := attemptOpen w.ctl
  history := w.trace.filterMap milestone

theorem ledger_record (act : Act) (h : milestone act = none) (w : World) :
    ledger (w.record act) = ledger w := by
  simp only [ledger, World.record, List.filterMap_cons, h]

@[simp] theorem ledger_polled (w : World) (answer : Poll) :
    ledger (w.record (.polled answer)) = ledger w := rfl

@[simp] theorem ledger_pass (w : World) (dt : Time) : ledger (w.pass dt) = ledger w := rfl

@[simp] theorem ledger_armTimeoutAndTicks (w : World) (dt : Time) :
    ledger (armTimeoutAndTicks w dt) = ledger w :=
  rfl

@[simp] theorem ledger_selectServerByName (w : World) (name : String) :
    ledger (selectServerByName w name) = ledger w := by
  simp only [selectServerByName]
  split <;> rfl

@[simp] theorem ledger_updateBanner (w : World) : ledger (updateBanner w) = ledger w := by
  simp only [updateBanner]
  split
  · split <;> simp
  · rfl

@[simp] theorem ledger_triggerSpeedTest (w : World) : ledger (triggerSpeedTest w) = ledger w := by
  simp only [triggerSpeedTest]
  split
  · rfl
  · split <;> rfl

@[simp] theorem ledger_onSortToggled (w : World) (on : Bool) : ledger (onSortToggled w on) = ledger w := by
  simp only [onSortToggled]
  split
  · exact ledger_triggerSpeedTest _
  · rfl

@[simp] theorem ledger_activateSort (w : World) : ledger (activateSort w) = ledger w := by
  simp only [activateSort]
  split
  · rfl
  · exact ledger_onSortToggled _ _

@[simp] theorem ledger_handleDisconnected (w : World) : ledger (handleDisconnected w) = ledger w := by
  simp only [handleDisconnected]
  split
  · exact ledger_record .scheduled rfl w
  · rfl

@[simp] theorem ledger_handleConnected (w : World) : ledger (handleConnected w) = ledger w := rfl

@[simp] theorem ledger_onWindowEvent (w : World) (event : ConnectionEvent) :
    ledger (onWindowEvent w event) = ledger w := by
  simp only [onWindowEvent]
  split
  · exact ledger_handleDisconnected w
  · exact ledger_handleDisconnected w
  · exact ledger_handleConnected w
  all_goals rfl

@[simp] theorem ledger_cancelOperation (w : World) : ledger (cancelOperation w) = ledger w := by
  simp only [cancelOperation]
  split
  · exact ledger_record .cancelOperation rfl w
  · rfl

theorem attemptOpen_modify (c : Controller) {k : Nat} (hk : c.activeAttempt = some k) (now deadline : Time)
    (result : AttemptResult) (code message : Option String) :
    attemptOpen { c with attempts := c.attempts.modify k (closeAttempt now deadline result code message) } =
      false := by
  simp only [attemptOpen, hk, Option.bind_some, List.getElem?_modify_eq]
  cases c.attempts[k]? with
  | none => rfl
  | some a => by_cases ha : a.finishedAt.isSome = true <;> simp_all [closeAttempt]

theorem configId_modify (attempts : List ConnectionAttempt) (k : Nat) (now deadline : Time)
    (result : AttemptResult) (code message : Option String) :
    (attempts.modify k (closeAttempt now deadline result code message)).map ConnectionAttempt.configId =
      attempts.map ConnectionAttempt.configId := by
  induction attempts generalizing k with
  | nil => cases k <;> rfl
  | cons a attempts ih =>
      cases k with
      | zero => by_cases ha : a.finishedAt.isSome = true <;> simp [closeAttempt, ha]
      | succ k => simpa using ih k

@[simp] theorem ledger_completeActiveAttempt (w : World) (result : AttemptResult)
    (code message : Option String) :
    ledger (completeActiveAttempt w result code message) = (ledger w).close := by
  unfold completeActiveAttempt
  cases hk : w.ctl.activeAttempt with
  | none => simp [ledger, Ledger.close, attemptOpen, hk]
  | some k => simp only [ledger, Ledger.close, attemptOpen_modify w.ctl hk, configId_modify]

theorem ledger_record_ended (w : World) (phase : CascadePhase) :
    ledger (w.record (.ended phase)) = { ledger w with history := .ended :: (ledger w).history } := rfl

@[simp] theorem ledger_finishSucceeded (w : World) :
    ledger (finishSucceeded w) = (ledger w).finish .succeeded := by
  simp only [finishSucceeded, ledger_record_ended, ledger_completeActiveAttempt]
  rfl

@[simp] theorem ledger_finishExhausted (w : World) :
    ledger (finishExhausted w) = (ledger w).finish .exhausted := by
  simp only [finishExhausted, ledger_record_ended, ledger_completeActiveAttempt]
  rfl

def isUp (result : Result) (error : Option String) : Bool :=
  decide ((normalizeConnectionEvent result error).kind = .connected)

def comesUp (reply : Reply Delivery) : Bool := reply.events.any (fun d => isUp d.result d.error)

theorem ledger_onConnectionEvent_inactive (next : Advance) (hw : w.ctl.active = false) (result : Result)
    (error : Option String) : ledger (onConnectionEvent next w result error) = ledger w := by
  rw [onConnectionEvent_inactive hw, ledger_onWindowEvent]

theorem ledger_onConnectionEvent_up (next : Advance) (hw : w.ctl.active = true) {result : Result}
    {error : Option String} (hu : isUp result error = true) :
    ledger (onConnectionEvent next w result error) = (ledger w).finish .succeeded := by
  rw [onConnectionEvent_connected hw (of_decide_eq_true hu), ledger_handleConnected, ledger_finishSucceeded]
  rfl

theorem ledger_onConnectionEvent_settling (next : Advance) (hw : w.ctl.active = true)
    (hp : w.ctl.phase ≠ .connecting) {result : Result} {error : Option String}
    (hu : isUp result error = false) : ledger (onConnectionEvent next w result error) = ledger w := by
  cases ht : terminal (normalizeConnectionEvent result error).kind with
  | false => rw [onConnectionEvent_other hw (of_decide_eq_false hu) ht]
  | true =>
      simp only [onConnectionEvent_terminal hw ht, terminalResponse, if_neg hp]
      split_ifs <;> rfl

theorem ledger_deliverQuiet_inactive (hw : w.ctl.active = false) (d : Delivery) :
    ledger (deliverQuiet w d) = ledger w :=
  ledger_onConnectionEvent_inactive (w := w.pass d.after) _ hw _ _

theorem ledger_deliveries_inactive (hw : w.ctl.active = false) (events : List Delivery) :
    ledger (events.foldl deliverQuiet w) = ledger w := by
  induction events generalizing w with
  | nil => rfl
  | cons d events ih =>
      have hd := ledger_deliverQuiet_inactive hw d
      exact (ih ((congrArg Ledger.active hd).trans hw)).trans hd

theorem ledger_deliveries_settling (hw : w.ctl.active = true) (hp : w.ctl.phase ≠ .connecting)
    (events : List Delivery) :
    ledger (events.foldl deliverQuiet w) =
      if events.any (fun d => isUp d.result d.error) then (ledger w).finish .succeeded else ledger w := by
  induction events generalizing w with
  | nil => rfl
  | cons d events ih =>
      rw [List.foldl_cons, List.any_cons]
      cases hu : isUp d.result d.error with
      | true =>
          have hd : ledger (deliverQuiet w d) = (ledger w).finish .succeeded :=
            ledger_onConnectionEvent_up (w := w.pass d.after) _ hw hu
          exact (ledger_deliveries_inactive (congrArg Ledger.active hd) events).trans hd
      | false =>
          have hd : ledger (deliverQuiet w d) = ledger w :=
            ledger_onConnectionEvent_settling (w := w.pass d.after) _ hw hp hu
          have ih := ih ((congrArg Ledger.active hd).trans hw)
            (fun hc => hp ((congrArg Ledger.phase hd).symm.trans hc))
          rwa [hd] at ih

theorem ledger_callDisconnect_inactive (hw : w.ctl.active = false) (reply : Reply Delivery) :
    ledger (callDisconnect w reply) = ledger w :=
  ledger_deliveries_inactive (w := w.record .disconnect) hw reply.events

theorem ledger_callDisconnect_settling (hw : w.ctl.active = true) (hp : w.ctl.phase ≠ .connecting)
    (reply : Reply Delivery) :
    ledger (callDisconnect w reply) =
      if comesUp reply then (ledger w).finish .succeeded else ledger w :=
  ledger_deliveries_settling (w := w.record .disconnect) hw hp reply.events

theorem ledger_failCurrent (w : World) (closing : Time) (reason : AttemptResult)
    (code message : Option String) :
    ledger (failCurrent w closing reason code message) =
      { ledger w with
        failed := (ledger w).failed ++ w.ctl.current.toList.filter (fun name => name ≠ "")
        attempting := if w.ctl.current.any (fun name => name ≠ "") then false
          else (ledger w).attempting } := by
  unfold failCurrent
  cases hc : w.ctl.current with
  | none => simp
  | some name =>
      by_cases hn : name = ""
      · simp [hn]
      · simp [hn, Ledger.close]
        simp [ledger]

theorem ledger_leaveCandidate (w : World) (closing : Time) (reason : AttemptResult)
    (code message : Option String) :
    ledger (leaveCandidate w closing reason code message) = (ledger w).giveUp := by
  have h := ledger_failCurrent w closing reason code message
  have hi : (failCurrent w closing reason code message).ctl.index = w.ctl.index := congrArg Ledger.index h
  simp only [leaveCandidate, ledger, Ledger.giveUp, World.record, disarmTimers] at h ⊢
  simp_all [milestone, attemptOpen]

def dropUp (manager : Option Backend) (e : DropEnv) : Bool :=
  manager.isSome && e.status.up && comesUp e.disconnect

theorem advance_inactive (hw : w.ctl.active = false) (e : DropEnv) (reason : AttemptResult)
    (code message : Option String) : advance e w reason code message = w := by
  simp [advance, hw]

theorem ledger_advance (hw : w.ctl.active = true) (e : DropEnv) (reason : AttemptResult)
    (code message : Option String) :
    ledger (advance e w reason code message) =
      if dropUp w.win.manager e then (ledger w).giveUp.finish .succeeded else (ledger w).giveUp := by
  have hl := ledger_leaveCandidate w e.closing reason code message
  have hm : (leaveCandidate w e.closing reason code message).win.manager = w.win.manager :=
    congrArg Ledger.manager hl
  have ha := (congrArg Ledger.active hl).trans hw
  have hp := congrArg Ledger.phase hl
  simp only [advance, hw, hm, dropUp, Bool.not_true, Bool.false_eq_true, if_false]
  cases w.win.manager with
  | none => exact hl
  | some backend =>
      by_cases hs : e.status.up = true
      · simp only [hs, Option.isNone_some, Option.isSome_some, Bool.true_and, Bool.false_eq_true,
          if_false, if_true]
        refine (ledger_callDisconnect_settling
          (w := (leaveCandidate w e.closing reason code message).record _)
          ha (fun hc => CascadePhase.noConfusion (hp.symm.trans hc)) e.disconnect).trans ?_
        rw [ledger_polled, hl]
      · simp only [hs, Option.isNone_some, Option.isSome_some, Bool.true_and, Bool.false_and, Bool.false_eq_true, if_false]
        exact (ledger_polled _ e.status).trans hl

@[simp] theorem ledger_openAttempt (w : World) (filename : String) (dt : Time) :
    ledger (openAttempt w filename dt) = (ledger w).attempt filename := by
  simp [ledger, openAttempt, Ledger.attempt, World.record, World.pass, milestone, attemptOpen]

@[simp] theorem ledger_loadQueue (w : World) (queue : List String) :
    ledger (loadQueue w queue) = (ledger w).load queue := rfl

@[simp] theorem ledger_finishCancelled (w : World) (restore : Bool) (e : DropEnv) :
    ledger (finishCancelled w restore e) = (ledger w).finish .cancelled := by
  have hc := ledger_completeActiveAttempt ((endRun w .cancelled).pass e.closing) .cancelled
    (some "cancelled") (some "Auto-connect cancelled by the user.")
  simp only [finishCancelled, ledger_record_ended]
  split_ifs with hr hs
  · rw [ledger_callDisconnect_inactive]
    · exact congrArg (fun l => { l with history := .ended :: l.history }) hc
    · exact congrArg Ledger.active hc
  all_goals exact congrArg (fun l => { l with history := .ended :: l.history }) hc

theorem ledger_cancel (w : World) (e : DropEnv) :
    ledger (cancel w e) = if busy w.ctl then (ledger w).finish .cancelled else ledger w := by
  simp only [cancel]
  cases hb : busy w.ctl with
  | false => rfl
  | true =>
      have ho := ledger_cancelOperation w
      simp only [Bool.not_true, Bool.false_eq_true, if_false, if_true, ledger_finishCancelled]
      exact congrArg (fun l => l.finish .cancelled) ho

end EovpnPro.CascadeLedger
