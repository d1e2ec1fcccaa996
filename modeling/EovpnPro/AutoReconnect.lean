import EovpnPro.CascadeLedger
import EovpnPro.Runs

namespace EovpnPro.AutoReconnect

open AutoConnect Events Sources AppState WindowEvents CascadeController MainWindow CascadeLedger Runs

variable {w : World}

def managerCall : Act → Bool
  | .connect _ _ | .disconnect | .cancelOperation => true
  | _ => false

def managerCalls (trace : List Act) : List Act := trace.filter managerCall

def Reconnects (lost : Option String) (w t : World) : Prop :=
  (t.ctl = w.ctl ∧ t.win = w.win ∧ t.trace = w.trace) ∨
    ∃ config, lost = some config ∧ managerCalls t.trace = .connect none config :: managerCalls w.trace

/-- The toggle that the reconnect goes through takes its connect branch, or
returns before it does anything. -/
def Harmless (lost : Option String) (w : World) (e : ConnectEnv) : Prop :=
  w.win.manager = none ∨ w.win.selected = none ∨ w.win.selected = some "" ∨
    (w.ctl.active = false ∧ w.win.connectionAttemptActive = false ∧
      (e.startWatch.isSome = true ∨ e.status.error.isSome = true ∨
        (e.status.up = false ∧ w.win.selected = lost)))

theorem managerCalls_deliverQuiet (ha : w.ctl.active = false) (d : Delivery) :
    managerCalls (deliverQuiet w d).trace = managerCalls w.trace ∧ (deliverQuiet w d).ctl = w.ctl := by
  have ho : deliverQuiet w d = onWindowEvent (w.pass d.after) (normalizeConnectionEvent d.result d.error) :=
    onConnectionEvent_inactive (w := w.pass d.after) ha _ _ _
  rw [ho, onWindowEvent_ctl]
  refine ⟨?_, rfl⟩
  rcases onWindowEvent_trace (w.pass d.after) (normalizeConnectionEvent d.result d.error) with ht | ht | ht
  all_goals rw [ht]; rfl

theorem managerCalls_deliveries (ha : w.ctl.active = false) (events : List Delivery) :
    managerCalls (events.foldl deliverQuiet w).trace = managerCalls w.trace := by
  induction events generalizing w with
  | nil => rfl
  | cons d events ih =>
      obtain ⟨ht, hc⟩ := managerCalls_deliverQuiet ha d
      have ha' : (deliverQuiet w d).ctl.active = false := by rw [hc, ha]
      exact (ih ha').trans ht

theorem managerCalls_callDisconnect (ha : w.ctl.active = false) (reply : Reply Delivery) :
    managerCalls (callDisconnect w reply).trace = .disconnect :: managerCalls w.trace :=
  managerCalls_deliveries (w := w.record .disconnect) ha reply.events

theorem managerCalls_finishCancelled (w : World) (restore : Bool) (e : DropEnv) :
    managerCalls (finishCancelled w restore e).trace = managerCalls w.trace ∨
      managerCalls (finishCancelled w restore e).trace = .disconnect :: managerCalls w.trace := by
  have hl := ledger_completeActiveAttempt ((endRun w .cancelled).pass e.closing) .cancelled
    (some "cancelled") (some "Auto-connect cancelled by the user.")
  have ht := completeActiveAttempt_trace ((endRun w .cancelled).pass e.closing) .cancelled
    (some "cancelled") (some "Auto-connect cancelled by the user.")
  have ha := congrArg AttemptLedger.Ledger.active hl
  simp only [finishCancelled]
  generalize completeActiveAttempt _ _ _ _ = v at ht ha ⊢
  have hv : managerCalls v.trace = managerCalls w.trace := congrArg managerCalls ht
  split_ifs with hr hs
  · right
    have hc := managerCalls_callDisconnect (w := { v.record (.polled e.status) with
      win := { v.win with manualDisconnect := true } }) ha e.disconnect
    exact hc.trans (congrArg (Act.disconnect :: ·) hv)
  · exact .inl hv
  · exact .inl hv

theorem managerCalls_cancelOperation (w : World) :
    managerCalls (cancelOperation w).trace = managerCalls w.trace ∨
      managerCalls (cancelOperation w).trace = .cancelOperation :: managerCalls w.trace := by
  simp only [cancelOperation]
  split_ifs
  · exact .inr rfl
  · exact .inl rfl

theorem cancel_not_reconnects (ha : w.ctl.active = true) (lost : Option String) (e : DropEnv) :
    ¬ Reconnects lost w (cancel w e) := by
  have hl := ledger_cancel w e
  rw [if_pos (by simp [busy, ha])] at hl
  rintro (⟨hc, -, -⟩ | ⟨config, -, hc⟩)
  · have hi : (cancel w e).ctl.active = false := congrArg AttemptLedger.Ledger.active hl
    rw [hc, ha] at hi
    exact Bool.noConfusion hi
  · simp only [cancel, busy, ha, Bool.true_or, Bool.not_true, Bool.false_eq_true, if_false] at hc
    have hf := managerCalls_finishCancelled { cancelOperation w with
      ctl := { (cancelOperation w).ctl with
        autoCascadeAfterTest := false, gen := (cancelOperation w).ctl.gen + 1 } }
      true e
    have ho := managerCalls_cancelOperation w
    simp only at hf
    rcases hf with hf | hf <;> rcases ho with ho | ho <;> rw [hf, ho] at hc <;> simp at hc

theorem cancelAttempt_not_reconnects (ha : w.win.connectionAttemptActive = true)
    (lost : Option String) {t : World} (ht : t.win.connectionAttemptActive = false)
    (hc : managerCalls t.trace = managerCalls w.trace ∨
      managerCalls t.trace = .cancelOperation :: managerCalls w.trace) : ¬ Reconnects lost w t := by
  rintro (⟨-, hw, -⟩ | ⟨config, -, hm⟩)
  · rw [hw, ha] at ht
    exact Bool.noConfusion ht
  · rcases hc with hc | hc <;> rw [hc] at hm <;> simp at hm

theorem disconnect_not_reconnects (ha : w.ctl.active = false) (lost : Option String)
    (reply : Reply Delivery) :
    ¬ Reconnects lost w (callDisconnect { w with win := { w.win with manualDisconnect := true } } reply) := by
  have hc := managerCalls_callDisconnect
    (w := { w with win := { w.win with manualDisconnect := true } }) ha reply
  rintro (⟨-, -, ht⟩ | ⟨config, -, hm⟩)
  · rw [ht] at hc
    exact List.cons_ne_self _ _ hc.symm
  · rw [hc] at hm
    exact Act.noConfusion (List.cons.inj hm).1

theorem connect_reconnects_iff (lost : Option String) (config : String) {v : World}
    (hv : v.ctl.active = false) (ht : v.trace = .connect none config :: w.trace) (events : List Delivery) :
    Reconnects lost w (events.foldl deliverQuiet v) ↔ lost = some config := by
  have hc : managerCalls (events.foldl deliverQuiet v).trace =
      .connect none config :: managerCalls w.trace := by
    rw [managerCalls_deliveries hv, ht]
    rfl
  constructor
  · rintro (⟨-, -, hs⟩ | ⟨other, hl, hm⟩)
    · rw [hs] at hc
      exact absurd hc.symm (List.cons_ne_self _ _)
    · rw [hc] at hm
      obtain ⟨-, rfl⟩ := Act.connect.inj (List.cons.inj hm).1
      exact hl
  · intro hl
    exact .inr ⟨config, hl, hc⟩

theorem managerCalls_handleDisconnected (w : World) :
    managerCalls (handleDisconnected w).trace = managerCalls w.trace := by
  rw [handleDisconnected_trace]
  split_ifs <;> rfl

theorem signalsConnect_iff (lost : Option String) (hm : w.win.manager.isNone = false)
    {config : String} (hs : w.win.selected = some config) (hne : config ≠ "") (e : ConnectEnv) :
    Reconnects lost w (signalsConnect w e) ↔
      w.ctl.active = false ∧ w.win.connectionAttemptActive = false ∧
        (e.startWatch.isSome = true ∨ e.status.error.isSome = true ∨
          (e.status.up = false ∧ some config = lost)) := by
  have hw : Reconnects lost w w := .inl ⟨rfl, rfl, rfl⟩
  simp only [signalsConnect, hm, Bool.false_eq_true, if_false]
  split_ifs with ha hc hr hu
  · refine iff_of_false (cancel_not_reconnects ha lost e.cancel) fun h => ?_
    rw [ha] at h
    exact Bool.noConfusion h.1
  · refine iff_of_false ?_ fun h => by rw [hc] at h; exact Bool.noConfusion h.2.1
    apply cancelAttempt_not_reconnects hc lost (handleDisconnected_attempt _)
    rw [managerCalls_handleDisconnected]
    exact managerCalls_cancelOperation { w with win := { w.win with manualDisconnect := true } }
  · refine iff_of_true hw ⟨by simpa using ha, by simpa using hc, ?_⟩
    rcases Bool.or_eq_true_iff.mp hr with hr | hr
    · exact .inl hr
    · exact .inr (.inl hr)
  all_goals
    have ha : w.ctl.active = false := by simpa using ha
    have hr : e.startWatch.isSome = false ∧ e.status.error.isSome = false := by simpa using hr
  · refine iff_of_false (disconnect_not_reconnects ha lost e.disconnect) fun h => ?_
    rcases h.2.2 with h | h | h
    · rw [hr.1] at h; exact Bool.noConfusion h
    · rw [hr.2] at h; exact Bool.noConfusion h
    · rw [hu] at h; exact Bool.noConfusion h.1
  · split
    · next hn => exact absurd (hs.symm.trans hn) (Option.some_ne_none _)
    · next other ho =>
        obtain rfl : config = other := Option.some.inj (hs.symm.trans ho)
        rw [if_neg hne]
        refine (connect_reconnects_iff (w := w) lost config (v := { w with
          win := { w.win with manualDisconnect := false, connectionAttemptActive := true } }.record
            (.connect none config)) ha rfl e.connect.events).trans ?_
        have hu : e.status.up = false := by simpa using hu
        have hc : w.win.connectionAttemptActive = false := by simpa using hc
        constructor
        · intro hl
          exact ⟨ha, hc, .inr (.inr ⟨hu, hl.symm⟩)⟩
        · rintro ⟨-, -, h | h | h⟩
          · rw [hr.1] at h; exact Bool.noConfusion h
          · rw [hr.2] at h; exact Bool.noConfusion h
          · exact h.2.symm

theorem triggerReconnect_iff (lost : Option String) (w : World) (e : ConnectEnv) :
    Reconnects lost w (triggerReconnect w e) ↔ Harmless lost w e := by
  have hw : Reconnects lost w w := .inl ⟨rfl, rfl, rfl⟩
  simp only [triggerReconnect]
  split
  · next hn => exact iff_of_true hw (.inr (.inl hn))
  · next config hs =>
      split_ifs with hne
      · exact iff_of_true hw (.inr (.inr (.inl (hne ▸ hs))))
      · by_cases hm : w.win.manager = none
        · simp only [signalsConnect, hm, Option.isNone_none, if_true]
          exact iff_of_true hw (.inl hm)
        · rw [signalsConnect_iff lost (Option.isNone_eq_false_iff.mpr
            (Option.isSome_iff_ne_none.mpr hm)) hs hne e]
          simp [Harmless, hm, hs, hne]

def ReconnectsOnly (w : World) : Action → Prop
  | .fire id after e => ∀ source lost, due? w.sched id (w.clock + after) = some source →
      source.callback = .reconnect lost → Reconnects lost w (fire (w.pass after) source e)
  | _ => True

def ReconnectHarmless (w : World) : Action → Prop
  | .fire id after e => ∀ source lost, due? w.sched id (w.clock + after) = some source →
      source.callback = .reconnect lost → Harmless lost w e.connect
  | _ => True

theorem fire_reconnects_iff (lost : Option String) (after : Time) {source : Source Callback}
    (hs : source.callback = .reconnect lost) (e : FireEnv) :
    Reconnects lost w (fire (w.pass after) source e) ↔ Harmless lost w e.connect := by
  have h := triggerReconnect_iff lost (w.pass after) e.connect
  simp only [fire, hs]
  exact h

theorem reconnectsOnly_iff (w : World) (a : Action) : ReconnectsOnly w a ↔ ReconnectHarmless w a := by
  cases a with
  | fire id after e =>
      refine forall₂_congr fun source lost => forall₂_congr fun _ hs => ?_
      exact fire_reconnects_iff lost after hs e
  | _ => exact Iff.rfl

/-- In every run, the reconnect timer only ever connects to the lost
configuration exactly when each dispatch of it finds a harmless state. -/
theorem reconnect_only_connects_iff (actions : List Action) :
    AllSteps step ReconnectsOnly initial actions ↔ AllSteps step ReconnectHarmless initial actions :=
  allSteps_iff reconnectsOnly_iff

/-- The tunnel is lost, the user connects again at once, and the timer fires. -/
def reconnectedByHand : List Action :=
  [.backend (some .openVpn3), .load ["a.ovpn"], .select (some "a.ovpn"), .autoReconnect true,
    .connectClick 0 {}, .event 0 (.bool true) none {}, .event 0 (.bool false) none {},
    .connectClick 0 {}, .event second (.bool true) none {}]

def reconnectFires : Action := .fire 1 (2 * second) { connect := { status := .answers true } }

theorem reconnectedByHand_up :
    (run step initial reconnectedByHand).map (fun t => (t.win.manager, t.win.selected,
      (due? t.sched 1 (t.clock + 2 * second)).map (fun source => source.callback))) =
      some (some .openVpn3, some "a.ovpn", some (.reconnect (some "a.ovpn"))) := by
  decide

theorem tunnel_disconnected_by_reconnect : ¬ ∀ actions, AllSteps step ReconnectsOnly initial actions := by
  intro h
  obtain ⟨t, ht, he⟩ := Option.map_eq_some_iff.mp reconnectedByHand_up
  simp only [Prod.mk.injEq] at he
  obtain ⟨hm, hs, hd⟩ := he
  obtain ⟨source, hd, hc⟩ := Option.map_eq_some_iff.mp hd
  have hf := (h (reconnectedByHand ++ [reconnectFires])).next ht (congrArg (Option.map _) hd) source _ hd hc
  have hh : Harmless (some "a.ovpn") t { status := .answers true } :=
    (fire_reconnects_iff _ _ hc { connect := { status := .answers true } }).mp hf
  simp [Harmless, hm, hs, Poll.error, Poll.up] at hh

end EovpnPro.AutoReconnect
