import EovpnPro.CandidateFate
import EovpnPro.Runs

namespace EovpnPro.NmNotifications

open AutoConnect Events Sources AppState WindowEvents CascadeController MainWindow
open CascadeLedger CandidateFate Runs

def errorReasons : List String :=
  ["The reason for the VPN connection state change is unknown.",
    "No reason was given for the VPN connection state change.",
    "The VPN connection changed state because the user disconnected it.",
    "The VPN connection changed state because the device it was using was disconnected.",
    "The service providing the VPN connection was stopped.",
    "The IP config of the VPN connection was invalid.",
    "The connection attempt to the VPN service timed out.",
    "A timeout occurred while starting the service providing the VPN connection.",
    "Starting the service providing the VPN connection failed.",
    "Necessary secrets for the VPN connection were not provided.",
    "Authentication to the VPN server failed.",
    "The connection was deleted from settings."]

/-- `reason_msg` of `NMDbus.sub_callback`. -/
def reasonMessage (reason : Nat) : Option String :=
  if reason ∈ [5, 6, 7, 8, 9, 10] ∧ reason < errorReasons.length then errorReasons[reason]? else none

/-- The connection a signal is about: the run and the position of the candidate,
or a tunnel that no candidate asked for. -/
abbrev Owner := Option (Nat × Nat)

/-- A callback that the main loop holds: `callback(False, error)`. -/
structure Notice where
  owner : Owner
  error : Option String
  due : Time
  deriving DecidableEq, Repr

/-- An advance made while a notice was handed over. -/
structure Charge where
  owner : Owner
  run : Nat
  position : Nat
  deriving DecidableEq, Repr

structure NmWorld where
  world : World := {}
  inflight : List Notice := []
  charged : List Charge := []

def isBegin : Act → Bool
  | .begin => true
  | _ => false

def runs (trace : List Act) : Nat := trace.countP isBegin

/-- The connection has been asked for, or is older than the program. -/
def called (owner : Owner) : List Act → Bool
  | [] => owner.isNone
  | .connect position _ :: older =>
      decide (owner = position.map (fun k => (runs older, k))) || called owner older
  | _ :: older => called owner older

def quietDrop (e : DropEnv) : Bool := e.disconnect.events.isEmpty

def quietTry (e : TryEnv) : Bool :=
  quietDrop e.timeout.drop && e.disconnect.events.isEmpty && e.connect.events.isEmpty && quietDrop e.drop

def quietStart (e : StartEnv) : Bool := e.disconnect.events.isEmpty && quietTry e.attempt

def quietConnect (e : ConnectEnv) : Bool :=
  quietDrop e.cancel && e.disconnect.events.isEmpty && e.connect.events.isEmpty

/-- What else the program does over this backend, whose calls return before any
event is delivered. `DISCONNECTED` and `FAILED` come as notices only. -/
def overNetworkManager : Action → Bool
  | .backend manager => decide (manager = some .networkManager)
  | .fastest _ cancelling e => quietDrop cancelling && quietStart e
  | .cancelCascade _ e => quietDrop e
  | .connectClick _ e => quietConnect e
  | .speedTestDone _ _ cancelling e => quietDrop cancelling && quietStart e
  | .event _ result error e => quietDrop e && !terminal (normalizeConnectionEvent result error).kind
  | .fire _ _ e => quietDrop e.timeout.drop && quietDrop e.tick.timeout.drop && quietTry e.attempt &&
      quietConnect e.connect
  | .load _ | .filter _ | .select _ | .autoReconnect _ | .speedTestClick | .sortClick _ => true

inductive NmAction
  | act (a : Action)
  | signal (owner : Owner) (reason : Nat) (after : Time)
  | failure (owner : Owner) (message : String) (after : Time)
  | deliver (k : Nat) (after : Time) (suppressed : Bool) (e : DropEnv)

def handOver (w : World) (n : Notice) (suppressed : Bool) (e : DropEnv) : World :=
  if suppressed then w else onConnectionEvent (advance e) w (.bool false) n.error

def charge (w t : World) (n : Notice) : List Charge :=
  if t.ctl.index = w.ctl.index then [] else [⟨n.owner, runs w.trace, w.ctl.index⟩]

def nmStep (s : NmWorld) : NmAction → Option NmWorld
  | .act a => if overNetworkManager a then (step s.world a).map fun w => { s with world := w } else none
  | .signal owner reason after =>
      if called owner s.world.trace then
        let w := s.world.pass after
        some { s with world := w, inflight := s.inflight ++
          [⟨owner, reasonMessage reason, w.clock + second⟩] }
      else none
  | .failure owner message after =>
      if called owner s.world.trace then
        let w := s.world.pass after
        some { s with world := w, inflight := s.inflight ++ [⟨owner, some message, w.clock⟩] }
      else none
  | .deliver k after suppressed e =>
      (s.inflight[k]?).bind fun n =>
        let w := s.world.pass after
        if quietDrop e && decide (n.due ≤ w.clock) then
          let t := handOver w n suppressed e
          some ⟨t, s.inflight.eraseIdx k, charge w t n ++ s.charged⟩
        else none

/-- Every advance made for a notice is made for the candidate it belongs to. -/
def ChargedRightly (s : NmWorld) : Prop :=
  ∀ c ∈ s.charged, c.owner = some (c.run, c.position)

def current (w : World) (n : Notice) : Prop := n.owner = some (runs w.trace, w.ctl.index)

/-- A notice of another connection does not arrive, as a definitive failure,
while the successor is connecting. -/
def Timely (s : NmWorld) : NmAction → Prop
  | .deliver k _ suppressed _ => ∀ n, s.inflight[k]? = some n → suppressed = false →
      s.world.ctl.active = true → s.world.ctl.phase = .connecting →
        isGenericFailure (normalizeConnectionEvent (.bool false) n.error) = false → current s.world n
  | _ => True

theorem terminal_notice (error : Option String) :
    terminal (normalizeConnectionEvent (.bool false) error).kind = true := by
  cases error <;> rfl

theorem notice_not_up (error : Option String) : isUp (.bool false) error = false := by
  cases error <;> rfl

theorem advance_index {w : World} (ha : w.ctl.active = true) (e : DropEnv) (reason : AttemptResult)
    (code message : Option String) : (advance e w reason code message).ctl.index = w.ctl.index + 1 := by
  have hl := congrArg AttemptLedger.Ledger.index (ledger_advance ha e reason code message)
  rw [apply_ite AttemptLedger.Ledger.index] at hl
  exact hl.trans (ite_self _)

def advances (w : World) (n : Notice) (suppressed : Bool) : Prop :=
  suppressed = false ∧ w.ctl.active = true ∧ w.ctl.phase = .connecting ∧
    isGenericFailure (normalizeConnectionEvent (.bool false) n.error) = false

theorem handOver_advances {w : World} {n : Notice} {suppressed : Bool} (h : advances w n suppressed)
    (e : DropEnv) :
    (handOver w n suppressed e).ctl.index = w.ctl.index + 1 := by
  obtain ⟨rfl, ha, hp, hg⟩ := h
  have ht : (terminal (normalizeConnectionEvent (.bool false) n.error).kind &&
      !isGenericFailure (normalizeConnectionEvent (.bool false) n.error)) = true := by
    rw [terminal_notice, hg]
    rfl
  simp only [handOver, Bool.false_eq_true, if_false, onConnectionEvent_advance ha hp ht]
  exact advance_index ha e _ _ _

theorem handOver_ignored {w : World} {n : Notice} {suppressed : Bool}
    (h : ¬ advances w n suppressed) (e : DropEnv) :
    (handOver w n suppressed e).ctl.index = w.ctl.index := by
  cases suppressed with
  | true => rfl
  | false =>
      simp only [handOver, Bool.false_eq_true, if_false]
      suffices hl : ledger (onConnectionEvent (advance e) w (.bool false) n.error) = ledger w from
        congrArg AttemptLedger.Ledger.index hl
      cases ha : w.ctl.active with
      | false => exact ledger_onConnectionEvent_inactive _ ha _ _
      | true =>
          by_cases hp : w.ctl.phase = .connecting
          · have hg : isGenericFailure (normalizeConnectionEvent (.bool false) n.error) = true := by
              by_contra hg
              exact h ⟨rfl, ha, hp, Bool.eq_false_iff.mpr hg⟩
            exact onConnectionEvent_ignored ha (notice_not_up _) (by rw [hg, Bool.not_true, Bool.and_false]) _
          · exact ledger_onConnectionEvent_settling _ ha hp (notice_not_up _)

theorem charge_iff (w : World) (n : Notice) (suppressed : Bool) (e : DropEnv) :
    (∀ c ∈ charge w (handOver w n suppressed e) n, c.owner = some (c.run, c.position)) ↔
      (advances w n suppressed → current w n) := by
  by_cases h : advances w n suppressed
  · have hi : ¬ (handOver w n suppressed e).ctl.index = w.ctl.index := by
      rw [handOver_advances h e]
      omega
    simp [charge, hi, current, h]
  · simp [charge, handOver_ignored h e, h]

theorem nmStep_iff {s t : NmWorld} (h : ChargedRightly s) {a : NmAction} (ht : nmStep s a = some t) :
    ChargedRightly t ↔ Timely s a := by
  cases a with
  | act a =>
      simp only [nmStep] at ht
      split_ifs at ht
      obtain ⟨w, -, rfl⟩ := Option.map_eq_some_iff.mp ht
      exact iff_of_true h trivial
  | signal owner reason after =>
      simp only [nmStep] at ht
      split_ifs at ht
      obtain rfl := Option.some.inj ht
      exact iff_of_true h trivial
  | failure owner message after =>
      simp only [nmStep] at ht
      split_ifs at ht
      obtain rfl := Option.some.inj ht
      exact iff_of_true h trivial
  | deliver k after suppressed e =>
      obtain ⟨n, hn, ht⟩ := Option.bind_eq_some_iff.mp ht
      simp only at ht
      split_ifs at ht
      obtain rfl := Option.some.inj ht
      have hc := charge_iff (s.world.pass after) n suppressed e
      constructor
      · intro hq m hm hs ha hp hg
        obtain rfl := Option.some.inj (hn.symm.trans hm)
        exact hc.mp (fun c hc => hq c (List.mem_append_left _ hc)) ⟨hs, ha, hp, hg⟩
      · intro hq c hm
        rcases List.mem_append.mp hm with hm | hm
        · exact hc.mpr (fun hv => hq n hn hv.1 hv.2.1 hv.2.2.1 hv.2.2.2) c hm
        · exact h c hm

/-- In every run, notices are charged to their own candidates exactly when no
other connection's notice arrives while a successor is connecting. -/
theorem charged_rightly_iff (actions : List NmAction) :
    AllStates nmStep ChargedRightly {} actions ↔ AllSteps nmStep Timely {} actions :=
  allStates_iff_allSteps (I := ChargedRightly) (fun _ h => h) (fun _ _ _ h ht => (nmStep_iff h ht).mpr)
    (fun _ _ _ h ht => (nmStep_iff h ht).mp) actions (fun _ hc => absurd hc List.not_mem_nil)

def activating : Poll := .answers true

def lateNotice : List NmAction :=
  [.act (.backend (some .networkManager)), .act (.load ["a.ovpn", "b.ovpn", "c.ovpn"]), .act .speedTestClick,
    .act (.speedTestDone 0 [("a.ovpn", none)] {} {}), .act (.fastest 0 {} {}),
    .act (.fire 1 (30 * second) { timeout := { drop := { status := activating } } }),
    .signal (some (1, 0)) 2 (10 * millisecond), .act (.fire 3 (540 * millisecond) {}),
    .deliver 0 (460 * millisecond) false {}]

theorem lateNotice_charged :
    (run nmStep {} lateNotice).map (fun t => t.charged) = some [⟨some (1, 0), 1, 1⟩] := by
  decide

theorem notice_charged_to_successor : ¬ ∀ actions, AllStates nmStep ChargedRightly {} actions := by
  intro h
  obtain ⟨t, ht, hc⟩ := Option.map_eq_some_iff.mp lateNotice_charged
  have hr : ChargedRightly t := (h lateNotice).last ht
  have ho := hr ⟨some (1, 0), 1, 1⟩ (hc ▸ List.mem_singleton_self _)
  simp at ho

end EovpnPro.NmNotifications
