import Mathlib.Data.List.Basic
import Mathlib.Data.String.Basic

namespace EovpnPro.BackendSwitch

inductive Backend
  | networkManager
  | openVpn3
  deriving DecidableEq, Repr

def Backend.getName : Backend → String
  | .networkManager => "networkmanager"
  | .openVpn3 => "openvpn3"

def backends : List Backend := [.networkManager, .openVpn3]

/-- What the host answers while a backend is created: which bindings are loaded and why
not, the exception of each `__init__`, and whether there is a D-Bus binding for it. -/
structure Host where
  available : Backend → Bool
  diagnostics : Backend → String
  initRaises : Backend → Option String
  dbus : Backend → Bool

def availableBackends (host : Host) : List Backend := backends.filter host.available

def reason (host : Host) (preferred : String) : String :=
  match backends.find? fun backend => backend.getName = preferred with
  | some backend => host.diagnostics backend
  | none => "backend is not recognized"

/-- The first backend of the order whose `__init__` does not raise. -/
def initialize? (host : Host) (lastError : String) : List Backend → Except String Backend
  | [] => .error ("Unable to initialize any VPN backend: " ++ lastError)
  | backend :: order =>
      match host.initRaises backend with
      | none => .ok backend
      | some error => initialize? host error order

/-- `create_connection_manager`, as the backend that an instance is made of. -/
def createConnectionManager (host : Host) (preferred : String) : Except String Backend :=
  let available := availableBackends host
  if available = [] then
    .error ("No VPN backend is available. Install/network-manager-openvpn and build the native bindings. Diagnostics: " ++
      "; ".intercalate (backends.map fun backend => backend.getName ++ ": " ++ host.diagnostics backend))
  else if preferred ≠ "" ∧ ∀ backend ∈ available, backend.getName ≠ preferred then
    .error ("Selected VPN backend '" ++ preferred ++ "' is unavailable: " ++ reason host preferred)
  else
    initialize? host "None" (available.filter (fun backend => backend.getName = preferred) ++
      available.filter fun backend => backend.getName ≠ preferred)

/-- A backend object, with the tunnel that it owns. -/
structure Manager where
  serial : Nat
  backend : Backend
  dbus : Bool
  watch : Bool := false
  handle : Option String := none
  deriving DecidableEq, Repr

/-- An exception of the D-Bus library is passed over, and `watch` is false after it too. -/
def Manager.stopWatch (manager : Manager) : Manager :=
  if manager.watch && manager.dbus then { manager with watch := false } else manager

/-- The stored record. There is no instance where none could be made at the start. -/
structure Record where
  name : String
  manager : Option Manager
  deriving DecidableEq, Repr

/-- The record, the persisted setting and what the settings window shows, with the number
of instances that were asked for. -/
structure Desk where
  record : Record
  setting : String
  activeId : Option String
  dcoVisible : Option Bool
  requests : Nat
  known : ∀ manager ∈ record.manager, manager.serial < requests

def created (host : Host) (backendId : String) : Option Backend :=
  match createConnectionManager host backendId with
  | .ok backend => if backend.getName = backendId then some backend else none
  | .error _ => none

namespace Desk

variable (s : Desk)

def reverted : Desk where
  record := { s.record with manager := s.record.manager.map Manager.stopWatch }
  setting := s.record.name
  activeId := s.activeId
  dcoVisible := s.dcoVisible
  requests := s.requests + 1
  known manager h := by
    obtain ⟨old, hold, rfl⟩ := Option.map_eq_some_iff.mp h
    have hserial : old.stopWatch.serial = old.serial := by
      rw [Manager.stopWatch]
      split <;> rfl
    rw [hserial]
    exact Nat.lt_succ_of_lt (s.known old hold)

def switched (host : Host) (backendId : String) (backend : Backend) : Desk where
  record := {
    name := backendId
    manager := some { serial := s.requests, backend, dbus := host.dbus backend } }
  setting := backendId
  activeId := s.activeId
  dcoVisible := s.dcoVisible.map fun _ => backendId = Backend.openVpn3.getName
  requests := s.requests + 1
  known manager h := by
    obtain rfl := Option.some.inj h
    exact Nat.lt_succ_self s.requests

def select (name : String) : Desk := { s with activeId := some name }

end Desk

/-- `on_backend_selected`. Setting the combo box to another value calls it again. -/
def onBackendSelected (hosts : Nat → Host) (s : Desk) : Desk :=
  match s.activeId with
  | none => s
  | some backendId =>
      if backendId = "" then s
      else
        match created (hosts s.requests) backendId with
        | some backend => s.switched (hosts s.requests) backendId backend
        | none =>
            if s.reverted.activeId = some s.record.name then s.reverted
            else onBackendSelected hosts (s.reverted.select s.record.name)
termination_by if s.activeId = some s.record.name then 0 else 1
decreasing_by
  rename_i hactive
  have hother : ¬s.activeId = some s.record.name := hactive
  simp [Desk.reverted, Desk.select, hother]

/-- The stored record is what it was, and the setting names it. -/
structure Unchanged (s t : Desk) : Prop where
  record : t.record = s.record
  setting : t.setting = s.record.name

variable {hosts : Nat → Host} {s : Desk} {backendId : String}

theorem onBackendSelected_created {backend : Backend} (ha : s.activeId = some backendId)
    (hne : backendId ≠ "") (hc : created (hosts s.requests) backendId = some backend) :
    onBackendSelected hosts s = s.switched (hosts s.requests) backendId backend := by
  rw [onBackendSelected]
  simp only [ha, if_neg hne, hc]

theorem onBackendSelected_same (ha : s.activeId = some s.record.name)
    (hc : created (hosts s.requests) s.record.name = none) (hne : s.record.name ≠ "") :
    onBackendSelected hosts s = s.reverted := by
  have hactive : s.reverted.activeId = some s.record.name := ha
  rw [onBackendSelected]
  simp only [ha, if_neg hne, hc, if_pos hactive]

theorem onBackendSelected_other (ha : s.activeId = some backendId) (hne : backendId ≠ "")
    (hc : created (hosts s.requests) backendId = none) (ho : backendId ≠ s.record.name) :
    onBackendSelected hosts s = onBackendSelected hosts (s.reverted.select s.record.name) := by
  have hactive : ¬s.reverted.activeId = some s.record.name := by
    intro h
    exact ho (Option.some.inj (ha.symm.trans h))
  rw [onBackendSelected]
  simp only [ha, if_neg hne, hc, if_neg hactive]

theorem onBackendSelected_empty (ha : s.activeId = some "") : onBackendSelected hosts s = s := by
  rw [onBackendSelected]
  simp only [ha, if_true]

theorem stopWatch_eq_self_iff (manager : Manager) :
    manager.stopWatch = manager ↔ (manager.watch && manager.dbus) = false := by
  rw [Manager.stopWatch]
  split_ifs with h
  · refine iff_of_false (fun hsame => ?_) (by rw [h]; decide)
    have hwatch : false = manager.watch := congrArg Manager.watch hsame
    rw [← hwatch, Bool.false_and] at h
    cases h
  · exact iff_of_true rfl (Bool.eq_false_iff.mpr h)

theorem stopWatch_stopWatch (manager : Manager) : manager.stopWatch.stopWatch = manager.stopWatch := by
  rw [stopWatch_eq_self_iff, Manager.stopWatch]
  split_ifs with h
  · rfl
  · exact Bool.eq_false_iff.mpr h

theorem unchanged_of_stopped {t : Desk}
    (hr : t.record = { s.record with manager := s.record.manager.map Manager.stopWatch })
    (hs : t.setting = s.record.name) :
    Unchanged s t ↔ ∀ manager ∈ s.record.manager, (manager.watch && manager.dbus) = false := by
  refine ⟨fun h manager hm => ?_, fun h => ⟨hr.trans ?_, hs⟩⟩
  · have hsame := congrArg Record.manager (hr.symm.trans h.record)
    rw [Option.mem_def.mp hm] at hsame
    exact (stopWatch_eq_self_iff manager).mp (Option.some.inj hsame)
  · have hsame : s.record.manager.map Manager.stopWatch = s.record.manager := by
      cases hm : s.record.manager with
      | none => rfl
      | some manager => exact congrArg some ((stopWatch_eq_self_iff manager).mpr (h manager hm))
    rw [hsame]

/-- A switch that fails changes nothing exactly when there was no watch to stop and the combo
box does not come back to the old backend by making it anew. -/
theorem unchanged_iff (hosts : Nat → Host) (s : Desk) {backendId : String}
    (ha : s.activeId = some backendId) (hne : backendId ≠ "") (hc : created (hosts s.requests) backendId = none) :
    Unchanged s (onBackendSelected hosts s) ↔
      (∀ manager ∈ s.record.manager, (manager.watch && manager.dbus) = false) ∧
      (backendId = s.record.name ∨ s.record.name = "" ∨
        created (hosts (s.requests + 1)) s.record.name = none) := by
  by_cases ho : backendId = s.record.name
  · subst ho
    rw [onBackendSelected_same ha hc hne, unchanged_of_stopped rfl rfl, and_iff_left (.inl rfl)]
  · rw [onBackendSelected_other ha hne hc ho, or_iff_right ho]
    by_cases hempty : s.record.name = ""
    · rw [onBackendSelected_empty (congrArg some hempty), unchanged_of_stopped rfl rfl,
        and_iff_left (.inl hempty)]
    · rw [or_iff_right hempty]
      cases hagain : created (hosts (s.requests + 1)) s.record.name with
      | none =>
          have hsame : onBackendSelected hosts (s.reverted.select s.record.name) =
            (s.reverted.select s.record.name).reverted := onBackendSelected_same rfl hagain hempty
          have htwice : s.record.manager.map (Manager.stopWatch ∘ Manager.stopWatch) =
              s.record.manager.map Manager.stopWatch := by
            have hstop : Manager.stopWatch ∘ Manager.stopWatch = Manager.stopWatch := funext stopWatch_stopWatch
            rw [hstop]
          rw [hsame, and_iff_left rfl]
          refine unchanged_of_stopped ?_ rfl
          simp only [Desk.reverted, Desk.select, Option.map_map, htwice]
      | some backend =>
          have hnew : onBackendSelected hosts (s.reverted.select s.record.name) =
              (s.reverted.select s.record.name).switched (hosts (s.requests + 1)) s.record.name backend :=
            onBackendSelected_created rfl hempty hagain
          rw [hnew]
          refine iff_of_false (fun h => ?_) fun h => by cases h.2
          -- The new instance has a number that the stored one cannot have.
          have hserial := s.known _ (congrArg Record.manager h.record).symm
          exact absurd hserial (Nat.not_lt.mpr (Nat.le_succ s.requests))

def plainHost : Host where
  available backend := backend = .networkManager
  diagnostics
    | .networkManager => "available"
    | .openVpn3 => "native bindings are unavailable"
  initRaises _ := none
  dbus _ := true

def tunnelled : Desk where
  record := {
    name := "networkmanager"
    manager := some
      { serial := 0, backend := .networkManager, dbus := true, watch := true, handle := some "u" } }
  setting := "networkmanager"
  activeId := some "openvpn3"
  dcoVisible := some false
  requests := 1
  known := by decide

theorem created_openVpn3 : created plainHost "openvpn3" = none := by decide

theorem created_networkManager : created plainHost "networkmanager" = some .networkManager := by decide

/-- The tunnel is lost with the instance that owned it. -/
theorem tunnelled_changed : ¬ ∀ (hosts : Nat → Host) (s : Desk) (backendId : String),
    s.activeId = some backendId → backendId ≠ "" → created (hosts s.requests) backendId = none →
      Unchanged s (onBackendSelected hosts s) := by
  intro h
  have hsame := (h (fun _ => plainHost) tunnelled "openvpn3" rfl (by decide) created_openVpn3).record
  let again := tunnelled.reverted.select "networkmanager"
  have hfirst :
      onBackendSelected (fun _ => plainHost) tunnelled = onBackendSelected (fun _ => plainHost) again :=
    onBackendSelected_other rfl (by decide) created_openVpn3 (by decide)
  have hsecond :
      onBackendSelected (fun _ => plainHost) again = again.switched plainHost "networkmanager" _ :=
    onBackendSelected_created rfl (by decide) created_networkManager
  rw [hfirst.trans hsecond] at hsame
  cases congrArg (fun record => record.manager.bind Manager.handle) hsame

def bareHost : Host := { plainHost with available := fun _ => false }

def unwatched : Desk where
  record := {
    name := "networkmanager"
    manager := some { serial := 0, backend := .networkManager, dbus := true, handle := some "u" } }
  setting := "networkmanager"
  activeId := some "openvpn3"
  dcoVisible := some false
  requests := 1
  known := by decide

theorem unwatched_unchanged : Unchanged unwatched (onBackendSelected (fun _ => bareHost) unwatched) :=
  (unchanged_iff _ unwatched rfl (by decide) (by decide)).mpr ⟨by decide, .inr (.inr (by decide))⟩

end EovpnPro.BackendSwitch
