import EovpnPro.BackendSwitch
import EovpnPro.Runs

namespace EovpnPro.BackendSessions

open BackendSwitch Runs

/-- `get_setting(MANAGER) or "networkmanager"` -/
def preferredOf (setting : String) : String := if setting = "" then Backend.networkManager.getName else setting

/-- The start of the program, with the setting of the last session. -/
def start (hosts : Nat → Host) (s : Desk) : Desk :=
  let host := hosts s.requests
  let preferred := preferredOf s.setting
  match createConnectionManager host preferred with
  | .ok backend =>
      { record := ⟨backend.getName, some { serial := s.requests, backend, dbus := host.dbus backend }⟩
        setting := if backend.getName ≠ preferred then backend.getName else s.setting
        activeId := none
        dcoVisible := none
        requests := s.requests + 1
        known := by
          intro manager h
          obtain rfl := Option.some.inj h
          exact Nat.lt_succ_self s.requests }
  | .error _ =>
      { record := ⟨preferred, none⟩
        setting := s.setting
        activeId := none
        dcoVisible := none
        requests := s.requests + 1
        known := fun _ h => by cases h }

/-- The settings window is opened. -/
def showSettings (hosts : Nat → Host) (s : Desk) : Desk :=
  let manager := preferredOf s.setting
  let available := (availableBackends (hosts s.requests)).any fun backend => backend.getName = manager
  { s with
    activeId := if available then some manager else none
    dcoVisible := some (available && manager = Backend.openVpn3.getName) }

/-- What happens from one session to the next. The setting is stored from elsewhere by a
reset or a restore. -/
inductive Event
  | start
  | showSettings
  | choose (backendId : String)
  | stored (setting : String)

def step (hosts : Nat → Host) (s : Desk) : Event → Option Desk
  | .start => some (start hosts s)
  | .showSettings => some (showSettings hosts s)
  | .choose backendId => some (onBackendSelected hosts (s.select backendId))
  | .stored setting => some { s with setting := setting }

/-- The record names the backend that runs. -/
structure Named (s : Desk) : Prop where
  name : s.record.name ≠ ""
  manager : ∀ manager ∈ s.record.manager, manager.backend.getName = s.record.name

/-- The setting names the backend of the record, and the switch for the kernel module
is shown for the backend that has it. -/
structure Agrees (s : Desk) : Prop where
  setting : preferredOf s.setting = s.record.name
  dco : s.dcoVisible = some true → s.record.name = Backend.openVpn3.getName

/-- The switch is hidden only when the backend that runs has no such module. -/
structure Shown (s : Desk) : Prop where
  agrees : Agrees s
  hidden : s.record.manager.isSome = true → s.dcoVisible = some false → s.record.name ≠ Backend.openVpn3.getName

/-- No other backend is stored from elsewhere. -/
def Kept (s : Desk) : Event → Prop
  | .stored setting => preferredOf setting = s.record.name
  | _ => True

variable {hosts : Nat → Host} {s t : Desk}

theorem getName_ne_empty (backend : Backend) : backend.getName ≠ "" := by
  cases backend <;> decide

theorem preferredOf_ne_empty (setting : String) : preferredOf setting ≠ "" := by
  rw [preferredOf]
  split
  · exact getName_ne_empty _
  · assumption

theorem preferredOf_of_ne {setting : String} (h : setting ≠ "") : preferredOf setting = setting := if_neg h

theorem created_getName {host : Host} {backendId : String} {backend : Backend}
    (h : created host backendId = some backend) : backend.getName = backendId := by
  rw [created] at h
  split at h
  · split at h
    · cases h
      assumption
    · cases h
  · cases h

theorem start_spec (hosts : Nat → Host) (s : Desk) : Named (start hosts s) ∧ Agrees (start hosts s) := by
  rw [start]
  cases createConnectionManager (hosts s.requests) (preferredOf s.setting) with
  | error details =>
      refine ⟨⟨preferredOf_ne_empty _, ?_⟩, rfl, ?_⟩
      · exact fun _ h => by cases h
      · exact fun h => by cases h
  | ok backend =>
      refine ⟨⟨getName_ne_empty backend, ?_⟩, ?_, ?_⟩
      · intro manager h
        obtain rfl := Option.some.inj h
        rfl
      · simp only
        split
        · exact preferredOf_of_ne (getName_ne_empty backend)
        · rename_i hsame
          exact (not_not.mp hsame).symm
      · exact fun h => by cases h

def Hosted (host : Host) (s : Desk) : Prop :=
  s.record.manager.isSome = true → ∃ backend ∈ availableBackends host, backend.getName = s.record.name

/-- What a choice leaves: the setting has the name of the record, and the switch stays
right if it was. -/
structure Chosen (hosts : Nat → Host) (s t : Desk) : Prop where
  named : Named t
  setting : t.setting = t.record.name
  dco : (s.dcoVisible = some true → s.record.name = Backend.openVpn3.getName) →
    t.dcoVisible = some true → t.record.name = Backend.openVpn3.getName
  made : t.record.name = s.record.name ∧ t.record.manager.isSome = s.record.manager.isSome ∧
      t.dcoVisible = s.dcoVisible ∨
    (∃ n backend, created (hosts n) t.record.name = some backend) ∧
      (t.dcoVisible = some false → t.record.name ≠ Backend.openVpn3.getName)

theorem chosen_switched {n : Nat} {backendId : String} {backend : Backend} (s : Desk) (hne : backendId ≠ "")
    (hc : created (hosts n) backendId = some backend) :
    Chosen hosts s (s.switched (hosts n) backendId backend) where
  named := by
    refine ⟨hne, fun manager h => ?_⟩
    obtain rfl := Option.some.inj h
    exact created_getName hc
  setting := rfl
  dco _ h := by
    obtain ⟨_, -, heq⟩ := Option.map_eq_some_iff.mp h
    exact of_decide_eq_true heq
  made := by
    refine .inr ⟨⟨n, backend, hc⟩, fun h => ?_⟩
    obtain ⟨_, -, heq⟩ := Option.map_eq_some_iff.mp h
    exact of_decide_eq_false heq

variable (hosts) in
theorem chosen_reverted (hs : Named s) : Chosen hosts s s.reverted where
  named := by
    refine ⟨hs.name, fun manager h => ?_⟩
    obtain ⟨old, hold, rfl⟩ := Option.map_eq_some_iff.mp h
    have hbackend : old.stopWatch.backend = old.backend := by
      rw [Manager.stopWatch]
      split <;> rfl
    rw [hbackend]
    exact hs.manager old hold
  setting := rfl
  dco h := h
  made := .inl ⟨rfl, Option.isSome_map, rfl⟩

variable (hosts) in
theorem chosen_same (hs : Named s) (ha : s.activeId = some s.record.name) :
    Chosen hosts s (onBackendSelected hosts s) := by
  cases hc : created (hosts s.requests) s.record.name with
  | some backend =>
      rw [onBackendSelected_created ha hs.name hc]
      exact chosen_switched s hs.name hc
  | none =>
      rw [onBackendSelected_same ha hc hs.name]
      exact chosen_reverted hosts hs

variable (hosts) in
theorem chosen_onBackendSelected {backendId : String} (hs : Named s) (ha : s.activeId = some backendId)
    (hne : backendId ≠ "") : Chosen hosts s (onBackendSelected hosts s) := by
  cases hc : created (hosts s.requests) backendId with
  | some backend =>
      rw [onBackendSelected_created ha hne hc]
      exact chosen_switched s hne hc
  | none =>
      by_cases ho : backendId = s.record.name
      · rw [ho] at ha
        exact chosen_same hosts hs ha
      · rw [onBackendSelected_other ha hne hc ho]
        have hback : Named (s.reverted.select s.record.name) :=
          ⟨(chosen_reverted hosts hs).named.name, (chosen_reverted hosts hs).named.manager⟩
        obtain ⟨hnamed, hsetting, hdco, hmade⟩ := chosen_same hosts hback rfl
        refine ⟨hnamed, hsetting, hdco, hmade.imp_left fun h => ⟨h.1, h.2.1.trans Option.isSome_map, h.2.2⟩⟩

theorem named_step {e : Event} (h : Named s) (hstep : step hosts s e = some t) : Named t := by
  cases e with
  | start =>
      cases hstep
      exact (start_spec hosts s).1
  | showSettings | stored =>
      cases hstep
      exact ⟨h.name, h.manager⟩
  | choose backendId =>
      cases hstep
      have hselect : Named (s.select backendId) := ⟨h.name, h.manager⟩
      by_cases hne : backendId = ""
      · rw [hne, onBackendSelected_empty rfl]
        exact ⟨h.name, h.manager⟩
      · exact (chosen_onBackendSelected hosts hselect rfl hne).named

theorem agrees_step {e : Event} (hn : Named s) (h : Agrees s) (hstep : step hosts s e = some t) :
    Agrees t ↔ Kept s e := by
  cases e with
  | start =>
      cases hstep
      exact iff_of_true (start_spec hosts s).2 trivial
  | showSettings =>
      cases hstep
      refine iff_of_true ⟨h.setting, fun hdco => ?_⟩ trivial
      simp only [showSettings, Option.some.injEq, Bool.and_eq_true, decide_eq_true_eq] at hdco
      exact h.setting.symm.trans hdco.2
  | choose backendId =>
      cases hstep
      refine iff_of_true ?_ trivial
      by_cases hne : backendId = ""
      · rw [hne, onBackendSelected_empty rfl]
        exact ⟨h.setting, h.dco⟩
      · have hselect : Named (s.select backendId) := ⟨hn.name, hn.manager⟩
        obtain ⟨hnamed, hsetting, hdco, -⟩ := chosen_onBackendSelected hosts hselect rfl hne
        refine ⟨?_, hdco h.dco⟩
        rw [hsetting]
        exact preferredOf_of_ne hnamed.name
  | stored setting =>
      cases hstep
      exact ⟨fun ht => ht.setting, fun hkept => ⟨hkept, h.dco⟩⟩

section OneHost

variable {host : Host}

theorem mem_of_initialize? {lastError : String} {order : List Backend} {backend : Backend}
    (h : initialize? host lastError order = .ok backend) : backend ∈ order := by
  induction order generalizing lastError with
  | nil => cases h
  | cons first order ih =>
      rw [initialize?] at h
      split at h
      · obtain rfl := Except.ok.inj h
        exact List.mem_cons_self
      · exact List.mem_cons_of_mem first (ih h)

theorem mem_available_of_created {preferred : String} {backend : Backend}
    (h : createConnectionManager host preferred = .ok backend) : backend ∈ availableBackends host := by
  simp only [createConnectionManager] at h
  split_ifs at h
  obtain hm | hm := List.mem_append.mp (mem_of_initialize? h) <;> exact List.mem_of_mem_filter hm

theorem available_of_created {backendId : String} {backend : Backend} (h : created host backendId = some backend) :
    ∃ backend ∈ availableBackends host, backend.getName = backendId := by
  refine ⟨backend, ?_, created_getName h⟩
  rw [created] at h
  split at h
  · rename_i hc
    split_ifs at h
    obtain rfl := Option.some.inj h
    exact mem_available_of_created hc
  · cases h

theorem hosted_start (host : Host) (s : Desk) : Hosted host (start (fun _ => host) s) ∧
    (start (fun _ => host) s).dcoVisible = none := by
  rw [start]
  cases hc : createConnectionManager host (preferredOf s.setting) with
  | error details => exact ⟨(fun h => by cases h), rfl⟩
  | ok backend => exact ⟨fun _ => ⟨backend, mem_available_of_created hc, rfl⟩, rfl⟩

theorem shown_step {e : Event} (hn : Named s) (hh : Hosted host s) (h : Shown s)
    (hstep : step (fun _ => host) s e = some t) : Hosted host t ∧ (Shown t ↔ Kept s e) := by
  have hagrees := agrees_step hn h.agrees hstep
  cases e with
  | start =>
      cases hstep
      obtain ⟨hhosted, hnone⟩ := hosted_start host s
      refine ⟨hhosted, iff_of_true ⟨hagrees.mpr trivial, fun _ hdco => ?_⟩ trivial⟩
      rw [hnone] at hdco
      cases hdco
  | showSettings =>
      cases hstep
      refine ⟨hh, iff_of_true ⟨hagrees.mpr trivial, fun hmanager hdco => ?_⟩ trivial⟩
      obtain ⟨backend, hmem, hname⟩ := hh hmanager
      rw [← h.agrees.setting] at hname
      have havailable : ((availableBackends host).any fun backend => backend.getName = preferredOf s.setting) = true :=
        List.any_eq_true.mpr ⟨backend, hmem, decide_eq_true hname⟩
      simp only [showSettings, havailable, Bool.true_and, Option.some.injEq, decide_eq_false_iff_not] at hdco
      exact fun hrecord => hdco (h.agrees.setting.trans hrecord)
  | choose backendId =>
      cases hstep
      by_cases hne : backendId = ""
      · rw [hne, onBackendSelected_empty rfl] at hagrees ⊢
        exact ⟨hh, iff_of_true ⟨hagrees.mpr trivial, h.hidden⟩ trivial⟩
      · have hselect : Named (s.select backendId) := ⟨hn.name, hn.manager⟩
        obtain ⟨-, -, -, ⟨hname, hsome, hdco⟩ | ⟨⟨n, backend, hc⟩, hdco⟩⟩ :=
          chosen_onBackendSelected (fun _ => host) hselect rfl hne
        · refine ⟨fun hm => ?_, iff_of_true ⟨hagrees.mpr trivial, fun hm hd => ?_⟩ trivial⟩
          · rw [hname]
            exact hh (hsome.symm.trans hm)
          · rw [hname]
            exact h.hidden (hsome.symm.trans hm) (hdco.symm.trans hd)
        · exact ⟨fun _ => available_of_created hc, iff_of_true ⟨hagrees.mpr trivial, fun _ => hdco⟩ trivial⟩
  | stored setting =>
      cases hstep
      exact ⟨hh, fun ht => hagrees.mp ht.agrees, fun hkept => ⟨hagrees.mpr hkept, h.hidden⟩⟩

end OneHost

def installed (setting : String) : Desk where
  record := ⟨"", none⟩
  setting := setting
  activeId := none
  dcoVisible := none
  requests := 0
  known := fun _ h => by cases h

/-- Through any number of sessions the record names the backend that runs, and the setting
and the switch agree with it throughout exactly those in which no other backend is stored
from elsewhere. On a host that stays the same the switch is then there when it should be. -/
theorem sessions_agree_iff (hosts : Nat → Host) (setting : String) (events : List Event) :
    AllStates (step hosts) Named (start hosts (installed setting)) events ∧
      (AllStates (step hosts) Agrees (start hosts (installed setting)) events ↔
        AllSteps (step hosts) Kept (start hosts (installed setting)) events) ∧
      ∀ host, AllStates (step fun _ => host) Shown (start (fun _ => host) (installed setting)) events ↔
        AllSteps (step fun _ => host) Kept (start (fun _ => host) (installed setting)) events := by
  obtain ⟨hnamed, hagrees⟩ := start_spec hosts (installed setting)
  refine ⟨allStates_of_invariant (fun _ _ _ h hs => named_step h hs) hnamed events, ?_, fun host => ?_⟩
  · exact allStates_iff_allSteps (I := fun s => Named s ∧ Agrees s) (fun _ h => h.2)
      (fun _ _ _ h hs hk => ⟨named_step h.1 hs, (agrees_step h.1 h.2 hs).mpr hk⟩)
      (fun _ _ _ h hs ht => (agrees_step h.1 h.2 hs).mp ht) events ⟨hnamed, hagrees⟩
  · obtain ⟨hnamed, hagrees⟩ := start_spec (fun _ => host) (installed setting)
    obtain ⟨hhosted, hnone⟩ := hosted_start host (installed setting)
    refine allStates_iff_allSteps (I := fun s => Named s ∧ Hosted host s ∧ Shown s) (fun _ h => h.2.2)
      (fun _ _ _ ⟨hn, hh, h⟩ hs hk => ⟨named_step hn hs, (shown_step hn hh h hs).1, (shown_step hn hh h hs).2.mpr hk⟩)
      (fun _ _ _ ⟨hn, hh, h⟩ hs ht => (shown_step hn hh h hs).2.mp ht) events
      ⟨hnamed, hhosted, hagrees, fun _ hdco => ?_⟩
    rw [hnone] at hdco
    cases hdco

end EovpnPro.BackendSessions
