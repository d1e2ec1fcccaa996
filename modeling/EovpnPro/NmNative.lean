import Mathlib.Data.List.Dedup
import Mathlib.Data.List.Nodup
import Mathlib.Data.String.Basic

namespace EovpnPro.NmNative

/-- A connection profile as libnm shows it. The ID and the VPN data are absent
when the setting that has them is. -/
structure Profile where
  uuid : String
  connectionId : Option String := none
  vpnData : Option (List (String × String)) := none
  named : uuid ≠ "" := by decide
  deriving DecidableEq, Repr

structure ActiveConnection where
  uuid : String
  isVpn : Bool := true
  vpnState : Nat := 0
  deriving DecidableEq, Repr

/-- What the NetworkManager service holds. No two profiles have one UUID, and a
profile is active at most once. -/
structure Service where
  profiles : List Profile := []
  actives : List ActiveConnection := []
  distinct : (profiles.map Profile.uuid).Nodup := by decide
  once : (actives.map ActiveConnection.uuid).Nodup := by decide

variable {sys : Service}

def managedKey : String := "managed-by"

def managedValue : String := "eovpn-pro"

def connectionIdPrefix : String := "eOVPN-Pro: "

def profile? (sys : Service) (uuid : String) : Option Profile :=
  sys.profiles.find? (fun p => p.uuid = uuid)

def active? (sys : Service) (uuid : String) : Option ActiveConnection :=
  sys.actives.find? (fun a => a.uuid = uuid)

/-- `eovpn_connection_is_managed`. -/
def connectionIsManaged (p : Profile) : Bool :=
  p.connectionId.any (fun id => connectionIdPrefix.toList.isPrefixOf id.toList) ||
    decide (p.vpnData.bind (fun items => items.lookup managedKey) = some managedValue)

def activeIsManaged (sys : Service) (a : ActiveConnection) : Bool :=
  (profile? sys a.uuid).any connectionIsManaged

/-- How a request to the service ends: carried out, refused, or with the watchdog,
which leaves open whether it is carried out all the same. -/
inductive Ending
  | finished
  | refused
  | timedOut (carriedOut : Bool)
  deriving DecidableEq, Repr

def Ending.takesEffect : Ending → Bool
  | finished => true
  | refused => false
  | timedOut carriedOut => carriedOut

/-- What an entry point meets: whether it gets a client, and its request. -/
structure Call where
  client : Bool := true
  ending : Ending := .finished
  deriving DecidableEq, Repr

/-- What `add_connection` meets. `imported` is the plugin's reading of the file,
`none` without a plugin, an editor or a readable file. -/
structure AddCall where
  imported : Option Profile := none
  flagsKept : Bool := true
  sourceName : String := ""
  toCall : Call := {}
  deriving DecidableEq, Repr

def addProfile (sys : Service) (p : Profile) (h : p.uuid ∉ sys.profiles.map Profile.uuid) :
    Service :=
  { sys with profiles := p :: sys.profiles, distinct := List.nodup_cons.mpr ⟨h, sys.distinct⟩ }

def removeProfile (sys : Service) (uuid : String) : Service :=
  { sys with
    profiles := sys.profiles.filter (fun p => p.uuid ≠ uuid)
    distinct := sys.distinct.sublist (List.filter_sublist.map _) }

def activateProfile (sys : Service) (p : Profile)
    (h : p.uuid ∉ sys.actives.map ActiveConnection.uuid) : Service :=
  { sys with
    actives := sys.actives ++ [{ uuid := p.uuid, isVpn := p.vpnData.isSome }]
    once := by
      rw [List.map_append]
      refine List.nodup_append.mpr ⟨sys.once, List.nodup_singleton _, fun a ha b hb he => ?_⟩
      obtain rfl := List.mem_singleton.mp hb
      subst he
      exact h ha }

def deactivate (sys : Service) (uuid : String) : Service :=
  { sys with
    actives := sys.actives.filter (fun a => a.uuid ≠ uuid)
    once := sys.once.sublist (List.filter_sublist.map _) }

/-- The profile is put under the program's ID; the user name becomes a data item. -/
def tagged (p : Profile) (sourceName : String) (username : Option String) : Profile :=
  { p with
    connectionId := p.connectionId.map fun _ => connectionIdPrefix ++ sourceName
    vpnData := p.vpnData.map fun items =>
      match username with
      | some name =>
          if name = "" then items else ("username", name) :: items.filter (fun i => i.1 ≠ "username")
      | none => items }

def added (sys : Service) (username password : Option String) (c : AddCall) : Option Profile :=
  match c.imported with
  | none => none
  | some p =>
      let secret := p.vpnData.isSome && password.any (fun text => text ≠ "")
      if secret && !c.flagsKept then none
      else if !c.toCall.client then none
      else if c.toCall.ending.takesEffect && decide (p.uuid ∉ sys.profiles.map Profile.uuid) then
        some (tagged p c.sourceName username)
      else none

theorem added_fresh {username password : Option String} {c : AddCall} {p : Profile}
    (h : added sys username password c = some p) : p.uuid ∉ sys.profiles.map Profile.uuid := by
  simp only [added] at h
  split at h
  · cases h
  · split_ifs at h with _ _ he
    obtain rfl := Option.some.inj h
    exact of_decide_eq_true (Bool.and_eq_true_iff.mp he).2

/-- `add_connection`: the service afterwards, and the UUID that is returned. -/
def addConnection (sys : Service) (username password : Option String) (c : AddCall) :
    Service × Option String :=
  match h : added sys username password c with
  | none => (sys, none)
  | some p =>
      (addProfile sys p (added_fresh h), if c.toCall.ending = .finished then some p.uuid else none)

def activateConnection (sys : Service) (uuid : String) (c : Call) : Service × Bool :=
  if !c.client then (sys, false)
  else match profile? sys uuid with
    | none => (sys, false)
    | some p =>
        (if h : c.ending.takesEffect = true ∧ p.uuid ∉ sys.actives.map ActiveConnection.uuid then
          activateProfile sys p h.2 else sys, decide (c.ending = .finished))

def disconnect (sys : Service) (uuid : String) (c : Call) : Service × Bool :=
  if !c.client then (sys, false)
  else match active? sys uuid with
    | none => (sys, false)
    | some a =>
        (if c.ending.takesEffect then deactivate sys a.uuid else sys, decide (c.ending = .finished))

/-- The profile that `delete_connection` picks. -/
def deletable? (sys : Service) (uuid : String) : Option Profile :=
  sys.profiles.find? (fun p => connectionIsManaged p && decide (uuid = p.uuid))

def deleteConnection (sys : Service) (uuid : String) (c : Call) : Service × Bool :=
  if !c.client then (sys, false)
  else match deletable? sys uuid with
    | none => (sys, false)
    | some p =>
        (if c.ending.takesEffect then removeProfile sys p.uuid else sys, decide (c.ending = .finished))

/-- `get_eovpn_active_vpn_connection_uuid`. -/
def managedActiveUuid (sys : Service) (client : Bool) : Option String :=
  if client then (sys.actives.find? (activeIsManaged sys)).map ActiveConnection.uuid else none

def isVpnRunning (sys : Service) (client : Bool) : Bool := (managedActiveUuid sys client).isSome

def isVpnActivated (sys : Service) (uuid : String) (client : Bool) : Int :=
  if client then
    match sys.actives.find? (fun a => decide (uuid = a.uuid) && a.isVpn) with
    | some a => a.vpnState
    | none => -1
  else -1

/-- `delete_all_vpn_connections`, with what each of its deletions meets. -/
def deleteAllVpnConnections (sys : Service) (client : Bool) (calls : String → Call) : Service :=
  if client then
    ((sys.profiles.filter connectionIsManaged).map Profile.uuid).foldl
      (fun sys uuid => (deleteConnection sys uuid (calls uuid)).1) sys
  else sys

theorem uuid_of_profile? {uuid : String} {p : Profile} (h : profile? sys uuid = some p) : p.uuid = uuid :=
  of_decide_eq_true (List.find?_some (p := fun p : Profile => decide (p.uuid = uuid)) h)

theorem uuid_of_active? {uuid : String} {a : ActiveConnection} (h : active? sys uuid = some a) :
    a.uuid = uuid :=
  of_decide_eq_true (List.find?_some (p := fun a : ActiveConnection => decide (a.uuid = uuid)) h)

theorem profile?_of_mem {p : Profile} (hp : p ∈ sys.profiles) : profile? sys p.uuid = some p := by
  have hfound : (profile? sys p.uuid).isSome := by
    rw [profile?, List.find?_isSome]
    exact ⟨p, hp, decide_eq_true rfl⟩
  obtain ⟨q, hq⟩ := Option.isSome_iff_exists.mp hfound
  rw [hq, List.inj_on_of_nodup_map sys.distinct (List.mem_of_find?_eq_some hq) hp (uuid_of_profile? hq)]

theorem disconnect_cases (sys : Service) (uuid : String) (c : Call) :
    (disconnect sys uuid c).1 = sys ∨ (disconnect sys uuid c).1 = deactivate sys uuid := by
  simp only [disconnect]
  split
  · exact .inl rfl
  · split
    · exact .inl rfl
    · rename_i a ha
      obtain rfl := uuid_of_active? ha
      by_cases he : c.ending.takesEffect = true
      · exact .inr (if_pos he)
      · exact .inl (if_neg he)

theorem profiles_disconnect (uuid : String) (c : Call) :
    (disconnect sys uuid c).1.profiles = sys.profiles := by
  rcases disconnect_cases sys uuid c with h | h <;> rw [h]
  rfl

theorem activateConnection_cases (sys : Service) (uuid : String) (c : Call) :
    (activateConnection sys uuid c).1 = sys ∨
      ∃ p h, profile? sys uuid = some p ∧ (activateConnection sys uuid c).1 = activateProfile sys p h := by
  simp only [activateConnection]
  split
  · exact .inl rfl
  · split
    · exact .inl rfl
    · rename_i p hp
      by_cases h : c.ending.takesEffect = true ∧ p.uuid ∉ sys.actives.map ActiveConnection.uuid
      · exact .inr ⟨p, h.2, hp, dif_pos h⟩
      · exact .inl (dif_neg h)

theorem addConnection_cases (sys : Service) (username password : Option String) (c : AddCall) :
    added sys username password c = none ∧ addConnection sys username password c = (sys, none) ∨
      ∃ p h, added sys username password c = some p ∧ addConnection sys username password c =
        (addProfile sys p h, if c.toCall.ending = .finished then some p.uuid else none) := by
  simp only [addConnection]
  split
  · rename_i h
    exact .inl ⟨h, rfl⟩
  · rename_i p h
    exact .inr ⟨p, added_fresh h, h, rfl⟩

theorem of_deletable? {uuid : String} {p : Profile} (h : deletable? sys uuid = some p) :
    p ∈ sys.profiles ∧ connectionIsManaged p = true ∧ p.uuid = uuid := by
  have hfound := List.find?_some (p := fun p => connectionIsManaged p && decide (uuid = p.uuid)) h
  obtain ⟨hm, hu⟩ := Bool.and_eq_true_iff.mp hfound
  exact ⟨List.mem_of_find?_eq_some h, hm, (of_decide_eq_true hu).symm⟩

theorem deletable?_of_mem {p : Profile} (hp : p ∈ sys.profiles) :
    deletable? sys p.uuid = if connectionIsManaged p then some p else none := by
  have hsame : ∀ {q : Profile}, deletable? sys p.uuid = some q → connectionIsManaged q = true ∧ q = p := by
    intro q hq
    obtain ⟨hmem, hm, hu⟩ := of_deletable? hq
    exact ⟨hm, List.inj_on_of_nodup_map sys.distinct hmem hp hu⟩
  by_cases hm : connectionIsManaged p = true
  · have hfound : (deletable? sys p.uuid).isSome := by
      rw [deletable?, List.find?_isSome]
      exact ⟨p, hp, by rw [hm, decide_eq_true rfl]; rfl⟩
    obtain ⟨q, hq⟩ := Option.isSome_iff_exists.mp hfound
    rw [if_pos hm, hq, (hsame hq).2]
  · rw [if_neg hm, Option.eq_none_iff_forall_ne_some]
    intro q hq
    obtain ⟨hmq, rfl⟩ := hsame hq
    exact hm hmq

theorem deleteConnection_cases (sys : Service) (uuid : String) (c : Call) :
    (deleteConnection sys uuid c).1 = sys ∨
      ∃ p ∈ sys.profiles, p.uuid = uuid ∧ connectionIsManaged p = true ∧
        (deleteConnection sys uuid c).1 = removeProfile sys uuid := by
  simp only [deleteConnection]
  split
  · exact .inl rfl
  · split
    · exact .inl rfl
    · rename_i p hp
      obtain ⟨hmem, hm, rfl⟩ := of_deletable? hp
      by_cases he : c.ending.takesEffect = true
      · exact .inr ⟨p, hmem, rfl, hm, if_pos he⟩
      · exact .inl (if_neg he)

def Removes (c : Call) (p : Profile) : Prop :=
  connectionIsManaged p = true ∧ c.client = true ∧ c.ending.takesEffect = true

theorem mem_deleteConnection_iff {p : Profile} (hp : p ∈ sys.profiles) (c : Call) :
    p ∈ (deleteConnection sys p.uuid c).1.profiles ↔ ¬ Removes c p := by
  simp only [deleteConnection, deletable?_of_mem hp, Removes]
  cases c.client <;> cases connectionIsManaged p <;> cases c.ending.takesEffect <;>
    simp [hp, removeProfile]

theorem managed_of_managedActiveUuid {client : Bool} {uuid : String}
    (h : managedActiveUuid sys client = some uuid) :
    ∃ p, profile? sys uuid = some p ∧ connectionIsManaged p = true := by
  simp only [managedActiveUuid] at h
  split at h
  · obtain ⟨a, ha, rfl⟩ := Option.map_eq_some_iff.mp h
    have hm := List.find?_some ha
    rwa [activeIsManaged, Option.any_eq_true] at hm
  · cases h

end EovpnPro.NmNative
