import EovpnPro.NmSystem

namespace EovpnPro.ForeignProfiles

open NmNative NmSystem NmWorker Runs

variable {sys later : Service} {p : Profile} {s t : System}

/-- A profile that the program does not recognise as its own. -/
structure Unrecognised (sys : Service) (p : Profile) : Prop where
  mem : p ∈ sys.profiles
  managed : connectionIsManaged p = false

/-- The profile is still there, and so is every activation of it. -/
structure Spared (p : Profile) (before after : Service) : Prop where
  mem : p ∈ after.profiles
  actives : ∀ a ∈ before.actives, a.uuid = p.uuid → a ∈ after.actives

theorem Unrecognised.spared (h : Unrecognised sys p) : Spared p sys sys := ⟨h.mem, fun _ ha _ => ha⟩

theorem Spared.trans {before : Service} (h : Spared p before sys) (h' : Spared p sys later) :
    Spared p before later :=
  ⟨h'.mem, fun a ha hu => h'.actives a (h.actives a ha hu) hu⟩

theorem Unrecognised.of_spared (h : Unrecognised sys p) (hs : Spared p sys later) : Unrecognised later p :=
  ⟨hs.mem, h.managed⟩

theorem Unrecognised.uuid_ne (h : Unrecognised sys p) {uuid : String} {q : Profile}
    (hq : profile? sys uuid = some q) (hm : connectionIsManaged q = true) : uuid ≠ p.uuid := by
  rintro rfl
  obtain rfl := Option.some.inj ((profile?_of_mem h.mem).symm.trans hq)
  rw [h.managed] at hm
  cases hm

theorem spared_disconnect (h : Unrecognised sys p) {uuid : String} (hu : uuid ≠ p.uuid) (c : Call) :
    Spared p sys (NmNative.disconnect sys uuid c).1 := by
  rcases disconnect_cases sys uuid c with hd | hd <;> rw [hd]
  · exact h.spared
  · refine ⟨h.mem, fun a ha hp => List.mem_filter.mpr ⟨ha, decide_eq_true ?_⟩⟩
    rw [hp]
    exact hu.symm

theorem spared_deleteConnection (h : Unrecognised sys p) (uuid : String) (c : Call) :
    Spared p sys (deleteConnection sys uuid c).1 := by
  rcases deleteConnection_cases sys uuid c with hd | ⟨q, hq, rfl, hm, hd⟩ <;> rw [hd]
  · exact h.spared
  · refine ⟨List.mem_filter.mpr ⟨h.mem, decide_eq_true ?_⟩, fun _ ha _ => ha⟩
    exact (h.uuid_ne (profile?_of_mem hq) hm).symm

theorem spared_activateConnection (h : Unrecognised sys p) (uuid : String) (c : Call) :
    Spared p sys (NmNative.activateConnection sys uuid c).1 := by
  rcases activateConnection_cases sys uuid c with ha | ⟨q, hn, -, ha⟩ <;> rw [ha]
  · exact h.spared
  · exact ⟨h.mem, fun a ha _ => List.mem_append_left _ ha⟩

theorem spared_addConnection (h : Unrecognised sys p) (username password : Option String) (c : AddCall) :
    Spared p sys (NmNative.addConnection sys username password c).1 := by
  rcases addConnection_cases sys username password c with ⟨-, ha⟩ | ⟨q, hn, -, ha⟩ <;> rw [ha]
  · exact h.spared
  · exact ⟨List.mem_cons_of_mem q h.mem, fun _ ha _ => ha⟩

theorem spared_takeDown (rounds : List Round) (h : Unrecognised sys p) :
    Spared p sys (takeDown sys rounds).1 := by
  induction rounds generalizing sys with
  | nil => exact h.spared
  | cons r rest ih =>
      simp only [takeDown]
      split
      · exact h.spared
      · rename_i uuid hu
        split
        · exact h.spared
        · obtain ⟨q, hq, hm⟩ := managed_of_managedActiveUuid hu
          have hd := spared_disconnect h (h.uuid_ne hq hm) r.deactivation
          exact hd.trans (ih (h.of_spared hd))

theorem spared_foldl_deleteConnection (uuids : List String) (calls : String → Call)
    (h : Unrecognised sys p) :
    Spared p sys (uuids.foldl (fun sys uuid => (deleteConnection sys uuid (calls uuid)).1) sys) := by
  induction uuids generalizing sys with
  | nil => exact h.spared
  | cons uuid uuids ih =>
      have hd := spared_deleteConnection h uuid (calls uuid)
      exact hd.trans (ih (h.of_spared hd))

theorem spared_deleteAllVpnConnections (h : Unrecognised sys p) (client : Bool) (calls : String → Call) :
    Spared p sys (deleteAllVpnConnections sys client calls) := by
  simp only [deleteAllVpnConnections]
  split
  · exact spared_foldl_deleteConnection _ calls h
  · exact h.spared

/-- The native calls of a stage spare a profile that neither `self.uuid` nor the
stage names. -/
theorem spared_serve (h : Unrecognised sys p) {uuid : Option String} {stage : Stage}
    (hu : uuid ≠ some p.uuid) (hc : carried stage ≠ some p.uuid) (e : Answers) (n : Natives) :
    Spared p sys (serve sys uuid e n stage).1 := by
  cases stage with
  | enter | copy | beforeImport | beforeActivation | afterActivation | saving | cleaningUp | ended =>
      exact h.spared
  | importing i =>
      simp only [serve]
      split
      · exact h.spared
      · exact spared_addConnection h _ _ _
  | activating named =>
      simp only [serve]
      split
      · exact h.spared
      · exact spared_activateConnection h _ _
  | withdrawing named => exact spared_disconnect h (fun heq => hc (congrArg some heq)) _
  | deleting named => exact spared_deleteConnection h _ _
  | disconnecting =>
      cases uuid with
      | none => exact spared_takeDown [n.first, n.second, n.third] h
      | some named =>
          simp only [serve]
          split
          · exact h.spared
          · have hd := spared_disconnect h (fun heq => hu (congrArg some heq)) n.deactivation
            exact hd.trans (spared_deleteConnection (h.of_spared hd) _ _)

theorem spared_step {a : NmSystem.Action} (h : Owned s) (ht : NmSystem.step s a = some t)
    (ha : ∀ sys, a ≠ .external sys) (hp : Unrecognised s.sys p) (hc : p.uuid ∉ s.created) :
    Spared p s.sys t.sys := by
  cases change_of_step ht with
  | outside => exact hp.spared
  | inside e n job stage hw =>
      have hu : s.nm.uuid ≠ some p.uuid := fun hu => hc (h.handle _ hu)
      exact spared_serve hp hu (fun hs => hu (h.held job stage _ hw hs)) e n
  | deletedAll client calls => exact spared_deleteAllVpnConnections hp client calls
  | external sys => exact absurd rfl (ha sys)

/-- From every state of the service, no operation of the backend deactivates or
deletes a profile that it neither added nor recognises. -/
theorem foreign_profile_spared (sys : Service) (actions : List NmSystem.Action) (a : NmSystem.Action)
    (s t : System) (p : Profile) (hr : run NmSystem.step { sys } actions = some s)
    (ht : NmSystem.step s a = some t)
    (ha : ∀ sys, a ≠ .external sys) (hp : p ∈ s.sys.profiles) (hm : connectionIsManaged p = false)
    (hc : p.uuid ∉ s.created) :
    p ∈ t.sys.profiles ∧ ∀ c ∈ s.sys.actives, c.uuid = p.uuid → c ∈ t.sys.actives := by
  have howned : Owned s :=
    (allStates_of_invariant (fun _ _ _ h ht => h.step ht) (owned_init sys) actions).last hr
  obtain ⟨hmem, hactives⟩ := spared_step howned ht ha ⟨hp, hm⟩ hc
  exact ⟨hmem, hactives⟩

def corporate : Profile := { uuid := "corporate", connectionId := some "Work", vpnData := some [] }

def office : Service where
  profiles := [corporate, { uuid := "own", connectionId := some "eOVPN-Pro: a.ovpn", vpnData := some [] }]
  actives := [{ uuid := "corporate" }, { uuid := "own" }]

/-- A disconnect without a handle takes down the tunnel that is recognised. -/
theorem corporate_spared :
    corporate ∈ (takeDown office [{}, {}, {}]).1.profiles ∧
      ∀ c ∈ office.actives, c.uuid = corporate.uuid → c ∈ (takeDown office [{}, {}, {}]).1.actives :=
  foreign_profile_spared office [.nm .disconnect {}, .nm (.worker {}) {}] (.nm (.worker {}) {}) _ _
    corporate
    rfl rfl (fun _ he => by cases he) (by decide) (by decide) (by decide)

end EovpnPro.ForeignProfiles
