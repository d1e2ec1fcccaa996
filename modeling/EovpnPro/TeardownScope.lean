import EovpnPro.NmSystem
import EovpnPro.OpenVpn3Backend

namespace EovpnPro.TeardownScope

open NmNative NmSystem NmWorker Runs

variable {sys : Service} {s t : System}

/-- The connections that `NetworkManager.status` asks about. -/
def managedActives (sys : Service) : List ActiveConnection := sys.actives.filter (activeIsManaged sys)

theorem managedActiveUuid_true : managedActiveUuid sys true = (managedActives sys).head?.map (·.uuid) := by
  rw [managedActives, List.head?_filter]
  rfl

theorem isVpnRunning_eq_false_iff : isVpnRunning sys true = false ↔ managedActives sys = [] := by
  rw [isVpnRunning, managedActiveUuid_true, Option.isSome_map]
  cases managedActives sys <;> simp

theorem managedActives_deactivate (uuid : String) :
    managedActives (deactivate sys uuid) = (managedActives sys).filter (fun a => a.uuid ≠ uuid) := by
  rw [managedActives, managedActives]
  change (sys.actives.filter _).filter (activeIsManaged sys) = _
  rw [List.filter_filter, List.filter_filter]
  exact List.filter_congr fun a _ => Bool.and_comm _ _

theorem disconnect_of_active {a : ActiveConnection} (ha : a ∈ sys.actives) :
    (NmNative.disconnect sys a.uuid {}).1 = deactivate sys a.uuid := by
  have hfound : (active? sys a.uuid).isSome := by
    rw [active?, List.find?_isSome]
    exact ⟨a, ha, decide_eq_true rfl⟩
  obtain ⟨c, hc⟩ := Option.isSome_iff_exists.mp hfound
  rw [NmNative.disconnect, hc]
  change deactivate sys c.uuid = _
  rw [uuid_of_active? hc]

theorem filter_uuid_ne {a : ActiveConnection} {rest : List ActiveConnection}
    (h : ((a :: rest).map ActiveConnection.uuid).Nodup) :
    (a :: rest).filter (fun c => c.uuid ≠ a.uuid) = rest := by
  obtain ⟨hn, -⟩ := List.nodup_cons.mp h
  rw [List.filter_cons_of_neg (by simp), List.filter_eq_self]
  intro c hc
  refine decide_eq_true fun hu => hn ?_
  rw [← hu]
  exact List.mem_map_of_mem hc

theorem uuid_ne_empty {a : ActiveConnection} (h : a ∈ managedActives sys) : a.uuid ≠ "" := by
  have hm := (List.mem_filter.mp h).2
  rw [activeIsManaged, Option.any_eq_true] at hm
  obtain ⟨p, hp, -⟩ := hm
  rw [← uuid_of_profile? hp]
  exact p.named

theorem managedActives_takeDown (rounds : Nat) :
    managedActives (takeDown sys (List.replicate rounds {})).1 = (managedActives sys).drop rounds := by
  induction rounds generalizing sys with
  | zero => rfl
  | succ rounds ih =>
      rw [List.replicate_succ, takeDown, managedActiveUuid_true]
      cases hm : managedActives sys with
      | nil => exact hm
      | cons a rest =>
          have ha : a ∈ managedActives sys := hm ▸ List.mem_cons_self
          have hnodup : ((a :: rest).map ActiveConnection.uuid).Nodup :=
            hm ▸ sys.once.sublist (List.filter_sublist.map _)
          simp only [List.head?_cons, Option.map_some, uuid_ne_empty ha, if_false, List.drop_succ_cons]
          rw [ih, disconnect_of_active (List.mem_filter.mp ha).1, managedActives_deactivate, hm,
            filter_uuid_ne hnodup]

/-- The connections that the disconnect operation takes down are all that
`status` asks about. -/
def NmOwnsAll (s : System) : Prop :=
  match s.nm.uuid with
  | none => (managedActives s.sys).length ≤ 3
  | some uuid => (∃ a ∈ s.sys.actives, a.uuid = uuid ∧ a.isVpn = true) ∧
      ∀ a ∈ managedActives s.sys, a.uuid = uuid

theorem isVpnActivated_ne_iff {uuid : String} :
    isVpnActivated sys uuid true ≠ -1 ↔ ∃ a ∈ sys.actives, a.uuid = uuid ∧ a.isVpn = true := by
  simp only [isVpnActivated, if_true]
  cases hf : sys.actives.find? (fun a => decide (uuid = a.uuid) && a.isVpn) with
  | none =>
      rw [List.find?_eq_none] at hf
      refine iff_of_false (fun h => h rfl) ?_
      rintro ⟨a, ha, rfl, hv⟩
      exact hf a ha (by rw [hv, decide_eq_true rfl]; rfl)
  | some a =>
      have hfound := List.find?_some hf
      obtain ⟨hu, hv⟩ := Bool.and_eq_true_iff.mp hfound
      refine iff_of_true (fun h => ?_) ⟨a, List.mem_of_find?_eq_some hf, (of_decide_eq_true hu).symm, hv⟩
      have hneg : (a.vpnState : Int) = -1 := h
      omega

theorem actives_deleteConnection (uuid : String) (c : Call) :
    (deleteConnection sys uuid c).1.actives = sys.actives := by
  rcases deleteConnection_cases sys uuid c with hd | ⟨p, -, -, -, hd⟩ <;> rw [hd]
  rfl

theorem mem_managedActives_deleteConnection {uuid : String} (c : Call) {a : ActiveConnection}
    (ha : a.uuid ≠ uuid) :
    a ∈ managedActives (deleteConnection sys uuid c).1 ↔ a ∈ managedActives sys := by
  rcases deleteConnection_cases sys uuid c with hd | ⟨p, hp, hpu, hm, hd⟩ <;> rw [hd]
  have hfind : profile? (removeProfile sys uuid) a.uuid = profile? sys a.uuid := by
    rw [profile?, profile?, removeProfile, List.find?_filter]
    congr 1
    funext q
    by_cases hqa : q.uuid = a.uuid <;> simp [hqa, ha]
  simp only [managedActives, List.mem_filter, activeIsManaged, hfind]
  rfl

theorem mem_managedActives_disconnect {uuid : String} (hv : isVpnActivated sys uuid true ≠ -1)
    {a : ActiveConnection} :
    a ∈ managedActives (NmNative.disconnect sys uuid {}).1 ↔ a ∈ managedActives sys ∧ a.uuid ≠ uuid := by
  obtain ⟨c, hc, rfl, -⟩ := isVpnActivated_ne_iff.mp hv
  rw [disconnect_of_active hc, managedActives_deactivate, List.mem_filter, decide_eq_true_iff]

theorem uuid_ne_of_mem_disconnect {uuid : String} (hv : isVpnActivated sys uuid true ≠ -1)
    {a : ActiveConnection} (ha : a ∈ (NmNative.disconnect sys uuid {}).1.actives) : a.uuid ≠ uuid := by
  obtain ⟨c, hc, rfl, -⟩ := isVpnActivated_ne_iff.mp hv
  rw [disconnect_of_active hc] at ha
  exact of_decide_eq_true (List.mem_filter.mp ha).2

theorem running_serve_disconnecting (e : Answers) (hrun : isVpnRunning s.sys true = true) :
    isVpnRunning (serve s.sys s.nm.uuid e {} .disconnecting).1 true = false ↔ NmOwnsAll s := by
  rw [isVpnRunning_eq_false_iff, NmOwnsAll]
  cases hu : s.nm.uuid with
  | none =>
      change managedActives (takeDown s.sys (List.replicate 3 {})).1 = [] ↔ _
      rw [managedActives_takeDown, List.drop_eq_nil_iff]
  | some uuid =>
      simp only [serve]
      by_cases hv : isVpnActivated s.sys uuid true = -1
      · rw [if_pos hv, ← isVpnRunning_eq_false_iff, hrun, ← isVpnActivated_ne_iff]
        exact iff_of_false (by decide) fun h => h.1 hv
      · rw [if_neg hv, List.eq_nil_iff_forall_not_mem, ← isVpnActivated_ne_iff]
        constructor
        · intro hnone
          refine ⟨hv, fun a ha => ?_⟩
          by_contra hau
          exact hnone a ((mem_managedActives_deleteConnection _ hau).mpr
            ((mem_managedActives_disconnect hv).mpr ⟨ha, hau⟩))
        · rintro ⟨-, hall⟩ a ha
          have hau : a.uuid ≠ uuid := by
            have hmem := (List.mem_filter.mp ha).1
            rw [actives_deleteConnection] at hmem
            exact uuid_ne_of_mem_disconnect hv hmem
          have hm := (mem_managedActives_deleteConnection _ hau).mp ha
          exact hau (hall a ((mem_managedActives_disconnect hv).mp hm).1)

def disconnectRun (e₁ e₂ e₃ : Answers) (n₁ n₂ n₃ : Natives) : List NmSystem.Action :=
  [.nm (.worker e₁) n₁, .nm (.worker e₂) n₂, .nm (.worker e₃) n₃]

theorem run_disconnectRun {job : Job} {rest : List Job} {e₁ e₂ e₃ : Answers} {n₁ n₂ n₃ : Natives}
    (hw : s.nm.worker = some .looping) (hq : s.nm.queue = job :: rest) (hop : job.op = .disconnect) :
    ∃ t, run NmSystem.step s (disconnectRun e₁ e₂ e₃ n₁ n₂ n₃) = some t ∧ t.nm.worker = some .looping ∧
      t.sys = (serve s.sys s.nm.uuid e₂ n₂ .disconnecting).1 := by
  let taken : System :=
    { s with nm := log (toStage { s.nm with queue := rest, cancel := false, suppress := false } job
        .disconnecting) (.started job.id) }
  have htaken : NmSystem.step s (.nm (.worker e₁) n₁) = some taken := by
    simp only [NmSystem.step, hw, NmWorker.step, takeOperation, hq, hop, Option.map_some]
    rfl
  obtain ⟨events, next, hm⟩ :=
    NmOperations.moved_disconnectBlocking taken.nm job (serve s.sys s.nm.uuid e₂ n₂ .disconnecting).2
  obtain ⟨hadvance, hended, -, -⟩ := hm
  cases hadvance with
  | disconnected =>
      refine ⟨stepWorker (stepWorker taken job .disconnecting e₂ n₂) job (.ended .done) e₃ n₃, ?_, ?_, rfl⟩
      · rw [disconnectRun, run, htaken, Option.bind_some, run, step_inside rfl, Option.bind_some, run,
          step_inside hended]
        rfl
      · have hm := (NmOperations.trace_finish
          (stepWorker taken job .disconnecting e₂ n₂).nm job .done).2
        simp only [NmOperations.machine, Prod.mk.injEq] at hm
        exact hm.2.1

section

open Events OpenVpn3Backend OpenVpn3Status

variable {b : OpenVpn3}

/-- A tunnel of the OpenVPN 3 service, whoever started it. -/
structure Session where
  path : String
  status : SessionStatus
  deriving DecidableEq, Repr

structure Sessions where
  all : List Session := []
  distinct : (all.map Session.path).Nodup := by decide

def disconnectVpn (sessions : Sessions) (path : String) : Sessions where
  all := sessions.all.filter (fun x => x.path ≠ path)
  distinct := sessions.distinct.sublist (List.filter_sublist.map _)

def carryOut (sessions : Sessions) (calls : List OpenVpn3Backend.Call) : Sessions :=
  calls.foldr (fun call sessions => match call with
    | .disconnectVpn path => disconnectVpn sessions path
    | _ => sessions) sessions

def running (sessions : Sessions) : Bool :=
  OpenVpn3Status.status [some (sessions.all.map fun x => some x.status)]

def OwnsAll (b : OpenVpn3) (sessions : Sessions) : Prop :=
  ∃ path, b.sessionPath = some path ∧ ∀ x ∈ sessions.all, established x.status = true → x.path = path

theorem running_eq_false_iff {sessions : Sessions} :
    running sessions = false ↔ ∀ x ∈ sessions.all, established x.status = false := by
  have hany : (sessions.all.map fun x => some x.status).any sessionStatusIsConnected =
      sessions.all.any fun x => established x.status := by
    rw [List.any_map]
    rfl
  simp only [running, OpenVpn3Status.status, pGetConnectionStatus, tryConnectionStatus, List.headD_cons,
    getConnectionStatus, hany]
  cases h : sessions.all.any fun x => established x.status <;> simpa using h

theorem calls_disconnectAgain (again : Nat) (h : b.sessionPath = none) :
    (disconnectAgain^[again] b).calls = List.replicate again (.callback (.bool false) none) ++ b.calls := by
  induction again generalizing b with
  | zero => rfl
  | succ again ih =>
      have hnext : disconnectAgain b = record b (.callback (.bool false) none) := by
        rw [disconnectAgain, h]
      rw [Function.iterate_succ_apply, hnext, ih (b := record b _) h, List.replicate_succ',
        List.append_assoc]
      rfl

theorem calls_disconnect (again : Nat) : (OpenVpn3Backend.disconnect b again).calls =
    (match b.sessionPath with
      | some path => [.disconnectVpn path]
      | none => List.replicate (again + 1) (.callback (.bool false) none)) ++ b.calls := by
  simp only [OpenVpn3Backend.disconnect]
  cases hp : b.sessionPath with
  | some path => rfl
  | none =>
      simp only [callBack, calls_disconnectAgain (b := record b _) again hp, List.replicate_succ',
        List.append_assoc]
      rfl

theorem carryOut_callbacks (sessions : Sessions) (calls : Nat) :
    carryOut sessions (List.replicate calls (.callback (.bool false) none)) = sessions := by
  induction calls with
  | zero => rfl
  | succ calls ih => exact ih

theorem running_carryOut_disconnect {sessions : Sessions} {calls : List OpenVpn3Backend.Call} {again : Nat}
    (hcalls : (OpenVpn3Backend.disconnect b again).calls = calls ++ b.calls)
    (hrun : running sessions = true) :
    running (carryOut sessions calls) = false ↔ OwnsAll b sessions := by
  obtain rfl := List.append_cancel_right (hcalls.symm.trans (calls_disconnect again))
  rw [OwnsAll]
  cases hp : b.sessionPath with
  | none =>
      rw [carryOut_callbacks, hrun]
      apply iff_of_false (by decide)
      rintro ⟨path, hpath, -⟩
      cases hpath
  | some path =>
      simp only [carryOut, List.foldr_cons, List.foldr_nil, running_eq_false_iff, disconnectVpn,
        List.mem_filter, decide_eq_true_eq, Option.some.injEq, exists_eq_left']
      refine forall_congr' fun x => ?_
      by_cases he : established x.status = true
      · simp [he]
      · simp [he]

end

/-- A tunnel that `status` saw is gone after a disconnect that succeeds exactly
when the disconnect was about every tunnel that `status` asks about. -/
theorem status_false_iff_owns_all :
    (∀ s job rest e₁ e₂ e₃ n₁ n₃, s.nm.worker = some .looping → s.nm.queue = job :: rest →
      job.op = .disconnect → isVpnRunning s.sys true = true →
      ∃ t, run NmSystem.step s (disconnectRun e₁ e₂ e₃ n₁ {} n₃) = some t ∧ t.nm.worker = some .looping ∧
        (isVpnRunning t.sys true = false ↔ NmOwnsAll s)) ∧
    ∀ b sessions calls again, (OpenVpn3Backend.disconnect b again).calls = calls ++ b.calls →
      running sessions = true → (running (carryOut sessions calls) = false ↔ OwnsAll b sessions) := by
  constructor
  · intro s job rest e₁ e₂ e₃ n₁ n₃ hw hq hop hrun
    obtain ⟨t, hr, hend, hsys⟩ := run_disconnectRun hw hq hop
    refine ⟨t, hr, hend, ?_⟩
    rw [hsys]
    exact running_serve_disconnecting e₂ hrun
  · intro b sessions calls again hcalls hrun
    exact running_carryOut_disconnect hcalls hrun

def ownProfile (uuid : String) (hn : uuid ≠ "") : Profile :=
  { uuid, connectionId := some "eOVPN-Pro: a.ovpn", vpnData := some [], named := hn }

def fourTunnels : System where
  nm := { worker := some .looping, queue := [⟨0, .disconnect⟩] }
  sys := {
    profiles := [ownProfile "a" (by decide), ownProfile "b" (by decide), ownProfile "c" (by decide),
      ownProfile "d" (by decide)]
    actives := [{ uuid := "a" }, { uuid := "b" }, { uuid := "c" }, { uuid := "d" }] }

def otherSession : Sessions := { all := [⟨"/sessions/other", .connection, .connConnected⟩] }

theorem scope_differs :
    (¬ ∀ s t job rest e₁ e₂ e₃ n₁ n₃, s.nm.worker = some .looping → s.nm.queue = job :: rest →
      job.op = .disconnect → isVpnRunning s.sys true = true →
      run NmSystem.step s (disconnectRun e₁ e₂ e₃ n₁ {} n₃) = some t → isVpnRunning t.sys true = false) ∧
    ¬ ∀ b sessions calls again, (OpenVpn3Backend.disconnect b again).calls = calls ++ b.calls →
      running sessions = true → running (carryOut sessions calls) = false := by
  constructor
  · intro h
    have hlast := h fourTunnels _ ⟨0, .disconnect⟩ [] {} {} {} {} {} rfl rfl rfl (by decide) rfl
    revert hlast
    decide
  · intro h
    have hlast := h { sessionPath := some "/sessions/own" } otherSession
      [.disconnectVpn "/sessions/own"] 0 rfl (by decide)
    revert hlast
    decide

end EovpnPro.TeardownScope
