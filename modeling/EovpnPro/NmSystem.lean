import EovpnPro.NmNative
import EovpnPro.NmOperations

namespace EovpnPro.NmSystem

open NmNative NmWorker Runs

structure Round where
  client : Bool := true
  deactivation : Call := {}

structure Natives where
  addition : AddCall := {}
  activation : Call := {}
  client : Bool := true
  deactivation : Call := {}
  deletion : Call := {}
  first : Round := {}
  second : Round := {}
  third : Round := {}

/-- The backend and the service it works on. `created` names every profile that
`add_connection` has put there in this process. -/
structure System where
  nm : NetworkManager := {}
  sys : Service := {}
  created : List String := []

variable {s t : System} {sys : Service}

/-- The loop of `_disconnect_blocking`: the service afterwards, and the UUIDs it
disconnected. -/
def takeDown (sys : Service) : List Round → Service × List String
  | [] => (sys, [])
  | r :: rest =>
      match managedActiveUuid sys r.client with
      | none => (sys, [])
      | some uuid =>
          if uuid = "" then (sys, [])
          else
            let (sys, uuids) := takeDown (NmNative.disconnect sys uuid r.deactivation).1 rest
            (sys, uuid :: uuids)

/-- The native calls of one stage, and what the runner gets from them. An exception
comes from the arguments, before the call is made. -/
def serve (sys : Service) (uuid : Option String) (e : Answers) (n : Natives) : Stage → Service × Answers
  | .importing i =>
      if e.raised.isSome then (sys, e)
      else
        let (sys, uuid) := NmNative.addConnection sys i.username i.password n.addition
        (sys, { e with uuid })
  | .activating uuid =>
      if e.raised.isSome then (sys, e)
      else
        let (sys, activated) := NmNative.activateConnection sys uuid n.activation
        (sys, { e with activated })
  | .withdrawing uuid => ((NmNative.disconnect sys uuid n.deactivation).1, e)
  | .deleting uuid => ((deleteConnection sys uuid n.deletion).1, e)
  | .disconnecting =>
      match uuid with
      | none =>
          let (sys, activeUuids) := takeDown sys [n.first, n.second, n.third]
          (sys, { e with activeUuids })
      | some uuid =>
          if isVpnActivated sys uuid n.client = -1 then (sys, { e with found := false })
          else ((deleteConnection (NmNative.disconnect sys uuid n.deactivation).1 uuid n.deletion).1,
            { e with found := true })
  | _ => (sys, e)

def addedBy (sys : Service) (e : Answers) (n : Natives) : Stage → Option Profile
  | .importing i => if e.raised.isSome then none else added sys i.username i.password n.addition
  | _ => none

def stepWorker (s : System) (job : Job) (stage : Stage) (e : Answers) (n : Natives) : System :=
  let (sys, e') := serve s.sys s.nm.uuid e n stage
  { nm := stepStage s.nm job e' stage
    sys
    created := ((addedBy s.sys e n stage).map Profile.uuid).toList ++ s.created }

inductive Action
  | nm (a : NmWorker.Action) (n : Natives)
  | deleteAllConnections (client : Bool) (calls : String → Call)
  | external (sys : Service)

/-- Others may do anything to the service, except that no profile of this process
comes back once it is gone. -/
def Foreign (s : System) (sys : Service) : Prop :=
  ∀ p ∈ sys.profiles, p.uuid ∈ s.created → p.uuid ∈ s.sys.profiles.map Profile.uuid

instance (s : System) (sys : Service) : Decidable (Foreign s sys) :=
  inferInstanceAs (Decidable (∀ p ∈ sys.profiles, _ → _))

def step (s : System) : Action → Option System
  | .nm (.worker e) n =>
      match s.nm.worker with
      | some (.busy job stage) => some (stepWorker s job stage e n)
      | _ => (NmWorker.step s.nm (.worker e)).map fun nm => { s with nm }
  | .nm a _ => (NmWorker.step s.nm a).map fun nm => { s with nm }
  | .deleteAllConnections client calls =>
      if s.nm.caller = .idle then
        some { s with sys := deleteAllVpnConnections s.sys client calls }
      else none
  | .external sys => if Foreign s sys then some { s with sys } else none

theorem step_inside {job : Job} {stage : Stage} (hw : s.nm.worker = some (.busy job stage)) (e : Answers)
    (n : Natives) : step s (.nm (.worker e) n) = some (stepWorker s job stage e n) := by
  simp only [step, hw]

inductive Change (s : System) : Action → System → Prop
  | outside {a : NmWorker.Action} (n : Natives) {nm : NetworkManager}
      (hi : ∀ e, a = .worker e → ∀ job stage, s.nm.worker ≠ some (.busy job stage))
      (hs : NmWorker.step s.nm a = some nm) : Change s (.nm a n) { s with nm }
  | inside (e : Answers) (n : Natives) (job : Job) (stage : Stage)
      (hw : s.nm.worker = some (.busy job stage)) :
      Change s (.nm (.worker e) n) (stepWorker s job stage e n)
  | deletedAll (client : Bool) (calls : String → Call) :
      Change s (.deleteAllConnections client calls)
        { s with sys := deleteAllVpnConnections s.sys client calls }
  | external (sys : Service) (hf : Foreign s sys) : Change s (.external sys) { s with sys }

theorem change_of_step {a : Action} (ht : step s a = some t) : Change s a t := by
  cases a with
  | nm a n =>
      cases a with
      | worker e =>
          simp only [step] at ht
          split at ht
          · rename_i job stage hw
            obtain rfl := Option.some.inj ht
            exact .inside e n job stage hw
          · rename_i hw
            obtain ⟨nm, hs, rfl⟩ := Option.map_eq_some_iff.mp ht
            exact .outside n (fun _ _ => hw) hs
      | connect | disconnect | cancelFlag | cancelSuppress | cancelClear | startWatch | stopWatch
      | signal | idleCallback =>
          obtain ⟨nm, hs, rfl⟩ := Option.map_eq_some_iff.mp ht
          exact .outside n (fun e he => by cases he) hs
  | deleteAllConnections client calls =>
      simp only [step] at ht
      split_ifs at ht
      obtain rfl := Option.some.inj ht
      exact .deletedAll client calls
  | external sys =>
      simp only [step] at ht
      split_ifs at ht with hf
      obtain rfl := Option.some.inj ht
      exact .external sys hf

theorem nm_step {a : Action} (ht : step s a = some t) :
    t.nm = s.nm ∨ ∃ a', NmWorker.step s.nm a' = some t.nm := by
  cases change_of_step ht with
  | outside n hi hs => exact .inr ⟨_, hs⟩
  | inside e n job stage hw =>
      refine .inr ⟨.worker (serve s.sys s.nm.uuid e n stage).2, ?_⟩
      simp only [NmWorker.step, hw, stepWorker]
  | deletedAll | external => exact .inl rfl

theorem nm_invariant {I : NetworkManager → Prop} (hI : ∀ b a c, I b → NmWorker.step b a = some c → I c)
    {a : Action} (ht : step s a = some t) (h : I s.nm) : I t.nm := by
  rcases nm_step ht with heq | ⟨a', hs⟩
  · rw [heq]
    exact h
  · exact hI _ _ _ h hs

section

variable {b c : NetworkManager}

def carried : Stage → Option String
  | .beforeActivation uuid | .activating uuid | .afterActivation uuid | .withdrawing uuid
  | .deleting uuid | .saving uuid => some uuid
  | _ => none

def Held (b : NetworkManager) : Prop :=
  ∀ job stage uuid, b.worker = some (.busy job stage) → carried stage = some uuid → b.uuid = some uuid

theorem carried_firstStage (op : Op) : carried (firstStage op) = none := by
  cases op <;> rfl

theorem busy_of_started {job : Job} {stage : Stage} (hc : c.worker = some (b.worker.getD .looping))
    (hw : c.worker = some (.busy job stage)) : b.worker = c.worker := by
  cases hb : b.worker with
  | none =>
      rw [hb, Option.getD_none, hw] at hc
      cases hc
  | some worker => rw [hc, hb, Option.getD_some]

theorem uuid_outside {a : NmWorker.Action} (hs : NmWorker.step b a = some c)
    (hi : ∀ e, a = .worker e → ∀ job stage, b.worker ≠ some (.busy job stage)) :
    c.uuid = b.uuid ∧
      ∀ job stage, c.worker = some (.busy job stage) → b.worker = c.worker ∨ carried stage = none := by
  cases NmOperations.step_cases hs with
  | refused | flagged | suppressed | cleared | watching | unwatching | heard | unheard | answered
    | unanswered | notified => exact ⟨rfl, fun job stage hw => .inl rfl⟩
  | connecting | disconnecting => exact ⟨rfl, fun job stage hw => .inl (busy_of_started rfl hw)⟩
  | retired => exact ⟨rfl, fun job stage hw => by cases hw⟩
  | taken =>
      refine ⟨rfl, fun job stage hw => .inr ?_⟩
      obtain ⟨rfl, rfl⟩ := Worker.busy.inj (Option.some.inj hw)
      exact carried_firstStage _
  | worked e job stage hw => exact absurd hw (hi e rfl job stage)

def handleAfter (uuid : Option String) (e : Answers) : Stage → Option String
  | .importing _ => if e.raised.isSome then uuid else e.uuid
  | .deleting _ => none
  | .disconnecting => if e.found then none else uuid
  | _ => uuid

theorem uuid_stepStage (b : NetworkManager) (job : Job) (e : Answers) (stage : Stage) :
    (stepStage b job e stage).uuid = handleAfter b.uuid e stage := by
  cases stage with
  | enter | beforeImport | beforeActivation | afterActivation | withdrawing | deleting | saving => rfl
  | copy config =>
      simp only [stepStage, copyProfile, handleAfter]
      split
      · rfl
      · split
        · rfl
        · split <;> rfl
  | importing i =>
      simp only [stepStage, NmWorker.addConnection, handleAfter]
      cases e.raised <;> rfl
  | activating uuid => rfl
  | cleaningUp outcome =>
      simp only [stepStage, cleanUp, handleAfter]
      split
      · split <;> rfl
      · rfl
  | disconnecting =>
      simp only [stepStage, disconnectBlocking, handleAfter]
      cases hb : b.uuid with
      | none =>
          have huuid := NmOperations.kept_foldl_disconnect (f := NetworkManager.uuid) (fun _ _ => rfl) job.id
            (e.activeUuids.take 3) b
          simp only [toStage, huuid, hb, ite_self]
      | some uuid =>
          by_cases hf : e.found = true
          · simp only [hf, if_true]
            rfl
          · simp only [hf, Bool.false_eq_true, if_false]
            exact hb
  | ended outcome =>
      simp only [stepStage, finish, handleAfter]
      split
      · split <;> rfl
      · rfl

theorem trace_addConnection (b : NetworkManager) (job : Job) (i : Import) (e : Answers) :
    (NmWorker.addConnection b job i e).trace =
      .addConnection job.id i (if e.raised.isSome then none else e.uuid) :: b.trace := by
  simp only [NmWorker.addConnection]
  cases e.raised <;> rfl

theorem Held.stepStage (h : Held b) {job : Job} {stage : Stage} {e : Answers}
    (hw : b.worker = some (.busy job stage)) : Held (stepStage b job e stage) := by
  intro job' next uuid hnext hc
  rw [uuid_stepStage]
  have hheld := h job stage
  by_cases hs : ∃ outcome, stage = .ended outcome
  · obtain ⟨outcome, rfl⟩ := hs
    have hm := (NmOperations.trace_finish b job outcome).2
    simp only [NmOperations.machine, Prod.mk.injEq] at hm
    rw [NmWorker.stepStage, hm.2.1] at hnext
    cases hnext
  · obtain ⟨events, next', hm⟩ := NmOperations.moved_stepStage b job e fun outcome ho => hs ⟨outcome, ho⟩
    rw [hm.worker] at hnext
    obtain ⟨rfl, rfl⟩ := Worker.busy.inj (Option.some.inj hnext)
    have ha := hm.advance
    have htrace := hm.trace
    cases ha with
    | imported i named =>
        rw [NmWorker.stepStage, trace_addConnection] at htrace
        have hu := (Event.addConnection.inj (List.cons.inj htrace).1).2.2
        obtain rfl := Option.some.inj hc
        split_ifs at hu with hr
        exact (if_neg hr).trans hu
    | entered | notEntered | copied | notCopied | mayImport | notImporting | notImported | notActivating
    | notActivated | deleted | saved | cleanedUp | disconnected => cases hc
    | mayActivate | activated | kept | notKept | withdrawn => exact hheld uuid hw hc

theorem Held.step {a : NmWorker.Action} (h : Held b) (hs : NmWorker.step b a = some c) : Held c := by
  by_cases hi : ∀ e, a = .worker e → ∀ job stage, b.worker ≠ some (.busy job stage)
  · obtain ⟨hu, hw⟩ := uuid_outside hs hi
    intro job stage uuid hb hc
    rcases hw job stage hb with heq | hn
    · rw [hu]
      exact h job stage uuid (heq.trans hb) hc
    · rw [hn] at hc
      cases hc
  · push Not at hi
    obtain ⟨e, rfl, job, stage, hw⟩ := hi
    simp only [NmWorker.step, hw] at hs
    obtain rfl := Option.some.inj hs
    exact h.stepStage hw

end

/-- `self.uuid` only ever names a profile that this backend has added. -/
structure Owned (s : System) : Prop where
  handle : ∀ uuid, s.nm.uuid = some uuid → uuid ∈ s.created
  held : Held s.nm

theorem Owned.handle_inside (h : Owned s) {job : Job} {stage : Stage} {e : Answers} {n : Natives}
    {uuid : String} (hu : (stepWorker s job stage e n).nm.uuid = some uuid) :
    uuid ∈ (stepWorker s job stage e n).created := by
  simp only [stepWorker, uuid_stepStage] at hu
  cases stage with
  | importing i =>
      simp only [serve, handleAfter] at hu
      cases hr : e.raised with
      | some message =>
          simp only [hr, Option.isSome_some, if_true] at hu
          exact List.mem_append_right _ (h.handle uuid hu)
      | none =>
          simp only [hr, Option.isSome_none, Bool.false_eq_true, if_false] at hu
          rcases addConnection_cases s.sys i.username i.password n.addition
            with ⟨-, ha⟩ | ⟨q, hn, hadd, ha⟩ <;> rw [ha] at hu
          · cases hu
          · dsimp only at hu
            split_ifs at hu
            obtain rfl := Option.some.inj hu
            apply List.mem_append_left _
            simp only [addedBy, hr, Option.isSome_none, Bool.false_eq_true, if_false, hadd]
            exact List.mem_singleton_self _
  | disconnecting =>
      simp only [handleAfter] at hu
      split_ifs at hu
      exact List.mem_append_right _ (h.handle uuid hu)
  | deleting named => cases hu
  | enter | copy | beforeImport | beforeActivation | activating | afterActivation | withdrawing | saving
  | cleaningUp | ended => exact List.mem_append_right _ (h.handle uuid hu)

theorem Owned.step {a : Action} (h : Owned s) (ht : NmSystem.step s a = some t) : Owned t := by
  refine ⟨fun uuid hu => ?_, nm_invariant (fun _ _ _ hb hs => Held.step hb hs) ht h.held⟩
  cases change_of_step ht with
  | outside n hi hs =>
      rw [(uuid_outside hs hi).1] at hu
      exact h.handle uuid hu
  | inside e n job stage hw => exact h.handle_inside hu
  | deletedAll | external => exact h.handle uuid hu

theorem Owned.inside (h : Owned s) {job : Job} {stage : Stage} (e : Answers) (n : Natives)
    (hw : s.nm.worker = some (.busy job stage)) : Owned (stepWorker s job stage e n) :=
  h.step (step_inside hw e n)

theorem owned_init (sys : Service) : Owned { sys } :=
  ⟨fun uuid hu => (by cases hu), fun job stage uuid hw => (by cases hw)⟩

end EovpnPro.NmSystem
