import EovpnPro.NmOperations

namespace EovpnPro.NmStages

open Events NmOperations NmWorker ProfileAudit

variable {b c : NetworkManager}

def isConnect : Op → Bool
  | .connect _ => true
  | .disconnect => false

/-- A cancel was called since the runner took its latest operation. -/
def cancelledSince : List Event → Bool
  | [] => false
  | .started _ :: _ => false
  | .cancelCalled :: _ => true
  | _ :: older => cancelledSince older

section Events

variable {events trace : List Event}

def plain : Event → Bool
  | .started _ | .cancelCalled | .ended _ _ => false
  | _ => true

theorem append_plain {P : List Event → Prop}
    (hstep : ∀ event older, plain event = true → P older → P (event :: older))
    (h : ∀ event ∈ events, plain event = true) (ht : P trace) : P (events ++ trace) := by
  induction events with
  | nil => exact ht
  | cons event events ih =>
      obtain ⟨hp, h⟩ := List.forall_mem_cons.mp h
      exact hstep event (events ++ trace) hp (ih h)

theorem cancelledSince_plain (h : ∀ event ∈ events, plain event = true) :
    cancelledSince (events ++ trace) = cancelledSince trace := by
  apply append_plain (P := fun l => cancelledSince l = cancelledSince trace) _ h rfl
  intro event older hp ih
  cases event with
  | started | cancelCalled | ended => exact Bool.noConfusion hp
  | dispatched | addConnection | activateConnection | disconnect | deleteConnection | callback => exact ih

theorem plain_singleton {event : Event} (h : plain event = true) : ∀ e ∈ [event], plain e = true := by
  intro e he
  obtain rfl := List.mem_singleton.mp he
  exact h

theorem plain_advance {cancel : Bool} {id : Nat} {stage next : Stage}
    (h : Advance cancel id stage events next) : ∀ event ∈ events, plain event = true :=
  forall_advance h (fun _ _ => rfl) (fun _ _ => rfl) (fun _ => rfl) fun _ => rfl

end Events

def Sound (b : NetworkManager) (job : Job) : Stage → Prop
  | .afterActivation uuid | .saving uuid => .activateConnection job.id uuid true ∈ b.trace
  | .cleaningUp .done | .ended .done =>
      isConnect job.op = true →
        (∃ uuid, .activateConnection job.id uuid true ∈ b.trace) ∧ b.nmActiveUuid.isSome = true
  | .withdrawing _ | .deleting _ | .cleaningUp .cancelled | .ended .cancelled => b.cancel = true
  | .disconnecting => isConnect job.op = false
  | _ => True

section Stages

variable {job : Job} {e : Answers}

theorem Sound.mono {stage : Stage} (h : Sound b job stage) (ht : ∀ event ∈ b.trace, event ∈ c.trace)
    (hn : c.nmActiveUuid = b.nmActiveUuid) (hc : b.cancel = true → c.cancel = true) :
    Sound c job stage := by
  have hdone : Sound b job (.ended .done) → Sound c job (.ended .done) := by
    intro h hop
    obtain ⟨⟨uuid, hu⟩, ha⟩ := h hop
    exact ⟨⟨uuid, ht _ hu⟩, hn ▸ ha⟩
  cases stage with
  | afterActivation uuid | saving uuid => exact ht _ h
  | withdrawing | deleting => exact hc h
  | cleaningUp outcome | ended outcome =>
      cases outcome with
      | done => exact hdone h
      | cancelled => exact hc h
      | failed => trivial
  | disconnecting => exact h
  | enter | copy | beforeImport | importing | beforeActivation | activating => trivial

theorem sound_unlessCancelled (go : Stage) {stopped : Stage} (hg : Sound b job go)
    (hs : b.cancel = true → Sound b job stopped) :
    ∃ next, (unlessCancelled b job go stopped).worker = some (.busy job next) ∧
      Sound (unlessCancelled b job go stopped) job next := by
  refine ⟨if b.cancel then stopped else go, rfl, ?_⟩
  cases hc : b.cancel with
  | true => exact hs hc
  | false => exact hg

theorem sound_copyProfile (b : NetworkManager) (job : Job) (config : Option (List Char)) (e : Answers) :
    ∃ next, (copyProfile b job config e).worker = some (.busy job next) ∧
      Sound (copyProfile b job config e) job next := by
  simp only [copyProfile]
  split
  · exact ⟨_, rfl, trivial⟩
  · split
    · exact ⟨_, rfl, trivial⟩
    · split <;> exact ⟨_, rfl, trivial⟩

theorem sound_addConnection (b : NetworkManager) (job : Job) (i : Import) (e : Answers) :
    ∃ next, (addConnection b job i e).worker = some (.busy job next) ∧
      Sound (addConnection b job i e) job next := by
  simp only [addConnection]
  split
  · exact ⟨_, rfl, trivial⟩
  · cases e.uuid with
    | none => exact ⟨_, rfl, trivial⟩
    | some uuid =>
        by_cases hu : uuid = ""
        · exact ⟨_, rfl, by simp only [hu, if_true, Sound]⟩
        · exact ⟨_, rfl, by simp only [hu, if_false, Sound]⟩

theorem sound_activateConnection (b : NetworkManager) (job : Job) (uuid : String) (e : Answers) :
    ∃ next, (activateConnection b job uuid e).worker = some (.busy job next) ∧
      Sound (activateConnection b job uuid e) job next := by
  simp only [activateConnection]
  cases e.raised with
  | some message => exact ⟨_, rfl, trivial⟩
  | none =>
      cases e.activated with
      | false => exact ⟨_, rfl, trivial⟩
      | true => exact ⟨_, rfl, List.mem_cons_self⟩

theorem sound_cleanUp {outcome : Outcome} (h : Sound b job (.cleaningUp outcome)) (e : Answers) :
    ∃ next, (cleanUp b job outcome e).worker = some (.busy job next) ∧
      Sound (cleanUp b job outcome e) job next := by
  have hn : Sound b job (.ended outcome) := by
    cases outcome with
    | done | cancelled | failed => exact h
  simp only [cleanUp]
  split
  · split
    · refine ⟨_, rfl, ?_⟩
      cases outcome with
      | done | cancelled | failed => exact h
    · exact ⟨_, rfl, hn⟩
  · exact ⟨_, rfl, hn⟩

theorem sound_disconnectBlocking (b : NetworkManager) (h : isConnect job.op = false) (e : Answers) :
    ∃ next, (disconnectBlocking b job e).worker = some (.busy job next) ∧
      Sound (disconnectBlocking b job e) job next := by
  have hn : ∀ c, Sound c job (.ended .done) := fun c hc => by rw [h] at hc; exact Bool.noConfusion hc
  simp only [disconnectBlocking]
  split
  · exact ⟨_, rfl, hn _⟩
  · split <;> exact ⟨_, rfl, hn _⟩

theorem sound_stepStage {stage : Stage} (hs : ∀ outcome, stage ≠ .ended outcome) (h : Sound b job stage)
    (e : Answers) :
    ∃ next, (stepStage b job e stage).worker = some (.busy job next) ∧
      Sound (stepStage b job e stage) job next := by
  cases stage with
  | enter config => exact sound_unlessCancelled (.copy config) trivial fun hc => hc
  | copy config => exact sound_copyProfile b job config e
  | beforeImport i => exact sound_unlessCancelled (.importing i) trivial fun hc => hc
  | importing i => exact sound_addConnection b job i e
  | beforeActivation uuid => exact sound_unlessCancelled (.activating uuid) trivial fun hc => hc
  | activating uuid => exact sound_activateConnection b job uuid e
  | afterActivation uuid => exact sound_unlessCancelled (.saving uuid) h fun hc => hc
  | withdrawing uuid | deleting uuid => exact ⟨_, rfl, h⟩
  | saving uuid => exact ⟨_, rfl, fun _ => ⟨⟨uuid, h⟩, rfl⟩⟩
  | cleaningUp outcome => exact sound_cleanUp h e
  | disconnecting => exact sound_disconnectBlocking b h e
  | ended outcome => exact absurd rfl (hs outcome)

def untouched (b : NetworkManager) : Bool × Bool × List (Nat × String) := (b.watch, b.dbus, b.messages)

theorem untouched_stepStage {stage : Stage} (hs : ∀ outcome, stage ≠ .ended outcome) (b : NetworkManager)
    (job : Job) (e : Answers) : untouched (stepStage b job e stage) = untouched b := by
  cases stage with
  | enter | beforeImport | beforeActivation | afterActivation | withdrawing | deleting | saving => rfl
  | copy config =>
      simp only [stepStage, copyProfile]
      split
      · rfl
      · split
        · rfl
        · split <;> rfl
  | importing i =>
      simp only [stepStage, addConnection]
      split <;> rfl
  | activating uuid => rfl
  | cleaningUp outcome =>
      simp only [stepStage, cleanUp]
      split
      · split <;> rfl
      · rfl
  | disconnecting =>
      simp only [stepStage, disconnectBlocking]
      split
      · exact kept_foldl_disconnect (f := untouched) (fun _ _ => rfl) job.id _ b
      · split <;> rfl
  | ended outcome => exact absurd rfl (hs outcome)

theorem messages_stepStage {stage : Stage} (hs : ∀ outcome, stage ≠ .ended outcome) (b : NetworkManager)
    (job : Job) (e : Answers) : (stepStage b job e stage).messages = b.messages :=
  congrArg (fun u => u.2.2) (untouched_stepStage hs b job e)

def listener (b : NetworkManager) : Bool × Bool := (b.watch, b.dbus)

theorem listener_stepStage (b : NetworkManager) (job : Job) (e : Answers) (stage : Stage) :
    listener (stepStage b job e stage) = listener b := by
  by_cases hs : ∃ outcome, stage = .ended outcome
  · obtain ⟨outcome, rfl⟩ := hs
    simp only [stepStage, finish]
    split
    · split <;> rfl
    · rfl
  · exact congrArg (fun u => (u.1, u.2.1)) (untouched_stepStage (fun outcome ho => hs ⟨outcome, ho⟩) b job e)

theorem active_stepStage {stage : Stage} (hs : stage ≠ .disconnecting) (h : b.nmActiveUuid.isSome = true) :
    (stepStage b job e stage).nmActiveUuid.isSome = true := by
  cases stage with
  | enter | beforeImport | beforeActivation | afterActivation | withdrawing | deleting => exact h
  | saving => rfl
  | copy config =>
      simp only [stepStage, copyProfile]
      split
      · exact h
      · split
        · exact h
        · split <;> exact h
  | importing i =>
      simp only [stepStage, addConnection]
      split <;> exact h
  | activating uuid => exact h
  | cleaningUp outcome =>
      simp only [stepStage, cleanUp]
      split
      · split <;> exact h
      · exact h
  | disconnecting => exact absurd rfl hs
  | ended outcome =>
      simp only [stepStage, finish]
      split
      · split <;> exact h
      · exact h

theorem guarded_finish {outcome : Outcome} {result : Result} {error : Option String}
    (h : Idle.guarded result error ∈ (finish b job outcome).idle) :
    Idle.guarded result error ∈ b.idle := by
  simp only [finish] at h
  split at h
  · split at h
    · exact h
    · simpa [log] using h
  · exact h

theorem idle_finish (b : NetworkManager) (job : Job) (outcome : Outcome) :
    ∃ more, (finish b job outcome).idle = b.idle ++ more := by
  simp only [finish]
  split
  · split
    · exact ⟨[], (List.append_nil _).symm⟩
    · exact ⟨_, rfl⟩
  · exact ⟨[], (List.append_nil _).symm⟩

end Stages

end EovpnPro.NmStages
