import EovpnPro.NmOperations

namespace EovpnPro.NmCancel

open NmOperations NmWorker ProfileAudit Runs Traces

variable {b c : NetworkManager} {id : Nat} {event : Event} {trace : List Event}

def Returned (id : Nat) (trace : List Event) : Prop :=
  ∃ uuid activated, Event.activateConnection id uuid activated ∈ trace

/-- A cancel was called when the operation had been dispatched and its activation
had not returned. -/
def CancelledEarly (id : Nat) : List Event → Prop
  | [] => False
  | event :: older =>
      (event = .cancelCalled ∧ Event.dispatched id ∈ older ∧ ¬ Returned id older) ∨ CancelledEarly id older

def LeftActivated (id : Nat) (trace : List Event) : Prop :=
  ∃ uuid, Event.activateConnection id uuid true ∈ trace ∧
    ¬ (Event.disconnect id uuid ∈ trace ∧ Event.deleteConnection id uuid ∈ trace)

/-- No operation that was cancelled early ends with its profile activated. -/
def CancelKept : List Event → Prop :=
  Always fun older event => ∀ id outcome, event = .ended id outcome → CancelledEarly id older →
    ¬ LeftActivated id older

theorem cancelledEarly_cons (he : event ≠ .cancelCalled) :
    CancelledEarly id (event :: trace) ↔ CancelledEarly id trace := by
  simp only [CancelledEarly, he, false_and, false_or]

theorem cancelledEarly_append {events : List Event} (he : Event.cancelCalled ∉ events) :
    CancelledEarly id (events ++ trace) ↔ CancelledEarly id trace := by
  induction events with
  | nil => exact Iff.rfl
  | cons event events ih =>
      obtain ⟨hne, he⟩ := not_or.mp fun h => he (List.mem_cons.mpr h)
      rw [List.cons_append, cancelledEarly_cons fun h => hne h.symm, ih he]

theorem CancelledEarly.dispatched (h : CancelledEarly id trace) : Event.dispatched id ∈ trace := by
  induction trace with
  | nil => exact h.elim
  | cons event older ih =>
      rcases h with ⟨-, hd, -⟩ | h
      · exact List.mem_cons_of_mem event hd
      · exact List.mem_cons_of_mem event (ih h)

def ActivatedAs (id : Nat) (uuid : String) (trace : List Event) : Prop :=
  Returned id trace ∧ ∀ other activated, Event.activateConnection id other activated ∈ trace → other = uuid

/-- Up to the last check the flag remembers an early cancel, and from there on
the branch taken agrees with it. A profile that cannot be read goes no further
than its copy. -/
def StageKept (cancel : Bool) (id : Nat) (trace : List Event) : Stage → Prop
  | .enter config | .copy config =>
      ¬ Returned id trace ∧ (config.isSome = true → CancelledEarly id trace → cancel = true)
  | .beforeImport _ | .importing _ | .beforeActivation _ | .activating _ =>
      ¬ Returned id trace ∧ (CancelledEarly id trace → cancel = true)
  | .afterActivation uuid => ActivatedAs id uuid trace ∧ (CancelledEarly id trace → cancel = true)
  | .withdrawing uuid => ActivatedAs id uuid trace
  | .deleting uuid => ActivatedAs id uuid trace ∧ Event.disconnect id uuid ∈ trace
  | .saving _ => Returned id trace ∧ ¬ CancelledEarly id trace
  | .cleaningUp _ | .ended _ => CancelledEarly id trace → ¬ LeftActivated id trace
  | .disconnecting => ¬ Returned id trace

theorem LeftActivated.returned (h : LeftActivated id trace) : Returned id trace := by
  obtain ⟨uuid, hm, -⟩ := h
  exact ⟨uuid, true, hm⟩

section

variable {events : List Event}

theorem returned_append (he : ∀ uuid activated, Event.activateConnection id uuid activated ∉ events) :
    Returned id (events ++ trace) ↔ Returned id trace := by
  simp only [Returned, List.mem_append, he, false_or]

theorem ActivatedAs.append {uuid : String} (h : ActivatedAs id uuid trace)
    (he : ∀ other activated, Event.activateConnection id other activated ∉ events) :
    ActivatedAs id uuid (events ++ trace) := by
  simpa only [ActivatedAs, returned_append he, List.mem_append, he, false_or] using h

theorem leftActivated_append_of_not_returned (he : ∀ uuid, Event.activateConnection id uuid true ∉ events)
    (h : ¬ Returned id trace) : ¬ LeftActivated id (events ++ trace) := by
  rintro ⟨uuid, hm, -⟩
  rcases List.mem_append.mp hm with hm | hm
  · exact he uuid hm
  · exact h ⟨uuid, true, hm⟩

end

theorem not_leftActivated_of_removed {uuid : String} (h : ActivatedAs id uuid trace)
    (hd : Event.disconnect id uuid ∈ trace) (hr : Event.deleteConnection id uuid ∈ trace) :
    ¬ LeftActivated id trace := by
  rintro ⟨other, hm, hn⟩
  obtain rfl := h.2 other true hm
  exact hn ⟨hd, hr⟩

theorem not_cancelCalled_advance {cancel : Bool} {stage next : Stage} {events : List Event}
    (h : Advance cancel id stage events next) : Event.cancelCalled ∉ events := by
  intro hm
  cases operation_advance h _ hm

theorem StageKept.advance {cancel : Bool} {stage next : Stage} {events : List Event}
    (h : StageKept cancel id trace stage) (ha : Advance cancel id stage events next) :
    StageKept cancel id (events ++ trace) next := by
  have hearly : CancelledEarly id (events ++ trace) ↔ CancelledEarly id trace :=
    cancelledEarly_append (not_cancelCalled_advance ha)
  cases ha with
  | entered config hc => exact h
  | notEntered => exact fun _ hl => h.1 hl.returned
  | copied i =>
      have hi : i.copy.config.isSome = true := by
        obtain ⟨text, ht, -⟩ := Option.bind_eq_some_iff.mp i.copy.written
        rw [ht]
        rfl
      exact ⟨h.1, h.2 hi⟩
  | notCopied => exact fun _ hl => h.1 hl.returned
  | mayImport i hc => exact h
  | notImporting => exact fun _ hl => h.1 hl.returned
  | imported i uuid => exact ⟨(returned_append (by simp)).not.mpr h.1, fun hl => h.2 (hearly.mp hl)⟩
  | notImported i uuid message => exact fun _ => leftActivated_append_of_not_returned (by simp) h.1
  | mayActivate uuid hc => exact h
  | notActivating => exact fun _ hl => h.1 hl.returned
  | activated uuid =>
      refine ⟨⟨⟨uuid, true, List.mem_cons_self⟩, fun other activated hm => ?_⟩, fun hl => h.2 (hearly.mp hl)⟩
      rcases List.mem_cons.mp hm with hm | hm
      · exact (Event.activateConnection.inj hm).2.1
      · exact absurd ⟨other, activated, hm⟩ h.1
  | notActivated uuid message => exact fun _ => leftActivated_append_of_not_returned (by simp) h.1
  | kept uuid hc => exact ⟨h.1.1, fun hl => Bool.noConfusion (hc.symm.trans (h.2 hl))⟩
  | notKept uuid => exact h.1
  | withdrawn uuid => exact ⟨h.append (by simp), List.mem_cons_self⟩
  | deleted uuid =>
      exact fun _ => not_leftActivated_of_removed (h.1.append (by simp))
        (List.mem_cons_of_mem _ h.2) List.mem_cons_self
  | saved uuid => exact fun hl => absurd hl h.2
  | cleanedUp outcome => exact h
  | disconnected events he =>
      refine fun _ => leftActivated_append_of_not_returned (fun uuid hm => ?_) h
      obtain ⟨uuid, hd | hd⟩ := he _ hm <;> cases hd

theorem returned_cons (ho : operation event = none) : Returned id (event :: trace) ↔ Returned id trace := by
  change Returned id ([event] ++ trace) ↔ Returned id trace
  refine returned_append fun uuid activated hm => ?_
  rw [← List.mem_singleton.mp hm] at ho
  cases ho

theorem ActivatedAs.cons {uuid : String} (h : ActivatedAs id uuid trace) (ho : operation event = none) :
    ActivatedAs id uuid (event :: trace) := by
  change ActivatedAs id uuid ([event] ++ trace)
  refine h.append fun other activated hm => ?_
  rw [← List.mem_singleton.mp hm] at ho
  cases ho

theorem leftActivated_cons (ho : operation event = none) :
    LeftActivated id (event :: trace) ↔ LeftActivated id trace := by
  have hmem : ∀ {e : Event}, operation e = some id → (e ∈ event :: trace ↔ e ∈ trace) := by
    intro e he
    refine List.mem_cons.trans (or_iff_right fun heq => ?_)
    rw [heq, ho] at he
    cases he
  simp only [LeftActivated, hmem (e := .activateConnection id _ _) rfl, hmem (e := .disconnect id _) rfl,
    hmem (e := .deleteConnection id _) rfl]

theorem StageKept.outside {cancel : Bool} {stage : Stage} (h : StageKept cancel id trace stage)
    (ho : operation event = none) (he : event ≠ .cancelCalled) :
    StageKept cancel id (event :: trace) stage := by
  cases stage with
  | enter | copy | beforeImport | importing | beforeActivation | activating =>
      simpa only [StageKept, returned_cons ho, cancelledEarly_cons he] using h
  | afterActivation uuid => exact ⟨h.1.cons ho, fun hl => h.2 ((cancelledEarly_cons he).mp hl)⟩
  | withdrawing uuid => exact ActivatedAs.cons h ho
  | deleting uuid => exact ⟨h.1.cons ho, List.mem_cons_of_mem event h.2⟩
  | saving uuid => exact ⟨(returned_cons ho).mpr h.1, fun hl => h.2 ((cancelledEarly_cons he).mp hl)⟩
  | cleaningUp | ended =>
      exact fun hl ha => h ((cancelledEarly_cons he).mp hl) ((leftActivated_cons ho).mp ha)
  | disconnecting => exact (returned_cons ho).not.mpr h

theorem StageKept.flagged {cancel : Bool} {stage : Stage} (h : StageKept cancel id trace stage) :
    StageKept true id (.cancelCalled :: trace) stage := by
  have hr : Returned id (.cancelCalled :: trace) ↔ Returned id trace := returned_cons rfl
  cases stage with
  | enter | copy => exact ⟨hr.not.mpr h.1, fun _ _ => rfl⟩
  | beforeImport | importing | beforeActivation | activating => exact ⟨hr.not.mpr h.1, fun _ => rfl⟩
  | afterActivation uuid => exact ⟨h.1.cons rfl, fun _ => rfl⟩
  | withdrawing uuid => exact ActivatedAs.cons h rfl
  | deleting uuid => exact ⟨h.1.cons rfl, List.mem_cons_of_mem _ h.2⟩
  | saving uuid =>
      refine ⟨hr.mpr h.1, ?_⟩
      rintro (⟨-, -, hn⟩ | hl)
      · exact hn h.1
      · exact h.2 hl
  | cleaningUp | ended =>
      rintro (⟨-, -, hn⟩ | hl) ha
      · exact hn ((leftActivated_cons rfl).mp ha).returned
      · exact h hl ((leftActivated_cons rfl).mp ha)
  | disconnecting => exact hr.not.mpr h

theorem not_returned_of_queued (h : Ordered b) {job : Job} (hj : job ∈ b.queue) :
    ¬ Returned job.id b.trace := by
  rintro ⟨uuid, activated, hm⟩
  exact Nat.lt_irrefl _ ((h.past _ hm job.id rfl).2 job hj)

structure Tracked (b : NetworkManager) : Prop where
  ordered : Ordered b
  window : b.caller ≠ .idle → ∀ job ∈ b.queue, CancelledEarly job.id b.trace

structure Kept (b : NetworkManager) : Prop where
  tracked : Tracked b
  waiting : b.caller = .idle → ∀ job ∈ b.queue, ¬ CancelledEarly job.id b.trace
  running : ∀ job stage, b.worker = some (.busy job stage) → StageKept b.cancel job.id b.trace stage
  trace : CancelKept b.trace

/-- The condition of one step: the runner does not take a connect operation whose
profile can be read while a cancel is between its first step and its last one. -/
def TakesOutsideCancel (b : NetworkManager) : Action → Prop
  | .worker _ => b.worker = some .looping →
      ∀ job config, b.queue.head? = some job → job.op = .connect (some config) → b.caller = .idle
  | _ => True

theorem Tracked.step {a : Action} (h : Tracked b) (hc : step b a = some c) : Tracked c := by
  refine ⟨h.ordered.step hc, ?_⟩
  cases change_of_step hc with
  | quiet hm ht =>
      simp only [machine, Prod.mk.injEq] at hm
      obtain ⟨hq, -, -, hi, -⟩ := hm
      rw [hi, hq]
      rcases ht with ht | ⟨result, error, ht⟩ <;> rw [ht]
      · exact h.window
      · exact fun hw job hj => (cancelledEarly_cons (by simp)).mpr (h.window hw job hj)
  | dispatched op hi => exact fun hw => absurd hi hw
  | flagged hi =>
      intro hw job hj
      exact .inl ⟨rfl, (h.ordered.queued job hj).2, not_returned_of_queued h.ordered hj⟩
  | suppressed hf => exact fun hw => h.window (by rw [hf]; decide)
  | cleared => exact fun hw => absurd rfl hw
  | retired => exact h.window
  | taken e job rest hw hq =>
      intro hi j hj
      exact (cancelledEarly_cons (by simp)).mpr (h.window hi j (hq ▸ List.mem_cons_of_mem job hj))
  | moved e job stage events next hw hm =>
      obtain ⟨ha, -, ht, hf⟩ := hm
      simp only [frame, Prod.mk.injEq] at hf
      obtain ⟨hq, -, -, hi, -⟩ := hf
      rw [hi, hq, ht]
      exact fun hw j hj => (cancelledEarly_append (not_cancelCalled_advance ha)).mpr (h.window hw j hj)
  | finished e job outcome hw =>
      obtain ⟨ht, hm⟩ := trace_finish b job outcome
      simp only [machine, Prod.mk.injEq] at hm
      obtain ⟨hq, -, -, hi, -⟩ := hm
      rw [hi, hq, ht]
      exact fun hw j hj => (cancelledEarly_cons (by simp)).mpr (h.window hw j hj)

theorem cancelKept_cons (he : ∀ id outcome, event ≠ .ended id outcome) (h : CancelKept trace) :
    CancelKept (event :: trace) :=
  ⟨fun id outcome hh => absurd hh (he id outcome), h⟩

theorem cancelKept_append {events : List Event} (he : ∀ id outcome, Event.ended id outcome ∉ events)
    (h : CancelKept trace) : CancelKept (events ++ trace) := by
  induction events with
  | nil => exact h
  | cons event events ih =>
      refine cancelKept_cons (fun id outcome hh => he id outcome (hh ▸ List.mem_cons_self))
        (ih fun id outcome hm => ?_)
      exact he id outcome (List.mem_cons_of_mem event hm)

theorem not_ended_advance {cancel : Bool} {stage next : Stage} {events : List Event}
    (h : Advance cancel id stage events next) (other : Nat) (outcome : Outcome) :
    Event.ended other outcome ∉ events := by
  intro hm
  cases h with
  | disconnected events he =>
      obtain ⟨uuid, hd | hd⟩ := he _ hm <;> cases hd
  | entered | notEntered | copied | notCopied | mayImport | notImporting | imported | notImported
  | mayActivate | notActivating | activated | notActivated | kept | notKept | withdrawn | deleted
  | saved | cleanedUp =>
      simp at hm

theorem Kept.taken {job : Job} {rest : List Job} (h : Kept b) (hq : b.queue = job :: rest)
    (hg : ∀ config, job.op = .connect (some config) → b.caller = .idle) :
    StageKept false job.id (.started job.id :: b.trace) (firstStage job.op) := by
  have hj : job ∈ b.queue := hq ▸ List.mem_cons_self
  have hr : ¬ Returned job.id ([.started job.id] ++ b.trace) :=
    (returned_append (by simp)).not.mpr (not_returned_of_queued h.tracked.ordered hj)
  cases hop : job.op with
  | disconnect => exact hr
  | connect config =>
      refine ⟨hr, fun hsome hl => ?_⟩
      obtain ⟨text, rfl⟩ := Option.isSome_iff_exists.mp hsome
      exact absurd ((cancelledEarly_cons (by simp)).mp hl) (h.waiting (hg text hop) job hj)

theorem Kept.quiet (h : Kept b) (ht : Tracked c) (hm : machine c = machine b)
    (hevent : c.trace = b.trace ∨ ∃ result error, c.trace = .callback result error :: b.trace) : Kept c := by
  simp only [machine, Prod.mk.injEq] at hm
  obtain ⟨hq, hw, hcancel, hi, -⟩ := hm
  refine ⟨ht, ?_, ?_, ?_⟩ <;> rcases hevent with hevent | ⟨result, error, hevent⟩ <;> rw [hevent]
  · rw [hi, hq]
    exact h.waiting
  · rw [hi, hq]
    exact fun hidle job hj hl => h.waiting hidle job hj ((cancelledEarly_cons (by simp)).mp hl)
  · rw [hw, hcancel]
    exact h.running
  · rw [hw, hcancel]
    exact fun job stage hb => (h.running job stage hb).outside rfl (by simp)
  · exact h.trace
  · exact cancelKept_cons (by simp) h.trace

theorem Kept.dispatched (h : Kept b) (op : Op) (hi : b.caller = .idle)
    (ht : Tracked (dispatchOffUiThread b op)) : Kept (dispatchOffUiThread b op) := by
  refine ⟨ht, fun _ job hj hl => ?_, fun job stage hb => ?_, cancelKept_cons (by simp) h.trace⟩
  · have hl := (cancelledEarly_cons (by simp)).mp hl
    rcases List.mem_append.mp hj with hj | hj
    · exact h.waiting hi job hj hl
    · obtain rfl := List.mem_singleton.mp hj
      exact Nat.lt_irrefl _ (h.tracked.ordered.known _ hl.dispatched)
  · cases hw : b.worker with
    | none => simp [dispatchOffUiThread, log, hw] at hb
    | some worker =>
        simp only [dispatchOffUiThread, log, hw, Option.getD_some] at hb
        exact (h.running job stage (hw.trans hb)).outside rfl (by simp)

theorem Kept.finished (h : Kept b) {job : Job} {outcome : Outcome} (hw : b.worker = some (.busy job (.ended outcome)))
    (ht : Tracked (finish b job outcome)) : Kept (finish b job outcome) := by
  obtain ⟨htrace, hm⟩ := trace_finish b job outcome
  simp only [machine, Prod.mk.injEq] at hm
  obtain ⟨hq, hw', -, hi, -⟩ := hm
  refine ⟨ht, ?_, fun j stage hb => ?_, ?_⟩
  · rw [hi, hq, htrace]
    exact fun hidle j hj hl => h.waiting hidle j hj ((cancelledEarly_cons (by simp)).mp hl)
  · rw [hw'] at hb
    cases hb
  · rw [htrace]
    refine ⟨fun id outcome' he => ?_, h.trace⟩
    obtain ⟨rfl, -⟩ := Event.ended.inj he
    exact h.running job _ hw

theorem Kept.step {a : Action} (h : Kept b) (hc : step b a = some c) (hg : TakesOutsideCancel b a) :
    Kept c := by
  have ht := h.tracked.step hc
  cases change_of_step hc with
  | quiet hm hevent => exact h.quiet ht hm hevent
  | dispatched op hi => exact h.dispatched op hi ht
  | flagged hi =>
      exact ⟨ht, fun hidle => (by cases hidle), fun job stage hb => (h.running job stage hb).flagged,
        cancelKept_cons (by simp) h.trace⟩
  | suppressed hf => exact ⟨ht, fun hidle => (by cases hidle), h.running, h.trace⟩
  | cleared hs => exact ⟨ht, fun _ job hj => absurd hj List.not_mem_nil, h.running, h.trace⟩
  | retired e hw hq => exact ⟨ht, h.waiting, fun job stage hb => (by cases hb), h.trace⟩
  | taken e job rest hw hq =>
      refine ⟨ht, fun hidle j hj hl => ?_, fun j stage hb => ?_, cancelKept_cons (by simp) h.trace⟩
      · exact h.waiting hidle j (hq ▸ List.mem_cons_of_mem job hj) ((cancelledEarly_cons (by simp)).mp hl)
      · obtain ⟨rfl, rfl⟩ := Worker.busy.inj (Option.some.inj hb)
        exact h.taken hq fun config hop => hg hw job config (by rw [hq]; rfl) hop
  | moved e job stage events next hw hm =>
      obtain ⟨ha, hw', htrace, hf⟩ := hm
      simp only [frame, Prod.mk.injEq] at hf
      obtain ⟨hq, hcancel, -, hi, -⟩ := hf
      refine ⟨ht, ?_, fun j stage' hb => ?_, ?_⟩
      · rw [hi, hq, htrace]
        exact fun hidle j hj hl =>
          h.waiting hidle j hj ((cancelledEarly_append (not_cancelCalled_advance ha)).mp hl)
      · rw [hw'] at hb
        obtain ⟨rfl, rfl⟩ := Worker.busy.inj (Option.some.inj hb)
        rw [hcancel, htrace]
        exact (h.running job stage hw).advance ha
      · rw [htrace]
        exact cancelKept_append (not_ended_advance ha) h.trace
  | finished e job outcome hw => exact h.finished hw ht

theorem tracked_init : Tracked {} := ⟨ordered_init, fun h => absurd rfl h⟩

theorem kept_init : Kept {} :=
  ⟨tracked_init, fun _ _ hj => absurd hj List.not_mem_nil, fun _ _ hw => (by cases hw), trivial⟩

def undisturbed : List Action :=
  [.worker {}, .worker {}, .worker {}, .worker {}, .worker { uuid := some "uuid" }, .worker {},
    .worker {}, .worker {}, .worker {}, .worker {}, .worker {}]

def undisturbedImport (config : List Char) : Import :=
  ⟨⟨some config, .unset, PyText.universalNewlines config ++ ['\n'], rfl⟩, none, none⟩

theorem trace_cleaningUp {job : Job} (hw : b.worker = some (.busy job (.cleaningUp .done))) :
    (run step b [.worker {}, .worker {}]).map (·.trace) = some (.ended job.id .done :: b.trace) := by
  obtain ⟨hended, htrace⟩ : (cleanUp b job .done {}).worker = some (.busy job (.ended .done)) ∧
      (cleanUp b job .done {}).trace = b.trace := by
    simp only [cleanUp]
    split
    · split <;> exact ⟨rfl, rfl⟩
    · exact ⟨rfl, rfl⟩
  simp only [run, step, hw, hended, Option.bind_some, stepStage, Option.map_some, finish, log, htrace]

theorem trace_undisturbed {job : Job} {rest : List Job} {config : List Char} (hw : b.worker = some .looping)
    (hq : b.queue = job :: rest) (hop : job.op = .connect (some config)) :
    (run step b undisturbed).map (·.trace) =
      some (.ended job.id .done :: .activateConnection job.id "uuid" true ::
        .addConnection job.id (undisturbedImport config) (some "uuid") :: .started job.id :: b.trace) := by
  let taken := log (toStage { b with queue := rest, cancel := false, suppress := false } job
    (firstStage (.connect (some config)))) (.started job.id)
  have htake : step b (.worker {}) = some taken := by
    simp only [step, hw, takeOperation, hq, hop, taken]
  have hsaved : ∃ c, run step taken (undisturbed.tail.take 8) = some c ∧
      c.worker = some (.busy job (.cleaningUp .done)) ∧
      c.trace = .activateConnection job.id "uuid" true ::
        .addConnection job.id (undisturbedImport config) (some "uuid") :: .started job.id :: b.trace :=
    ⟨_, rfl, rfl, rfl⟩
  obtain ⟨c, hc, hworker, htrace⟩ := hsaved
  have hsplit : undisturbed = .worker {} :: (undisturbed.tail.take 8 ++ [.worker {}, .worker {}]) := rfl
  rw [hsplit, run, htake, Option.bind_some, run_append, hc, Option.bind_some, trace_cleaningUp hworker, htrace]

theorem tracked_run {actions : List Action} (hr : run step {} actions = some b) : Tracked b :=
  (allStates_of_invariant (fun _ _ _ h hc => h.step hc) tracked_init actions).last hr

theorem lost_of_taken (h : Tracked b) {e : Answers} (hg : ¬ TakesOutsideCancel b (.worker e)) :
    ¬ AllStates step (fun b => CancelKept b.trace) b (.worker e :: undisturbed.tail) := by
  simp only [TakesOutsideCancel] at hg
  push Not at hg
  obtain ⟨hw, job, config, hhead, hop, hi⟩ := hg
  obtain ⟨rest, hq⟩ := List.head?_eq_some_iff.mp hhead
  have htake : run step b (.worker e :: undisturbed.tail) = run step b undisturbed := by
    simp only [undisturbed, List.tail_cons, run, step, hw]
  obtain ⟨t, ht, htrace⟩ := Option.map_eq_some_iff.mp (trace_undisturbed hw hq hop)
  have hj : job ∈ b.queue := hq ▸ List.mem_cons_self
  intro hall
  have hkept := hall.last (htake.trans ht)
  rw [htrace] at hkept
  refine hkept.1 job.id .done rfl ?_ ⟨"uuid", List.mem_cons_self, fun hd => ?_⟩
  · simpa only [cancelledEarly_cons, ne_eq, reduceCtorEq, not_false_eq_true] using h.window hi job hj
  · have hd : Event.disconnect job.id "uuid" ∈ b.trace := by simpa using hd.1
    exact Nat.lt_irrefl _ ((h.ordered.past _ hd job.id rfl).2 job hj)

/-- A run in which the runner takes every readable connect operation outside a
cancel loses no cancel, and wherever a run breaks this the cancel can be lost. -/
theorem cancel_kept_iff_taken_outside (actions : List Action) :
    (AllSteps step TakesOutsideCancel {} actions → AllStates step (fun b => CancelKept b.trace) {} actions) ∧
    ∀ b e, run step {} actions = some b → ¬ TakesOutsideCancel b (.worker e) →
      ∃ more, ¬ AllStates step (fun b => CancelKept b.trace) b (.worker e :: more) := by
  constructor
  · intro hg
    have hk := allStates_of_guarded (fun _ _ _ h hg hc => h.step hc hg) kept_init hg
    exact hk.mono fun _ h => h.trace
  · intro b e hr hg
    exact ⟨_, lost_of_taken (tracked_run hr) hg⟩

def profile : List Char := "client\nremote vpn.example 1194\n".toList

/-- A connect waits behind a disconnect that ends just after the cancel has set
its flag. -/
def cancelBehindDisconnect : List Action :=
  [.disconnect, .worker {}, .connect (some profile), .cancelFlag, .worker {}, .worker {},
    .worker {}, .cancelSuppress, .cancelClear] ++ undisturbed.tail

theorem trace_cancelBehindDisconnect :
    (run step {} cancelBehindDisconnect).map (·.trace) =
      some [.ended 1 .done, .activateConnection 1 "uuid" true,
        .addConnection 1 (undisturbedImport profile) (some "uuid"), .started 1, .ended 0 .done,
        .cancelCalled, .dispatched 1, .started 0, .dispatched 0] := by
  decide

theorem cancel_lost : ¬ ∀ actions, AllStates step (fun b => CancelKept b.trace) {} actions := by
  intro h
  obtain ⟨b, hb, ht⟩ := Option.map_eq_some_iff.mp trace_cancelBehindDisconnect
  have hkept := (h cancelBehindDisconnect).last hb
  rw [ht] at hkept
  refine hkept.1 1 .done rfl ?_ ⟨"uuid", by simp, by simp⟩
  simp [CancelledEarly, Returned]

end EovpnPro.NmCancel
