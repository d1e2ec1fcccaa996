import EovpnPro.NmOperations

namespace EovpnPro.WorkerThreads

open Runs

variable {α : Type}

structure Task (α : Type) where
  id : Nat
  operation : α

/-- Where a thread is in `_operation_runner`: at its locked block, inside an
operation, past its last locked block, or gone. -/
inductive Phase (α : Type)
  | looping
  | running (task : Task α)
  | returning
  | dead

inductive Event
  | dispatched (id : Nat)
  | started (id : Nat)
  | removed (id : Nat)
  | ended (id : Nat) (outcome : NmWorker.Outcome)
  deriving DecidableEq, Repr

/-- The queue, the registered thread and every thread ever started. A thread's
number is its place in `threads`, `trace` has the newest event first. -/
structure Pool (α : Type) where
  queue : List (Task α) := []
  workerThread : Option Nat := none
  threads : List (Phase α) := []
  next : Nat := 0
  trace : List Event := []

variable {p q : Pool α} {thread other id : Nat}

def isAlive (p : Pool α) (thread : Nat) : Bool :=
  match p.threads[thread]? with
  | none | some .dead => false
  | some _ => true

def log (p : Pool α) (event : Event) : Pool α := { p with trace := event :: p.trace }

def setPhase (p : Pool α) (thread : Nat) (phase : Phase α) : Pool α :=
  { p with threads := p.threads.set thread phase }

def startThread (p : Pool α) : Pool α :=
  { p with threads := p.threads ++ [.looping], workerThread := some p.threads.length }

/-- The locked block of `_dispatch_off_ui_thread`. -/
def dispatchOffUiThread (p : Pool α) (operation : α) : Pool α :=
  let p := log { p with queue := p.queue ++ [⟨p.next, operation⟩], next := p.next + 1 } (.dispatched p.next)
  if p.workerThread.any (isAlive p) then p else startThread p

/-- The locked block of `cancel_current_operation`. -/
def cancelCurrentOperation (p : Pool α) : Pool α :=
  { p with queue := [], trace := (p.queue.reverse.map fun task => .removed task.id) ++ p.trace }

/-- The locked block of `_operation_runner`. -/
def takeOperation (p : Pool α) (thread : Nat) : Pool α :=
  match p.queue with
  | [] => setPhase { p with workerThread := none } thread .returning
  | task :: rest => log (setPhase { p with queue := rest } thread (.running task)) (.started task.id)

inductive Action (α : Type)
  | dispatch (operation : α)
  | cancel
  | thread (thread : Nat) (outcome : NmWorker.Outcome)

/-- One atomic block. Whether its operation ends normally or with an exception, a
thread goes back to its locked block. -/
def step (p : Pool α) : Action α → Option (Pool α)
  | .dispatch operation => some (dispatchOffUiThread p operation)
  | .cancel => some (cancelCurrentOperation p)
  | .thread thread outcome =>
      match p.threads[thread]? with
      | some .looping => some (takeOperation p thread)
      | some (.running task) => some (log (setPhase p thread .looping) (.ended task.id outcome))
      | some .returning => some (setPhase p thread .dead)
      | some .dead | none => none

inductive Change (p : Pool α) : Action α → Pool α → Prop
  | dispatched (operation : α) : Change p (.dispatch operation) (dispatchOffUiThread p operation)
  | cancelled : Change p .cancel (cancelCurrentOperation p)
  | retired (thread : Nat) (outcome : NmWorker.Outcome) (hp : p.threads[thread]? = some .looping)
      (hq : p.queue = []) :
      Change p (.thread thread outcome) (setPhase { p with workerThread := none } thread .returning)
  | taken (thread : Nat) (outcome : NmWorker.Outcome) (task : Task α) (rest : List (Task α))
      (hp : p.threads[thread]? = some .looping) (hq : p.queue = task :: rest) :
      Change p (.thread thread outcome)
        (log (setPhase { p with queue := rest } thread (.running task)) (.started task.id))
  | ended (thread : Nat) (outcome : NmWorker.Outcome) (task : Task α)
      (hp : p.threads[thread]? = some (.running task)) :
      Change p (.thread thread outcome) (log (setPhase p thread .looping) (.ended task.id outcome))
  | died (thread : Nat) (outcome : NmWorker.Outcome) (hp : p.threads[thread]? = some .returning) :
      Change p (.thread thread outcome) (setPhase p thread .dead)

theorem change_of_step {a : Action α} (hs : step p a = some q) : Change p a q := by
  cases a with
  | dispatch operation =>
      obtain rfl := Option.some.inj hs
      exact .dispatched operation
  | cancel =>
      obtain rfl := Option.some.inj hs
      exact .cancelled
  | thread thread outcome =>
      simp only [step] at hs
      split at hs
      · rename_i hp
        obtain rfl := Option.some.inj hs
        simp only [takeOperation]
        split
        · rename_i hq
          exact .retired thread outcome hp hq
        · rename_i task rest hq
          exact .taken thread outcome task rest hp hq
      · rename_i task hp
        obtain rfl := Option.some.inj hs
        exact .ended thread outcome task hp
      · rename_i hp
        obtain rfl := Option.some.inj hs
        exact .died thread outcome hp
      · cases hs
      · cases hs

theorem run_of_change {a : Action α} (h : Change p a q) : run step p [a] = some q := by
  have hstep : step p a = some q := by
    cases h with
    | dispatched | cancelled => rfl
    | retired thread outcome hp hq => simp only [step, hp, takeOperation, hq]
    | taken thread outcome task rest hp hq => simp only [step, hp, takeOperation, hq]
    | ended thread outcome task hp => simp only [step, hp]
    | died thread outcome hp => simp only [step, hp]
  rw [run, hstep]
  rfl

theorem trace_dispatched (p : Pool α) (operation : α) :
    (dispatchOffUiThread p operation).trace = .dispatched p.next :: p.trace := by
  simp only [dispatchOffUiThread]
  split <;> rfl

theorem queue_dispatched (p : Pool α) (operation : α) :
    (dispatchOffUiThread p operation).queue = p.queue ++ [⟨p.next, operation⟩] := by
  simp only [dispatchOffUiThread]
  split <;> rfl

theorem next_dispatched (p : Pool α) (operation : α) :
    (dispatchOffUiThread p operation).next = p.next + 1 := by
  simp only [dispatchOffUiThread]
  split <;> rfl

def Phase.live : Phase α → Bool
  | looping | running _ => true
  | returning | dead => false

def live (p : Pool α) (thread : Nat) : Bool := p.threads[thread]?.any Phase.live

theorem isAlive_of_live (h : live p thread = true) : isAlive p thread = true := by
  simp only [live, isAlive] at h ⊢
  cases hp : p.threads[thread]? with
  | none => simp [hp] at h
  | some phase => cases phase <;> simp [hp, Phase.live] at h ⊢

theorem lt_of_phase {phase : Phase α} (h : p.threads[thread]? = some phase) : thread < p.threads.length :=
  (List.getElem?_eq_some_iff.mp h).1

theorem phase_setPhase (phase : Phase α) (ht : thread < p.threads.length) :
    (setPhase p thread phase).threads[thread]? = some phase := by
  simp only [setPhase, List.getElem?_set, ht, if_true]

theorem live_setPhase {phase : Phase α} (ht : thread < p.threads.length) :
    live (setPhase p thread phase) other = if other = thread then phase.live else live p other := by
  simp only [live, setPhase, List.getElem?_set, ht, if_true]
  by_cases ho : other = thread
  · simp [ho]
  · simp [ho, Ne.symm ho]

theorem live_startThread :
    live (startThread p) other = (decide (other = p.threads.length) || live p other) := by
  simp only [live, startThread, List.getElem?_append]
  by_cases hlt : other < p.threads.length
  · simp [hlt, Nat.ne_of_lt hlt]
  · rcases Nat.lt_or_eq_of_le (Nat.le_of_not_lt hlt) with h | h
    · have hpos : other - p.threads.length ≠ 0 := by omega
      simp [hlt, Nat.ne_of_gt h, hpos]
    · simp [← h, Phase.live]

/-- The registered thread is the only one that comes back to the queue, and it is
registered while anything waits. -/
structure Serial (p : Pool α) : Prop where
  registered : ∀ thread, p.workerThread = some thread ↔ live p thread = true
  served : p.queue ≠ [] → p.workerThread ≠ none

theorem Serial.unregistered (h : Serial p) (ha : ¬ p.workerThread.any (isAlive p) = true) :
    p.workerThread = none := by
  cases hw : p.workerThread with
  | none => rfl
  | some thread =>
      refine absurd ?_ ha
      rw [hw]
      exact isAlive_of_live ((h.registered thread).mp hw)

theorem dispatchOffUiThread_of_alive (h : p.workerThread.any (isAlive p) = true) (operation : α) :
    dispatchOffUiThread p operation = log { p with
      queue := p.queue ++ [⟨p.next, operation⟩], next := p.next + 1 } (.dispatched p.next) :=
  if_pos h

theorem Serial.dispatched (h : Serial p) (operation : α) : Serial (dispatchOffUiThread p operation) := by
  simp only [dispatchOffUiThread]
  split
  · rename_i ha
    refine ⟨h.registered, fun _ hn => ?_⟩
    rw [hn] at ha
    cases ha
  · rename_i ha
    have hnone : p.workerThread = none := h.unregistered ha
    refine ⟨fun thread => ?_, fun _ => by simp [startThread]⟩
    have hdead : live p thread = false := by
      rw [Bool.eq_false_iff, ne_eq, ← h.registered, hnone]
      simp
    rw [live_startThread]
    change some p.threads.length = some thread ↔
      (decide (thread = p.threads.length) || live p thread) = true
    rw [hdead, Bool.or_false, decide_eq_true_iff, Option.some.injEq, eq_comm]

theorem live_eq {phase : Phase α} (hp : p.threads[thread]? = some phase) : live p thread = phase.live := by
  rw [live, hp, Option.any_some]

theorem Serial.moved (h : Serial p) {old : Phase α} (new : Phase α) (hp : p.threads[thread]? = some old)
    (hl : new.live = old.live) (ht : q.threads = (setPhase p thread new).threads)
    (hw : q.workerThread = p.workerThread) (hq : q.queue ≠ [] → p.queue ≠ []) : Serial q := by
  refine ⟨fun other => ?_, fun hne => ?_⟩
  · have hsame : live q other = live p other := by
      change (q.threads[other]?).any Phase.live = _
      rw [ht]
      change live (setPhase p thread new) other = _
      rw [live_setPhase (lt_of_phase hp)]
      split_ifs with ho
      · rw [ho, hl, live_eq hp]
      · rfl
    rw [hw, hsame]
    exact h.registered other
  · rw [hw]
    exact h.served (hq hne)

theorem Serial.retired (h : Serial p) (hp : p.threads[thread]? = some .looping) (hq : p.queue = []) :
    Serial (setPhase { p with workerThread := none } thread .returning) := by
  refine ⟨fun other => ?_, fun hne => absurd hq hne⟩
  have hreg : p.workerThread = some thread := (h.registered thread).mpr (live_eq hp)
  rw [live_setPhase (p := { p with workerThread := none }) (lt_of_phase hp)]
  change none = some other ↔ (if other = thread then false else live p other) = true
  split_ifs with ho
  · simp
  · rw [← h.registered, hreg, Option.some.injEq]
    exact iff_of_false (by simp) (Ne.symm ho)

theorem Serial.taken (h : Serial p) (hp : p.threads[thread]? = some .looping) {task : Task α}
    {rest : List (Task α)} (hq : p.queue = task :: rest) :
    Serial (log (setPhase { p with queue := rest } thread (.running task)) (.started task.id)) :=
  h.moved (.running task) hp rfl rfl rfl fun _ => by simp [hq]

theorem Serial.ended (h : Serial p) {task : Task α} (hp : p.threads[thread]? = some (.running task))
    (outcome : NmWorker.Outcome) : Serial (log (setPhase p thread .looping) (.ended task.id outcome)) :=
  h.moved .looping hp rfl rfl rfl id

theorem Serial.step {a : Action α} (h : Serial p) (hs : step p a = some q) : Serial q := by
  cases change_of_step hs with
  | dispatched operation => exact h.dispatched operation
  | cancelled => exact ⟨h.registered, fun hq => absurd rfl hq⟩
  | retired thread outcome hp hq => exact h.retired hp hq
  | taken thread outcome task rest hp hq => exact h.taken hp hq
  | ended thread outcome task hp => exact h.ended hp outcome
  | died thread outcome hp => exact h.moved .dead hp rfl rfl rfl id

theorem serial_init : Serial ({} : Pool α) := ⟨fun thread => by simp [live], fun hq => absurd rfl hq⟩

def dispatched? : Event → Option Nat
  | .dispatched id => some id
  | _ => none

def started? : Event → Option Nat
  | .started id => some id
  | _ => none

def removed? : Event → Option Nat
  | .removed id => some id
  | _ => none

def dispatches (p : Pool α) : List Nat := p.trace.filterMap dispatched?

def starts (p : Pool α) : List Nat := p.trace.filterMap started?

def removals (p : Pool α) : List Nat := p.trace.filterMap removed?

def waiting (p : Pool α) : List Nat := p.queue.map Task.id

/-- Every dispatched operation is in one place, and those that were not removed are
in the order of their dispatch. -/
structure Accounted (p : Pool α) : Prop where
  numbered : (dispatches p).reverse = List.range p.next
  ordered : ((starts p).reverse ++ waiting p).Sublist (List.range p.next)
  once : ∀ id, (starts p).count id + (removals p).count id + (waiting p).count id = (dispatches p).count id

theorem waiting_dispatched (operation : α) :
    waiting (dispatchOffUiThread p operation) = waiting p ++ [p.next] := by
  rw [waiting, queue_dispatched, List.map_append]
  rfl

theorem Accounted.dispatched (h : Accounted p) (operation : α) :
    Accounted (dispatchOffUiThread p operation) := by
  have hd : dispatches (dispatchOffUiThread p operation) = p.next :: dispatches p := by
    rw [dispatches, trace_dispatched]
    rfl
  have hs : starts (dispatchOffUiThread p operation) = starts p := by
    rw [starts, trace_dispatched]
    rfl
  have hr : removals (dispatchOffUiThread p operation) = removals p := by
    rw [removals, trace_dispatched]
    rfl
  refine ⟨?_, ?_, fun id => ?_⟩
  · rw [hd, next_dispatched, List.reverse_cons, h.numbered, List.range_succ]
  · rw [hs, waiting_dispatched, next_dispatched, List.range_succ, ← List.append_assoc]
    exact h.ordered.append (List.Sublist.refl _)
  · have hone := h.once id
    rw [hs, hr, waiting_dispatched, hd, List.count_append, List.count_cons, List.count_cons, List.count_nil]
    omega

theorem Accounted.cancelled (h : Accounted p) : Accounted (cancelCurrentOperation p) := by
  have hd : dispatches (cancelCurrentOperation p) = dispatches p := by
    simp [dispatches, cancelCurrentOperation, List.filterMap_append, List.filterMap_map, dispatched?,
      Function.comp_def]
  have hs : starts (cancelCurrentOperation p) = starts p := by
    simp [starts, cancelCurrentOperation, List.filterMap_append, List.filterMap_map, started?,
      Function.comp_def]
  have hr : removals (cancelCurrentOperation p) = (waiting p).reverse ++ removals p := by
    simp [removals, waiting, cancelCurrentOperation, List.filterMap_append, List.filterMap_map, removed?,
      Function.comp_def]
  have hw : waiting (cancelCurrentOperation p) = [] := rfl
  refine ⟨?_, ?_, fun id => ?_⟩
  · rw [hd]
    exact h.numbered
  · rw [hs, hw, List.append_nil]
    exact (List.sublist_append_left _ _).trans h.ordered
  · have hone := h.once id
    rw [hs, hr, hw, hd, List.count_append, List.count_reverse, List.count_nil]
    omega

theorem Accounted.taken (h : Accounted p) {task : Task α} {rest : List (Task α)}
    (hq : p.queue = task :: rest) :
    Accounted (log (setPhase { p with queue := rest } thread (.running task)) (.started task.id)) := by
  have hw : waiting p = task.id :: rest.map Task.id := by rw [waiting, hq, List.map_cons]
  refine ⟨h.numbered, ?_, fun id => ?_⟩
  · have hsame : (starts p).reverse ++ waiting p = (task.id :: starts p).reverse ++ rest.map Task.id := by
      rw [hw, List.reverse_cons, List.append_assoc, List.singleton_append]
    exact hsame ▸ h.ordered
  · have hone := h.once id
    rw [hw, List.count_cons] at hone
    change (task.id :: starts p).count id + (removals p).count id + (rest.map Task.id).count id =
      (dispatches p).count id
    rw [List.count_cons]
    omega

theorem Accounted.step {a : Action α} (h : Accounted p) (hs : step p a = some q) : Accounted q := by
  cases change_of_step hs with
  | dispatched operation => exact h.dispatched operation
  | cancelled => exact h.cancelled
  | taken thread outcome task rest hp hq => exact h.taken hq
  | retired | ended | died => exact ⟨h.numbered, h.ordered, h.once⟩

theorem accounted_init : Accounted ({} : Pool α) := ⟨rfl, List.Sublist.refl _, fun _ => rfl⟩

/-- One runner at a time, in the order of dispatch, each operation once unless a
cancel removed it, and no operation waits without a runner that can take it. -/
structure SerialFifo (p : Pool α) : Prop where
  serial : ∀ (thread other : Nat) (task task' : Task α), p.threads[thread]? = some (.running task) →
    p.threads[other]? = some (.running task') → thread = other
  fifo : (starts p).reverse.Sublist (dispatches p).reverse
  once : ∀ id ∈ dispatches p, (starts p).count id + (removals p).count id + (waiting p).count id = 1
  served : p.queue ≠ [] → ∃ thread, p.workerThread = some thread ∧ live p thread = true ∧
    ∀ outcome, (step p (.thread thread outcome)).isSome = true

theorem step_live (h : live p thread = true) (outcome : NmWorker.Outcome) :
    (step p (.thread thread outcome)).isSome = true := by
  simp only [live] at h
  cases hp : p.threads[thread]? with
  | none => simp [hp] at h
  | some phase => cases phase <;> simp [hp, Phase.live] at h <;> simp [step, hp]

theorem serialFifo_of (hs : Serial p) (ha : Accounted p) : SerialFifo p := by
  refine ⟨fun thread other task task' ht ho => ?_, ?_, fun id hid => ?_, fun hq => ?_⟩
  · have hreg := (hs.registered thread).mpr (live_eq ht)
    rw [(hs.registered other).mpr (live_eq ho), Option.some.injEq] at hreg
    exact hreg.symm
  · rw [ha.numbered]
    exact (List.sublist_append_left _ _).trans ha.ordered
  · rw [ha.once id]
    have hnodup : (dispatches p).Nodup := by
      rw [← List.nodup_reverse, ha.numbered]
      exact List.nodup_range
    exact List.count_eq_one_of_mem hnodup hid
  · obtain ⟨thread, hw⟩ := Option.ne_none_iff_exists'.mp (hs.served hq)
    have hl := (hs.registered thread).mp hw
    exact ⟨thread, hw, hl, step_live hl⟩

def Phase.isRunning : Phase α → Bool
  | running _ => true
  | _ => false

theorem serial_accounted (actions : List (Action α)) :
    AllStates step (fun p => Serial p ∧ Accounted p) {} actions :=
  allStates_of_invariant (fun _ _ _ h hs => ⟨h.1.step hs, h.2.step hs⟩) ⟨serial_init, accounted_init⟩
    actions

section

open NmWorker NmOperations

variable {b c : NetworkManager} {r : Pool Op}

def task (job : Job) : Task Op := ⟨job.id, job.op⟩

def phase : Worker → Phase Op
  | .looping => .looping
  | .busy job _ => .running (task job)

def runner (p : Pool α) : Option (Phase α) := p.workerThread.bind fun thread => p.threads[thread]?

/-- The runner of the backend is the registered thread. -/
structure Matches (b : NetworkManager) (p : Pool Op) : Prop where
  queue : p.queue = b.queue.map task
  next : p.next = b.nextId
  worker : runner p = b.worker.map phase

theorem runner_eq_some {phase : Phase α} (h : runner p = some phase) :
    ∃ thread, p.workerThread = some thread ∧ p.threads[thread]? = some phase :=
  Option.bind_eq_some_iff.mp h

theorem runner_of_phase {phase : Phase α} (hw : p.workerThread = some thread)
    (hp : p.threads[thread]? = some phase) : runner p = some phase := by
  rw [runner, hw, Option.bind_some, hp]

theorem Serial.runner_eq_none (h : Serial p) (hn : runner p = none) : p.workerThread = none := by
  cases hw : p.workerThread with
  | none => rfl
  | some thread =>
      have hl := (h.registered thread).mp hw
      rw [runner, hw, Option.bind_some] at hn
      rw [live, hn] at hl
      cases hl

theorem Matches.registered (h : Matches b r) {worker : Worker} (hw : b.worker = some worker) :
    ∃ thread, r.workerThread = some thread ∧ r.threads[thread]? = some (phase worker) :=
  runner_eq_some (h.worker.trans (congrArg (Option.map phase) hw))

theorem Matches.dispatched (h : Matches b r) (hs : Serial r) (op : Op) :
    Matches (NmWorker.dispatchOffUiThread b op) (dispatchOffUiThread r op) := by
  refine ⟨?_, ?_, ?_⟩
  · rw [queue_dispatched, h.queue, h.next]
    simp [NmWorker.dispatchOffUiThread, NmWorker.log, task]
  · rw [next_dispatched, h.next]
    rfl
  · have hworker := h.worker
    rw [NmWorker.dispatchOffUiThread, NmWorker.log]
    cases hb : b.worker with
    | none =>
        rw [hb] at hworker
        have hnone := hs.runner_eq_none hworker
        simp [dispatchOffUiThread, log, hnone, startThread, runner, phase]
    | some worker =>
        rw [hb] at hworker
        obtain ⟨thread, hw, hp⟩ := h.registered hb
        have halive : r.workerThread.any (isAlive r) = true := by
          rw [hw]
          exact isAlive_of_live ((hs.registered thread).mp hw)
        rw [dispatchOffUiThread_of_alive halive]
        exact hworker

theorem Matches.step {a : NmWorker.Action} (h : Matches b r) (hs : Serial r)
    (hc : NmWorker.step b a = some c) : ∃ more q, run step r more = some q ∧ Matches c q := by
  cases NmOperations.change_of_step hc with
  | quiet hm ht =>
      simp only [machine, Prod.mk.injEq] at hm
      obtain ⟨hq, hw, -, -, hn⟩ := hm
      exact ⟨[], r, rfl, hq ▸ h.queue, hn ▸ h.next, hw ▸ h.worker⟩
  | dispatched op => exact ⟨[.dispatch op], _, rfl, h.dispatched hs op⟩
  | flagged | suppressed => exact ⟨[], r, rfl, h.queue, h.next, h.worker⟩
  | cleared => exact ⟨[.cancel], _, rfl, rfl, h.next, h.worker⟩
  | retired e hw hq =>
      obtain ⟨thread, hreg, hp⟩ := h.registered hw
      have hempty : r.queue = [] := by rw [h.queue, hq, List.map_nil]
      have hchange := Change.retired thread .done hp hempty
      exact ⟨_, _, run_of_change hchange, h.queue, h.next, rfl⟩
  | taken e job rest hw hq =>
      obtain ⟨thread, hreg, hp⟩ := h.registered hw
      have hcons : r.queue = task job :: rest.map task := by rw [h.queue, hq, List.map_cons]
      have hchange := Change.taken thread .done (task job) (rest.map task) hp hcons
      refine ⟨_, _, run_of_change hchange, rfl, h.next, ?_⟩
      exact runner_of_phase hreg (phase_setPhase (.running (task job)) (lt_of_phase hp))
  | moved e job stage events next hw hm =>
      obtain ⟨-, hw', -, hf⟩ := hm
      simp only [frame, Prod.mk.injEq] at hf
      obtain ⟨hq, -, -, -, -, hn⟩ := hf
      refine ⟨[], r, rfl, hq ▸ h.queue, hn ▸ h.next, ?_⟩
      rw [h.worker, hw, hw']
      rfl
  | finished e job outcome hw =>
      obtain ⟨-, hm⟩ := trace_finish b job outcome
      simp only [machine, Prod.mk.injEq] at hm
      obtain ⟨hq, hw', -, -, hn⟩ := hm
      obtain ⟨thread, hreg, hp⟩ := h.registered hw
      have hchange := Change.ended thread outcome (task job) hp
      refine ⟨_, _, run_of_change hchange, hq ▸ h.queue, hn ▸ h.next, ?_⟩
      rw [hw']
      exact runner_of_phase hreg (phase_setPhase .looping (lt_of_phase hp))

/-- However the backend runs, the threads can run so that they come to the same queue and the
same operation in hand, one runner at a time and in the order of dispatch. -/
theorem runs_on_threads (actions : List NmWorker.Action) :
    AllStates NmWorker.step
      (fun b => ∃ more r, run step {} more = some r ∧ Matches b r ∧ SerialFifo r) {} actions := by
  have hreached : AllStates NmWorker.step (fun b => ∃ more r, run step {} more = some r ∧ Matches b r)
      {} actions := by
    refine allStates_of_invariant ?_ ⟨[], {}, rfl, ⟨rfl, rfl, rfl⟩⟩ actions
    rintro b a c ⟨more, r, hr, hm⟩ hc
    obtain ⟨rest, q, hq, hm⟩ := hm.step ((serial_accounted more).last hr).1 hc
    refine ⟨more ++ rest, q, ?_, hm⟩
    rw [run_append, hr]
    exact hq
  refine hreached.mono fun b ⟨more, r, hr, hm⟩ => ?_
  obtain ⟨hserial, hacc⟩ := (serial_accounted more).last hr
  exact ⟨more, r, hr, hm, serialFifo_of hserial hacc⟩

end

end EovpnPro.WorkerThreads
